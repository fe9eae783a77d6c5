import Mathlib.Data.Fintype.EquivFin
import SecuritySuite.Carbonite.SingleIncident
import SecuritySuite.Carbonite.TableChange

/-!
# A modification that no tick sees

The hash is no secret, so who can write to the system call table can also make up for what has been written. Where the
hash in front does not carry, a turn over one word reaches every hash (`beforeShift_surjective`), and one word more takes
the carry away (`exists_calm_word`). `forged_table_unseen` says that for every change of the table two words behind
it can be chosen in such a way that the checker stays silent for good.
-/

namespace Carbonite.Forgery
set_option autoImplicit false
open CString BitMixing Runs

/-! ## Words -/

/-- The four bytes of a word, in little-endian order. -/
def wordBytes (n : Nat) : List Byte :=
  [UInt8.ofNat n, UInt8.ofNat (n / 2 ^ 8), UInt8.ofNat (n / 2 ^ 16), UInt8.ofNat (n / 2 ^ 24)]

@[simp] theorem wordBytes_length (n : Nat) : (wordBytes n).length = 4 := rfl

theorem byte_inj {m n : Nat} (same : UInt8.ofNat m = UInt8.ofNat n) : m % 256 = n % 256 := by
  rw [← UInt8.toNat_inj, UInt8.toNat_ofNat', UInt8.toNat_ofNat'] at same
  exact same

theorem wordBytes_injective {m n : Nat} (small : m < 2 ^ 32) (small' : n < 2 ^ 32) (same : wordBytes m = wordBytes n) :
    m = n := by
  simp only [wordBytes, List.cons.injEq, and_true] at same
  obtain ⟨first, second, third, fourth⟩ := same
  have first := byte_inj first
  have second := byte_inj second
  have third := byte_inj third
  have fourth := byte_inj fourth
  omega

/-- Where the hash does not carry, the turns over different words lead to all hashes. -/
theorem beforeShift_surjective {hash : UInt32} (stays : ¬ Carries hash) (target : UInt32) :
    ∃ word : List Byte, word.length = 4 ∧ beforeShift hash word = target := by
  let turn : Fin (2 ^ 32) → Fin (2 ^ 32) := fun n => ⟨(beforeShift hash (wordBytes n)).toNat, UInt32.toNat_lt _⟩
  have injective : Function.Injective turn := by
    intro m n same
    have equal := UInt32.toNat_inj.1 (Fin.mk.inj same)
    exact Fin.ext (wordBytes_injective m.isLt n.isLt (beforeShift_word_injective rfl rfl stays equal))
  obtain ⟨n, reached⟩ := Finite.injective_iff_surjective.1 injective ⟨target.toNat, target.toNat_lt⟩
  exact ⟨wordBytes n, rfl, UInt32.toNat_inj.1 (Fin.mk.inj reached)⟩

/-- The upper half of the word `n * 2 ^ 16`. -/
theorem get16bits_upper {n : Nat} (small : n < 2 ^ 16) :
    get16bits (wordBytes (n * 2 ^ 16)) = 0 ∧ (get16bits ((wordBytes (n * 2 ^ 16)).drop 2)).toNat = n := by
  constructor
  · rw [← UInt32.toNat_inj, get16bits_toNat]
    simp only [wordBytes, List.getD_cons_zero, List.getD_cons_succ, UInt8.toNat_ofNat']
    change _ = 0
    omega
  · rw [get16bits_toNat]
    simp only [wordBytes, List.drop_succ_cons, List.drop_zero, List.getD_cons_zero, List.getD_cons_succ, UInt8.toNat_ofNat']
    omega

/-- The bits that the upper half of a word is added to can be cleared. -/
theorem exists_cleared (hash : UInt32) :
    ∃ word : List Byte, word.length = 4 ∧ (beforeShift hash word).toNat / 2 ^ 11 % 2 ^ 16 = 0 := by
  obtain ⟨d, given⟩ : ∃ d, d = (hash ^^^ (hash <<< 16)).toNat / 2 ^ 11 % 2 ^ 16 := ⟨_, rfl⟩
  have small : d < 2 ^ 16 := by
    rw [given]
    exact Nat.mod_lt _ (by decide)
  obtain ⟨low, high⟩ := get16bits_upper small
  refine ⟨wordBytes (d * 2 ^ 16), rfl, ?_⟩
  rw [beforeShift_eq, low, UInt32.add_zero]
  apply Nat.eq_of_testBit_eq
  intro i
  rw [Nat.testBit_mod_two_pow, Nat.testBit_div_two_pow, Nat.zero_testBit]
  by_cases inside : i < 16
  · have bit : (hash ^^^ (hash <<< 16)).toNat.testBit (i + 11) = d.testBit i := by
      simp only [given, Nat.testBit_mod_two_pow, inside, decide_true, Bool.true_and, Nat.testBit_div_two_pow]
    rw [UInt32.toNat_xor, Nat.testBit_xor, bit, UInt32.toNat_shiftLeft, Nat.testBit_mod_two_pow, Nat.testBit_shiftLeft, high]
    simp [show i + 11 < 32 by omega]
  · simp [inside]

/-- Whatever the hash, there is a word behind which it does not carry. -/
theorem exists_calm_word (hash : UInt32) : ∃ word : List Byte, word.length = 4 ∧ ¬ Carries (mix hash word) := by
  obtain ⟨word, size, cleared⟩ := exists_cleared hash
  refine ⟨word, size, ?_⟩
  have bound := (beforeShift hash word).toNat_lt
  have eleven : UInt32.toNat 11 % 32 = 11 := rfl
  rw [Carries, mix_eq, UInt32.toNat_add, UInt32.toNat_shiftRight, Nat.shiftRight_eq_div_pow, eleven]
  omega

/-! ## Two words that make up for a change -/

theorem hashInFront_snoc {front word : List Byte} {len : UInt32} (aligned : front.length % 4 = 0) (size : word.length = 4) :
    hashInFront (front ++ word) len = mix (hashInFront front len) word := by
  have turns : (front ++ word).length / 4 = front.length / 4 + 1 := by
    rw [List.length_append, size]
    omega
  rw [hashInFront, turns, mainLoop_append (by omega)]
  rfl

/-- **Two words make up for every change in front of them.** -/
theorem two_words_suffice {front front' first second behind : List Byte} {len : UInt32} (aligned : front.length % 4 = 0)
    (same : front'.length = front.length) (size : first.length = 4) (size' : second.length = 4)
    (rest : behind.length % 4 = 0) (whole : len.toNat = (front ++ first ++ (second ++ behind)).length) :
    ∃ first' second', first'.length = 4 ∧ second'.length = 4 ∧
      superFastHash (some (front' ++ first' ++ (second' ++ behind))) len =
        superFastHash (some (front ++ first ++ (second ++ behind))) len := by
  obtain ⟨first', long, stays⟩ := exists_calm_word (hashInFront front' len)
  obtain ⟨second', long', reached⟩ := beforeShift_surjective stays (beforeShift (hashInFront (front ++ first) len) second)
  have aligned' : front'.length % 4 = 0 := by rw [same]; exact aligned
  rw [← hashInFront_snoc aligned' long] at reached
  refine ⟨first', second', long, long', ?_⟩
  have turn : mix (hashInFront (front' ++ first') len) second' = mix (hashInFront (front ++ first) len) second := by
    rw [mix_eq, mix_eq, reached]
  have words : (front ++ first).length % 4 = 0 := by
    rw [List.length_append]
    omega
  have words' : (front' ++ first').length % 4 = 0 := by
    rw [List.length_append]
    omega
  have whole' : len.toNat = (front' ++ first' ++ (second' ++ behind)).length := by
    rw [whole]
    simp [same, size, size', long, long']
  rw [superFastHash_word words' long' rest whole', superFastHash_word words size' rest whole, turn]

/-! ## The checker -/

variable {Handler : Type} {setup : Setup Handler} {s s' : Checker Handler}

/-- The checker has been initialized, and sees the table as it was. -/
structure Calm (s : Checker Handler) : Prop where
  returned : s.next = .returned 1
  there : s.sysCallTableAddress ≠ 0
  hash : s.sysCallTableHash = s.tableHash

/-- Stores that leave the table alone. -/
def LeavesTable (s : Checker Handler) : Op → Prop
  | .write address stored => bytesAt (store s.memory address stored) s.sysCallTableAddress s.sysCallTableSize = s.tableBytes
  | _ => True

theorem Calm.unmodified (calm : Calm s) : ¬ s.Alarms :=
  fun alarms => alarms.2 calm.hash

/-- A checker that differs in its timer, its handler and what lies outside of the table. -/
theorem Calm.of_table (calm : Calm s) (next : s'.next = s.next) (address : s'.sysCallTableAddress = s.sysCallTableAddress)
    (size : s'.sysCallTableSize = s.sysCallTableSize) (hash : s'.sysCallTableHash = s.sysCallTableHash)
    (table : s'.tableBytes = s.tableBytes) : Calm s' where
  returned := next.trans calm.returned
  there := by
    rw [address]
    exact calm.there
  hash := by
    rw [hash, calm.hash, Checker.tableHash, Checker.tableHash, address, size, table]

theorem Calm.step {op : Op} {call : Option (Call Handler)} (calm : Calm s) (leaves : LeavesTable s op)
    (next : Carbonite.step setup s op = .ok (call, s')) :
    Calm s' ∧ s'.tableBytes = s.tableBytes ∧ isIncident call = false := by
  cases step_move next with
  | init =>
    rw [initStatement_returned calm.returned]
    exact ⟨calm, rfl, rfl⟩
  | calm pending _ => exact ⟨calm.of_table rfl rfl rfl rfl rfl, rfl, rfl⟩
  | alarm alarms => exact absurd alarms calm.unmodified
  | write address stored => exact ⟨calm.of_table rfl rfl rfl rfl leaves, leaves, rfl⟩
  | quiet newModule => exact ⟨calm, rfl, rfl⟩
  | live newModule handler announces set => exact ⟨calm, rfl, rfl⟩

/-- As long as the table stays as it is, no incident is reported. -/
theorem Calm.run {ops : List Op} {calls : List (Option (Call Handler))} (calm : Calm s)
    (leaves : Along (Carbonite.step setup) LeavesTable ops s) (ran : Runs.run (Carbonite.step setup) ops s = .ok (calls, s')) :
    s'.tableBytes = s.tableBytes ∧ ∀ call ∈ calls, isIncident call = false := by
  induction ops generalizing s calls with
  | nil =>
    cases ran
    exact ⟨rfl, by simp⟩
  | cons op ops ih =>
    obtain ⟨call, s₁, calls, first, rest, rfl⟩ := run_cons.1 ran
    obtain ⟨calm₁, table, silent⟩ := calm.step leaves.1 first
    obtain ⟨last, silents⟩ := ih calm₁ (leaves.2 _ _ first) rest
    exact ⟨last.trans table, List.forall_mem_cons.2 ⟨silent, silents⟩⟩

/-- A store to the beginning of a table. -/
theorem bytesAt_store_front (memory : UInt64 → Byte) (address : UInt64) {len : UInt32} {stored : List Byte}
    (fits : stored.length ≤ len.toNat) :
    bytesAt (store memory address stored) address len = stored ++ (bytesAt memory address len).drop stored.length := by
  have bound := len.toNat_lt
  apply List.ext_getElem
  · simp [bytesAt]
    omega
  intro i inside inside'
  simp only [bytesAt, List.length_map, List.length_range] at inside
  have offset : (address + UInt64.ofNat i - address).toNat = i := by
    rw [UInt64.add_comm, UInt64.add_sub_cancel, UInt64.toNat_ofNat', Nat.mod_eq_of_lt (by omega)]
  have there : (bytesAt (store memory address stored) address len)[i] = stored.getD i (memory (address + UInt64.ofNat i)) := by
    simp only [bytesAt, store, List.getElem_map, List.getElem_range, offset]
  rw [there, List.getElem_append, List.getD_eq_getElem?_getD]
  split
  · rename_i front
    rw [List.getElem?_eq_getElem front, Option.getD_some]
  · rename_i behind
    have position : stored.length + (i - stored.length) = i := by omega
    rw [List.getElem?_eq_none (Nat.not_lt.1 behind), Option.getD_none]
    simp only [bytesAt, List.getElem_drop, List.getElem_map, List.getElem_range, position]

/-- A table in front of two words, the two words, and what is behind them. -/
theorem table_split (table : List Byte) (n : Nat) :
    table.take n ++ (table.drop n).take 4 ++ ((table.drop (n + 4)).take 4 ++ table.drop (n + 8)) = table := by
  rw [show table.drop (n + 8) = (table.drop (n + 4)).drop 4 by rw [List.drop_drop], List.take_append_drop,
    show table.drop (n + 4) = (table.drop n).drop 4 by rw [List.drop_drop], List.append_assoc, List.take_append_drop,
    List.take_append_drop]

theorem tableBytes_length (s : Checker Handler) : s.tableBytes.length = s.sysCallTableSize.toNat := by
  simp [Checker.tableBytes, bytesAt]

/-- There are two words for every change of the table with which it has the same hash. -/
theorem exists_forged (s : Checker Handler) (words : s.sysCallTableSize.toNat % 4 = 0) {changed : List Byte}
    (aligned : changed.length % 4 = 0) (room : changed.length + 8 ≤ s.sysCallTableSize.toNat) :
    ∃ two, two.length = 8 ∧
      superFastHash (some (changed ++ two ++ s.tableBytes.drop (changed.length + 8))) s.sysCallTableSize =
        superFastHash (some s.tableBytes) s.sysCallTableSize := by
  have length := tableBytes_length s
  have split := table_split s.tableBytes changed.length
  have front : (s.tableBytes.take changed.length).length = changed.length := by
    rw [List.length_take]
    omega
  have first : ((s.tableBytes.drop changed.length).take 4).length = 4 := by
    rw [List.length_take, List.length_drop]
    omega
  have second : ((s.tableBytes.drop (changed.length + 4)).take 4).length = 4 := by
    rw [List.length_take, List.length_drop]
    omega
  have rest : (s.tableBytes.drop (changed.length + 8)).length % 4 = 0 := by
    rw [List.length_drop]
    omega
  obtain ⟨first', second', long, long', same⟩ := two_words_suffice (by rw [front]; exact aligned)
    front.symm first second rest (by rw [split, length])
  refine ⟨first' ++ second', by simp [long, long'], ?_⟩
  rw [split] at same
  simpa [List.append_assoc] using same

/-- **For every change of the table there is a store that makes it unseen.** In a table of whole words (`words`), whole words
at the front (`aligned`) can be replaced by anything if two words are left behind them (`room`): these two can be chosen in
such a way that, once all has been stored, no run of ticks, notifications and stores that leave the table alone reports an
incident. -/
theorem forged_table_unseen (setup : Setup Handler) (calm : Calm s) (words : s.sysCallTableSize.toNat % 4 = 0)
    {changed : List Byte} (aligned : changed.length % 4 = 0) (room : changed.length + 8 ≤ s.sysCallTableSize.toNat) :
    ∃ two, two.length = 8 ∧ ∀ ops calls s',
      Along (Carbonite.step setup) LeavesTable ops { s with memory := store s.memory s.sysCallTableAddress (changed ++ two) } →
      Runs.run (Carbonite.step setup) (.write s.sysCallTableAddress (changed ++ two) :: ops) s = .ok (calls, s') →
        s'.tableBytes = changed ++ two ++ s.tableBytes.drop (changed.length + 8) ∧ ∀ call ∈ calls, isIncident call = false := by
  obtain ⟨two, size, same⟩ := exists_forged s words aligned room
  have stored : (changed ++ two).length = changed.length + 8 := by rw [List.length_append, size]
  have table : ({ s with memory := store s.memory s.sysCallTableAddress (changed ++ two) } : Checker Handler).tableBytes =
      changed ++ two ++ s.tableBytes.drop (changed.length + 8) := by
    rw [← stored]
    exact bytesAt_store_front s.memory s.sysCallTableAddress (by rw [stored]; exact room)
  refine ⟨two, size, ?_⟩
  intro ops calls s' leaves ran
  obtain ⟨call, s₁, later, first, rest, rfl⟩ := run_cons.1 ran
  cases first
  have calm₁ : Calm ({ s with memory := store s.memory s.sysCallTableAddress (changed ++ two) } : Checker Handler) := by
    refine ⟨calm.returned, calm.there, ?_⟩
    have hash := calm.hash
    rw [Checker.tableHash, if_neg calm.there] at hash ⊢
    rw [table, same]
    exact hash
  obtain ⟨last, silent⟩ := calm₁.run leaves rest
  exact ⟨last.trans table, List.forall_mem_cons.2 ⟨rfl, silent⟩⟩

/-- Three handlers. -/
def threeHandlers : List Byte :=
  wordBytes 0x811781e0 ++ wordBytes 0xffffffff ++ (wordBytes 0x81145a20 ++ wordBytes 0xffffffff ++
    (wordBytes 0x81144b00 ++ wordBytes 0xffffffff))

/-- The table lies at address 4096, and its hash has been taken. -/
def threeGuarded : Checker Unit :=
  { (firstLoad fun address => threeHandlers.getD (address - 4096).toNat 0 : Checker Unit) with
    next := .returned 1
    sysCallTableAddress := 4096
    sysCallTableSize := 24
    sysCallTableHash := superFastHash (some threeHandlers) 24
    timerInterval := 1000
    timerPending := true
    notifierRegistered := true
    incidentHandler := some () }

/-- The first handler is replaced, and two ticks see nothing. -/
theorem forged_table_unseen_first :
    ∃ two calls s', Runs.run (Carbonite.step smallSetup)
        [.write 4096 (wordBytes 0x812f0400 ++ wordBytes 0xffffffff ++ two), .tick, .tick] threeGuarded = .ok (calls, s') ∧
      s'.tableBytes.take 4 = wordBytes 0x812f0400 ∧ ∀ call ∈ calls, isIncident call = false := by
  have calm : Calm threeGuarded := ⟨rfl, by decide, by decide +kernel⟩
  obtain ⟨two, -, unseen⟩ := forged_table_unseen smallSetup calm (by decide)
    (show (wordBytes 0x812f0400 ++ wordBytes 0xffffffff).length % 4 = 0 from rfl) (by decide)
  obtain ⟨calls, s', ran⟩ : ∃ calls s', Runs.run (Carbonite.step smallSetup)
      [.write 4096 (wordBytes 0x812f0400 ++ wordBytes 0xffffffff ++ two), .tick, .tick] threeGuarded = .ok (calls, s') :=
    ⟨_, _, rfl⟩
  obtain ⟨table, silent⟩ := unseen [.tick, .tick] calls s' ⟨trivial, fun _ _ _ => ⟨trivial, fun _ _ _ => trivial⟩⟩ ran
  exact ⟨two, calls, s', ran, by rw [table]; rfl, silent⟩

end Carbonite.Forgery
