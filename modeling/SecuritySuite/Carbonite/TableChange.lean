import Mathlib.Data.List.Basic
import SecuritySuite.Carbonite.IntegrityCheck
import SecuritySuite.Foundation.BitMixing

/-!
# A change of one word

What becomes of a difference in one word of the system call table. The steps that shift and xor keep a difference
apart, so it can be lost in three places only: in the turn of the changed word, when a carry makes up for it, and
wherever `hash += hash >> k` wraps one of the two hashes around onto the other (`Merges`). `single_word_change_iff`
says that the checker misses exactly these changes. Both are rare: they need a hash with eleven set bits in its upper
half (`Carries`) or close to one of the two ends (`Inner`), and `OneWordChanged.detected` rules them out for a table
all of whose hashes on the way lie in between.
-/

namespace Carbonite
set_option autoImplicit false
open CString BitMixing

/-- `hash` in front of the last step of a turn. -/
def beforeShift (hash : UInt32) (data : Memory) : UInt32 :=
  let hash := hash + get16bits data
  let tmp := (get16bits (data.drop 2) <<< 11) ^^^ hash
  (hash <<< 16) ^^^ tmp

/-- `hash += hash >> k` makes these two the same. -/
def Merges (k : Nat) (x y : UInt32) : Prop := Wraps k x.toBitVec y.toBitVec ∨ Wraps k y.toBitVec x.toBitVec

instance (k : Nat) (x y : UInt32) : Decidable (Merges k x y) := inferInstanceAs (Decidable (_ ∨ _))

/-- Two hashes are made the same while the final bits are avalanched. -/
def MergesAtEnd (x y : UInt32) : Prop :=
  let x := x ^^^ (x <<< 3)
  let y := y ^^^ (y <<< 3)
  Merges 5 x y ∨
    let x := x + (x >>> 5)
    let y := y + (y >>> 5)
    let x := x ^^^ (x <<< 4)
    let y := y ^^^ (y <<< 4)
    Merges 17 x y ∨
      let x := x + (x >>> 17)
      let y := y + (y >>> 17)
      Merges 6 (x ^^^ (x <<< 25)) (y ^^^ (y <<< 25))

instance (x y : UInt32) : Decidable (MergesAtEnd x y) := inferInstanceAs (Decidable (_ ∨ _ ∨ _))

/-- Two hashes are made the same in the `len` turns over what is left, or behind them. -/
def MergesLater : (len : Nat) → (x y : UInt32) → Memory → Prop
  | 0, x, y, _ => MergesAtEnd x y
  | len + 1, x, y, data =>
    Merges 11 (beforeShift x data) (beforeShift y data) ∨ MergesLater len (mix x data) (mix y data) (data.drop 4)

instance decidableMergesLater : (len : Nat) → (x y : UInt32) → (data : Memory) → Decidable (MergesLater len x y data)
  | 0, x, y, _ => inferInstanceAs (Decidable (MergesAtEnd x y))
  | len + 1, x, y, data =>
    have : Decidable (MergesLater len (mix x data) (mix y data) (data.drop 4)) := decidableMergesLater len _ _ _
    inferInstanceAs (Decidable (_ ∨ MergesLater len (mix x data) (mix y data) (data.drop 4)))

/-- Two words at the same place, with the same hash in front and the same bytes behind, lead to the same hash. -/
def WordsMerge (hash : UInt32) (word word' : List Byte) (behind : Memory) : Prop :=
  beforeShift hash word = beforeShift hash word' ∨
    Merges 11 (beforeShift hash word) (beforeShift hash word') ∨
      MergesLater (behind.length / 4) (mix hash word) (mix hash word') behind

instance (hash : UInt32) (word word' : List Byte) (behind : Memory) : Decidable (WordsMerge hash word word' behind) :=
  inferInstanceAs (Decidable (_ ∨ _ ∨ _))

/-! ## One step -/

theorem mix_eq (hash : UInt32) (data : Memory) : mix hash data = beforeShift hash data + (beforeShift hash data >>> 11) := rfl

variable {x y : UInt32}

theorem xor_shift_iff (k : UInt32) (positive : 0 < k.toNat % 32) : x ^^^ (x <<< k) = y ^^^ (y <<< k) ↔ x = y := by
  have same : ∀ z : UInt32, (z ^^^ (z <<< k)).toBitVec = xorShift (k.toNat % 32) z.toBitVec := by
    intro z
    rw [UInt32.toBitVec_xor, UInt32.toBitVec_shiftLeft, xorShift, BitVec.shiftLeft_eq', BitVec.toNat_umod]
    rfl
  constructor
  · intro equal
    rw [← UInt32.toBitVec_inj, same, same] at equal
    exact UInt32.toBitVec_inj.1 (xorShift_injective positive equal)
  · intro equal
    rw [equal]

theorem add_shift_iff (k : UInt32) : x + (x >>> k) = y + (y >>> k) ↔ x = y ∨ Merges (k.toNat % 32) x y := by
  have same : ∀ z : UInt32, (z + (z >>> k)).toBitVec = addShift (k.toNat % 32) z.toBitVec := by
    intro z
    rw [UInt32.toBitVec_add, UInt32.toBitVec_shiftRight, addShift, BitVec.ushiftRight_eq', BitVec.toNat_umod]
    rfl
  rw [← UInt32.toBitVec_inj, same, same, addShift_eq_iff, UInt32.toBitVec_inj]
  rfl

/-- Hashes that are far from both ends are merged with no other. -/
theorem Merges.ends {k : Nat} (fits : k ≤ 32) (merges : Merges k x y) :
    x.toNat < 2 ^ (32 - k) ∨ 2 ^ 32 - 2 ^ (32 - k) ≤ x.toNat := by
  rcases merges with wraps | wraps
  · exact .inr (wraps.ends fits).1
  · exact .inl (wraps.ends fits).2

theorem avalanche_eq_iff : avalanche x = avalanche y ↔ x = y ∨ MergesAtEnd x y := by
  rw [avalanche, avalanche]
  rw [add_shift_iff 6, xor_shift_iff 25 (by decide), add_shift_iff 17, xor_shift_iff 4 (by decide), add_shift_iff 5,
    xor_shift_iff 3 (by decide), or_assoc, or_assoc]
  rfl

theorem beforeShift_eq (hash : UInt32) (data : Memory) : beforeShift hash data =
    ((hash + get16bits data) ^^^ ((hash + get16bits data) <<< 16)) ^^^ (get16bits (data.drop 2) <<< 11) := by
  have order : ∀ u s d : UInt32, s ^^^ (d ^^^ u) = (u ^^^ s) ^^^ d := by
    intro u s d
    rw [UInt32.xor_comm d u, ← UInt32.xor_assoc, UInt32.xor_comm s u]
  exact order _ _ _

/-- With the same word a turn keeps different hashes apart, unless its last step merges them. -/
theorem beforeShift_injective {data : Memory} (same : beforeShift x data = beforeShift y data) : x = y := by
  rw [beforeShift_eq, beforeShift_eq, UInt32.xor_left_inj, xor_shift_iff 16 (by decide)] at same
  exact (UInt32.add_left_inj _).1 same

theorem mix_eq_iff {data data' : Memory} : mix x data = mix y data' ↔
    beforeShift x data = beforeShift y data' ∨ Merges 11 (beforeShift x data) (beforeShift y data') :=
  add_shift_iff 11

/-! ## The turns behind the change -/

/-- A difference between two hashes reaches the end unless it is lost on the way. -/
theorem mainLoop_eq_iff (len : Nat) (data : Memory) :
    avalanche (mainLoop len x data).1 = avalanche (mainLoop len y data).1 ↔ x = y ∨ MergesLater len x y data := by
  induction len generalizing x y data with
  | zero => exact avalanche_eq_iff
  | succ len ih =>
    rw [mainLoop, mainLoop, ih, mix_eq_iff, MergesLater, or_assoc]
    apply or_congr_left
    exact ⟨beforeShift_injective, fun same => by rw [same]⟩

/-! ## The words of a table -/

theorem get16bits_append {d : Memory} (long : 2 ≤ d.length) (behind : Memory) : get16bits (d ++ behind) = get16bits d := by
  rw [get16bits, get16bits, List.getD_append _ _ _ _ (by omega), List.getD_append _ _ _ _ (by omega)]

/-- A turn looks at four bytes. -/
theorem beforeShift_append {data : Memory} (long : 4 ≤ data.length) (hash : UInt32) (behind : Memory) :
    beforeShift hash (data ++ behind) = beforeShift hash data := by
  rw [beforeShift, beforeShift, List.drop_append_of_le_length (by omega), get16bits_append (by omega),
    get16bits_append (by rw [List.length_drop]; omega)]

theorem mix_append {data : Memory} (long : 4 ≤ data.length) (hash : UInt32) (behind : Memory) :
    mix hash (data ++ behind) = mix hash data := by
  rw [mix_eq, beforeShift_append long, mix_eq]

theorem mainLoop_append {m : Nat} {front : Memory} (words : front.length = 4 * m) (r : Nat) (hash : UInt32) (behind : Memory) :
    mainLoop (m + r) hash (front ++ behind) = mainLoop r (mainLoop m hash front).1 behind := by
  induction m generalizing hash front with
  | zero =>
    rw [List.length_eq_zero_iff.1 words, Nat.zero_add]
    rfl
  | succ m ih =>
    rw [show m + 1 + r = m + r + 1 by omega, mainLoop, mix_append (by omega), List.drop_append_of_le_length (by omega),
      ih (by rw [List.length_drop]; omega), mainLoop]

/-- The hash of whole words. -/
theorem superFastHash_words {n : Nat} {data : Memory} {len : UInt32} (words : data.length = 4 * n)
    (size : len.toNat = data.length) (nonempty : data ≠ []) :
    superFastHash (some data) len = avalanche (mainLoop n len data).1 := by
  have positive : data.length ≠ 0 := fun zero => nonempty (List.length_eq_zero_iff.1 zero)
  have some_bytes : len ≠ 0 := by
    rintro rfl
    exact positive size.symm
  have turns : (len >>> 2).toNat = n := by
    rw [UInt32.toNat_shiftRight, Nat.shiftRight_eq_div_pow, size, words]
    change 4 * n / 4 = n
    omega
  have rem : len &&& 3 = 0 := by
    rw [← UInt32.toNat_inj, UInt32.toNat_and, size, words]
    change 4 * n &&& (2 ^ 2 - 1) = 0
    rw [Nat.and_two_pow_sub_one_eq_mod]
    omega
  rw [superFastHash]
  simp only [if_neg some_bytes, turns, rem]
  rfl

/-- The hash in front of a word. -/
def hashInFront (front : Memory) (len : UInt32) : UInt32 := (mainLoop (front.length / 4) len front).1

theorem superFastHash_word {front word behind : Memory} {len : UInt32} (aligned : front.length % 4 = 0)
    (size : word.length = 4) (rest : behind.length % 4 = 0) (whole : len.toNat = (front ++ (word ++ behind)).length) :
    superFastHash (some (front ++ (word ++ behind))) len =
      avalanche (mainLoop (behind.length / 4) (mix (hashInFront front len) word) behind).1 := by
  have turns : (front ++ (word ++ behind)).length = 4 * (front.length / 4 + (behind.length / 4 + 1)) := by
    simp only [List.length_append]
    omega
  have nonempty : front ++ (word ++ behind) ≠ [] := by
    intro nothing
    rw [nothing] at turns
    simp at turns
  rw [superFastHash_words turns whole nonempty, mainLoop_append (by omega), mainLoop, mix_append (by omega),
    List.drop_left' size]
  rfl

/-- **When the hash does not see that a word has changed.** -/
theorem superFastHash_word_iff {front word word' behind : Memory} {len : UInt32} (aligned : front.length % 4 = 0)
    (size : word.length = 4) (size' : word'.length = 4) (rest : behind.length % 4 = 0)
    (whole : len.toNat = (front ++ (word ++ behind)).length) :
    superFastHash (some (front ++ (word ++ behind))) len = superFastHash (some (front ++ (word' ++ behind))) len ↔
      WordsMerge (hashInFront front len) word word' behind := by
  have whole' : len.toNat = (front ++ (word' ++ behind)).length := by
    rw [whole]
    simp [size, size']
  rw [superFastHash_word aligned size rest whole, superFastHash_word aligned size' rest whole', mainLoop_eq_iff, mix_eq_iff,
    WordsMerge, or_assoc]

/-- The table has changed in one word since the baseline was taken. -/
structure OneWordChanged {Handler : Type} (s : Checker Handler) (front word word' behind : Memory) : Prop where
  there : s.sysCallTableAddress ≠ 0
  aligned : front.length % 4 = 0
  size : word.length = 4
  size' : word'.length = 4
  rest : behind.length % 4 = 0
  changed : word ≠ word'
  table : s.tableBytes = front ++ (word' ++ behind)
  baseline : s.sysCallTableHash = superFastHash (some (front ++ (word ++ behind))) s.sysCallTableSize

/-- The tick compares the two hashes. -/
theorem OneWordChanged.modified_iff {Handler : Type} {s : Checker Handler} {front word word' behind : Memory}
    (change : OneWordChanged s front word word' behind) :
    s.Modified ↔ superFastHash (some (front ++ (word ++ behind))) s.sysCallTableSize ≠
      superFastHash (some (front ++ (word' ++ behind))) s.sysCallTableSize := by
  rw [Checker.Modified, Checker.tableHash, if_neg change.there, change.table, change.baseline]

theorem OneWordChanged.whole {Handler : Type} {s : Checker Handler} {front word word' behind : Memory}
    (change : OneWordChanged s front word word' behind) :
    s.sysCallTableSize.toNat = (front ++ (word ++ behind)).length := by
  have length := congrArg List.length change.table
  have size := change.size
  have size' := change.size'
  simp only [Checker.tableBytes, bytesAt, List.length_map, List.length_range, List.length_append] at length ⊢
  omega

/-- **A change of one word is detected unless the two words merge**: the tick finds the table modified in all other
cases, and only in these. -/
theorem single_word_change_iff {Handler : Type} (s : Checker Handler) {front word word' behind : Memory}
    (change : OneWordChanged s front word word' behind) :
    s.Modified ↔ ¬ WordsMerge (hashInFront front s.sysCallTableSize) word word' behind := by
  rw [change.modified_iff, ne_eq, superFastHash_word_iff change.aligned change.size change.size' change.rest change.whole]

/-! ### Two system call tables -/

/-- A table of two handlers at address 4096, and the hash that was taken of it before. -/
def checkerOf (baseline table : List Byte) : Checker Unit :=
  { firstLoad fun address => table.getD (address - 4096).toNat 0 with
    sysCallTableAddress := 4096
    sysCallTableSize := 16
    sysCallTableHash := superFastHash (some baseline) 16 }

/-- Redirecting the first handler from `ffffffff811781e0` to `ffffffff812f0400` is seen. -/
theorem single_word_change_seen :
    (checkerOf [0xe0, 0x81, 0x17, 0x81, 0xff, 0xff, 0xff, 0xff, 0x20, 0x5a, 0x14, 0x81, 0xff, 0xff, 0xff, 0xff]
      [0x00, 0x04, 0x2f, 0x81, 0xff, 0xff, 0xff, 0xff, 0x20, 0x5a, 0x14, 0x81, 0xff, 0xff, 0xff, 0xff]).Modified := by
  have change : OneWordChanged
      (checkerOf [0xe0, 0x81, 0x17, 0x81, 0xff, 0xff, 0xff, 0xff, 0x20, 0x5a, 0x14, 0x81, 0xff, 0xff, 0xff, 0xff]
        [0x00, 0x04, 0x2f, 0x81, 0xff, 0xff, 0xff, 0xff, 0x20, 0x5a, 0x14, 0x81, 0xff, 0xff, 0xff, 0xff])
      [] [0xe0, 0x81, 0x17, 0x81] [0x00, 0x04, 0x2f, 0x81]
      [0xff, 0xff, 0xff, 0xff, 0x20, 0x5a, 0x14, 0x81, 0xff, 0xff, 0xff, 0xff] :=
    ⟨by decide, rfl, rfl, rfl, rfl, by decide, by decide +kernel, rfl⟩
  exact (single_word_change_iff _ change).2 (by decide +kernel)

/-- Redirecting it to `ffffffff812f0500` leaves the hash `00dfe928` as it is. -/
theorem single_word_change_missed : ¬ ∀ (s : Checker Unit) (front word word' behind : Memory),
    OneWordChanged s front word word' behind → s.Modified := by
  intro detected
  have change : OneWordChanged
      (checkerOf [0xe0, 0x81, 0x17, 0x81, 0xff, 0xff, 0xff, 0xff, 0x20, 0x5a, 0x14, 0x81, 0xff, 0xff, 0xff, 0xff]
        [0x00, 0x05, 0x2f, 0x81, 0xff, 0xff, 0xff, 0xff, 0x20, 0x5a, 0x14, 0x81, 0xff, 0xff, 0xff, 0xff])
      [] [0xe0, 0x81, 0x17, 0x81] [0x00, 0x05, 0x2f, 0x81]
      [0xff, 0xff, 0xff, 0xff, 0x20, 0x5a, 0x14, 0x81, 0xff, 0xff, 0xff, 0xff] :=
    ⟨by decide, rfl, rfl, rfl, rfl, by decide, by decide +kernel, rfl⟩
  have unmodified : ¬ (checkerOf [0xe0, 0x81, 0x17, 0x81, 0xff, 0xff, 0xff, 0xff, 0x20, 0x5a, 0x14, 0x81, 0xff, 0xff, 0xff, 0xff]
      [0x00, 0x05, 0x2f, 0x81, 0xff, 0xff, 0xff, 0xff, 0x20, 0x5a, 0x14, 0x81, 0xff, 0xff, 0xff, 0xff]).Modified := by
    decide +kernel
  exact unmodified (detected _ _ _ _ _ change)

/-! ## When nothing merges -/

/-- Away from both ends, where `hash += hash >> k` has no second hash. -/
def Inner (k : Nat) (x : UInt32) : Prop := 2 ^ (32 - k) ≤ x.toNat ∧ x.toNat < 2 ^ 32 - 2 ^ (32 - k)

def InnerAtEnd (x : UInt32) : Prop :=
  let x := x ^^^ (x <<< 3)
  Inner 5 x ∧
    let x := x + (x >>> 5)
    let x := x ^^^ (x <<< 4)
    Inner 17 x ∧
      let x := x + (x >>> 17)
      Inner 6 (x ^^^ (x <<< 25))

def InnerLater : (len : Nat) → (x : UInt32) → Memory → Prop
  | 0, x, _ => InnerAtEnd x
  | len + 1, x, data => Inner 11 (beforeShift x data) ∧ InnerLater len (mix x data) (data.drop 4)

theorem Inner.not_merges {k : Nat} (fits : k ≤ 32) (inner : Inner k x) : ¬ Merges k x y := by
  intro merges
  rcases merges.ends fits with low | high
  · exact absurd inner.1 (by omega)
  · exact absurd inner.2 (by omega)

theorem InnerAtEnd.not_merges (inner : InnerAtEnd x) : ¬ MergesAtEnd x y := by
  obtain ⟨five, seventeen, six⟩ := inner
  rintro (merges | merges | merges)
  · exact five.not_merges (by decide) merges
  · exact seventeen.not_merges (by decide) merges
  · exact six.not_merges (by decide) merges

theorem InnerLater.not_merges {len : Nat} {data : Memory} (inner : InnerLater len x data) : ¬ MergesLater len x y data := by
  induction len generalizing x y data with
  | zero => exact InnerAtEnd.not_merges inner
  | succ len ih =>
    rintro (merges | merges)
    · exact inner.1.not_merges (by decide) merges
    · exact ih inner.2 merges

/-- The upper five bits of `hash` can only be reached by a carry through eleven set bits. -/
def Carries (hash : UInt32) : Prop := hash.toNat / 2 ^ 16 % 2 ^ 11 = 2 ^ 11 - 1

instance (hash : UInt32) : Decidable (Carries hash) := inferInstanceAs (Decidable (_ = _))

theorem upper_bits {hash low : UInt32} (small : low.toNat < 2 ^ 16) (stays : ¬ Carries hash) :
    (hash + low).toNat / 2 ^ 27 = hash.toNat / 2 ^ 27 := by
  have bound := hash.toNat_lt
  rw [Carries] at stays
  rw [UInt32.toNat_add]
  omega

/-- Bit `i` of a hash in front of the last step of a turn. -/
theorem beforeShift_bit (u high : UInt32) (i : Nat) (inside : i < 32) :
    ((u ^^^ (u <<< 16)) ^^^ (high <<< 11)).toNat.testBit i =
      ((u.toNat.testBit i ^^ (decide (16 ≤ i) && u.toNat.testBit (i - 16))) ^^
        (decide (11 ≤ i) && high.toNat.testBit (i - 11))) := by
  have sixteen : UInt32.toNat 16 % 32 = 16 := rfl
  have eleven : UInt32.toNat 11 % 32 = 11 := rfl
  rw [UInt32.toNat_xor, UInt32.toNat_xor, UInt32.toNat_shiftLeft, UInt32.toNat_shiftLeft, sixteen, eleven,
    Nat.testBit_xor, Nat.testBit_xor, Nat.testBit_mod_two_pow, Nat.testBit_mod_two_pow, Nat.testBit_shiftLeft,
    Nat.testBit_shiftLeft, decide_eq_true inside, Bool.true_and, Bool.true_and]

/-- A difference in the lower half of a word is seen in the hash, unless a carry undoes it in the upper bits. -/
theorem lower_bits {u v high high' : UInt32} (small : high.toNat < 2 ^ 16) (small' : high'.toNat < 2 ^ 16)
    (upper : u.toNat / 2 ^ 27 = v.toNat / 2 ^ 27)
    (same : (u ^^^ (u <<< 16)) ^^^ (high <<< 11) = (v ^^^ (v <<< 16)) ^^^ (high' <<< 11)) :
    u.toNat % 2 ^ 16 = v.toNat % 2 ^ 16 := by
  have bits : ∀ i, i < 32 → _ := fun i inside =>
    (beforeShift_bit u high i inside).symm.trans ((congrArg (·.toNat.testBit i) same).trans (beforeShift_bit v high' i inside))
  have none_above : ∀ {z : UInt32}, z.toNat < 2 ^ 16 → ∀ i, 16 ≤ i → z.toNat.testBit i = false := fun below i above =>
    Nat.testBit_lt_two_pow (below.trans_le (Nat.pow_le_pow_right (by decide) above))
  apply Nat.eq_of_testBit_eq
  intro i
  rw [Nat.testBit_mod_two_pow, Nat.testBit_mod_two_pow]
  by_cases inside : i < 16
  · congr 1
    by_cases low : i < 11
    · simpa [show ¬ 16 ≤ i by omega, show ¬ 11 ≤ i by omega] using bits i (by omega)
    · have top : u.toNat.testBit (i + 16) = v.toNat.testBit (i + 16) := by
        rw [show i + 16 = (i - 11) + 27 by omega, ← Nat.testBit_div_two_pow, ← Nat.testBit_div_two_pow, upper]
      have bit := bits (i + 16) (by omega)
      rw [none_above small _ (by omega), none_above small' _ (by omega), top] at bit
      simpa using bit
  · simp [inside]

theorem get16bits_toNat (d : Memory) : (get16bits d).toNat = (d.getD 1 0).toNat * 256 + (d.getD 0 0).toNat := by
  have one := (d.getD 1 0).toNat_lt
  have zero := (d.getD 0 0).toNat_lt
  have shift : 2 ^ (UInt32.toNat 8 % 32) = 256 := rfl
  rw [get16bits, UInt32.toNat_add, UInt32.toNat_shiftLeft, Nat.shiftLeft_eq, shift, UInt8.toNat_toUInt32,
    UInt8.toNat_toUInt32]
  omega

theorem get16bits_lt (d : Memory) : (get16bits d).toNat < 2 ^ 16 := by
  have one := (d.getD 1 0).toNat_lt
  have zero := (d.getD 0 0).toNat_lt
  rw [get16bits_toNat]
  omega

theorem get16bits_injective {d d' : Memory} (same : get16bits d = get16bits d') :
    d.getD 0 0 = d'.getD 0 0 ∧ d.getD 1 0 = d'.getD 1 0 := by
  have zero := (d.getD 0 0).toNat_lt
  have zero' := (d'.getD 0 0).toNat_lt
  rw [← UInt32.toNat_inj, get16bits_toNat, get16bits_toNat] at same
  rw [← UInt8.toNat_inj, ← UInt8.toNat_inj]
  omega

theorem word_eq {word word' : List Byte} (size : word.length = 4) (size' : word'.length = 4)
    (low : get16bits word = get16bits word') (high : get16bits (word.drop 2) = get16bits (word'.drop 2)) : word = word' := by
  obtain ⟨a, b, c, d, rfl⟩ := List.length_eq_four.1 size
  obtain ⟨a', b', c', d', rfl⟩ := List.length_eq_four.1 size'
  obtain ⟨rfl, rfl⟩ : a = a' ∧ b = b' := get16bits_injective low
  obtain ⟨rfl, rfl⟩ : c = c' ∧ d = d' := get16bits_injective high
  rfl

/-- In the turn of the changed word the change is only lost where a carry runs through the upper half of the hash. -/
theorem beforeShift_word_injective {hash : UInt32} {word word' : List Byte} (size : word.length = 4)
    (size' : word'.length = 4) (stays : ¬ Carries hash) (same : beforeShift hash word = beforeShift hash word') :
    word = word' := by
  rw [beforeShift_eq, beforeShift_eq] at same
  have upper := (upper_bits (get16bits_lt word) stays).trans (upper_bits (get16bits_lt word') stays).symm
  have lower := lower_bits (get16bits_lt _) (get16bits_lt _) upper same
  have low : get16bits word = get16bits word' := by
    have small := get16bits_lt word
    have small' := get16bits_lt word'
    rw [UInt32.toNat_add, UInt32.toNat_add] at lower
    rw [← UInt32.toNat_inj]
    omega
  rw [low, UInt32.xor_right_inj] at same
  have high : get16bits (word.drop 2) = get16bits (word'.drop 2) := by
    have small := get16bits_lt (word.drop 2)
    have small' := get16bits_lt (word'.drop 2)
    have eleven : 2 ^ (UInt32.toNat 11 % 32) = 2048 := rfl
    rw [← UInt32.toNat_inj, UInt32.toNat_shiftLeft, UInt32.toNat_shiftLeft, Nat.shiftLeft_eq, Nat.shiftLeft_eq, eleven] at same
    rw [← UInt32.toNat_inj]
    omega
  exact word_eq size size' low high

/-- No change of the word at this place is lost: the hash in front leaves no room for a carry, and the computation for
the word itself stays away from the ends. -/
theorem WordsMerge.absurd {hash : UInt32} {word word' : List Byte} {behind : Memory} (size : word.length = 4)
    (size' : word'.length = 4) (changed : word ≠ word') (stays : ¬ Carries hash) (inner : Inner 11 (beforeShift hash word))
    (later : InnerLater (behind.length / 4) (mix hash word) behind) : ¬ WordsMerge hash word word' behind := by
  rintro (same | merges | merges)
  · exact changed (beforeShift_word_injective size size' stays same)
  · exact inner.not_merges (by decide) merges
  · exact later.not_merges merges

/-- **No change of a word goes unseen** where the hash in front leaves no room for a carry and the computation for the
baseline stays away from the ends. -/
theorem OneWordChanged.detected {Handler : Type} {s : Checker Handler} {front word word' behind : Memory}
    (change : OneWordChanged s front word word' behind) (stays : ¬ Carries (hashInFront front s.sysCallTableSize))
    (inner : Inner 11 (beforeShift (hashInFront front s.sysCallTableSize) word))
    (later : InnerLater (behind.length / 4) (mix (hashInFront front s.sysCallTableSize) word) behind) : s.Modified := by
  rw [change.modified_iff, ne_eq,
    superFastHash_word_iff change.aligned change.size change.size' change.rest change.whole]
  exact WordsMerge.absurd change.size change.size' change.changed stays inner later

end Carbonite
