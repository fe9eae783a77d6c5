import SecuritySuite.Carbonite.IntegrityCheck
import Mathlib.Algebra.Order.Ring.Int
import Mathlib.Order.Bounds.Basic

/-!
# The symbol behind the system call table

`find_next_symbol` keeps its place in two statics: it sets a flag at each symbol that has the target's address, and
stops at the first other symbol after that. Where the enumeration runs in order of the addresses, this is the least
address above the target. The bytes that the checker hashes reach from the table up to it.
-/

namespace Carbonite
set_option autoImplicit false
open CString Runs

def Kernel.addresses (kernel : Kernel) : List UInt64 := kernel.symbols.map (·.address)

/-- The enumeration runs in order. Several names may share an address. -/
def Kernel.Ordered (kernel : Kernel) : Prop := kernel.addresses.Pairwise (· ≤ ·)

/-- A call of `find_next_symbol` behind any other lookups: the address it returns, and the statics behind it. -/
def findNextSymbolCall (kernel : Kernel) (targetSymbol : UInt64) (lookup : Lookup) : UInt64 × Lookup :=
  let found := kallsymsOnEachSymbol (findNext targetSymbol) kernel.symbols
    { lookup with targetAddress := 0, returnNextSymbol := false }
  (found.targetAddress, found)

theorem findNextSymbolCall_eq (kernel : Kernel) (target : UInt64) (lookup : Lookup) :
    findNextSymbolCall kernel target lookup = ((findNextSymbol kernel target).targetAddress, findNextSymbol kernel target) :=
  rfl

/-! ## The search -/

/-- The listed addresses above the target. -/
def above (addresses : List UInt64) (target : UInt64) : Set UInt64 := {a | a ∈ addresses ∧ target < a}

/-- The least listed address above a listed target, or 0. -/
inductive NextAddress (addresses : List UInt64) (target next : UInt64) : Prop where
  | least (listed : target ∈ addresses) (least : IsLeast (above addresses target) next)
  | none (without : ¬ (target ∈ addresses ∧ (above addresses target).Nonempty)) (zero : next = 0)

theorem above_cons {a target : UInt64} (addresses : List UInt64) (low : a ≤ target) :
    above (a :: addresses) target = above addresses target := by
  ext b
  simp only [above, List.mem_cons, Set.mem_ofPred_eq]
  constructor
  · rintro ⟨rfl | member, higher⟩
    · exact absurd higher (UInt64.not_lt.2 low)
    · exact ⟨member, higher⟩
  · rintro ⟨member, higher⟩
    exact ⟨Or.inr member, higher⟩

/-- A listed address that is not above the target does not matter to the address behind it. -/
theorem NextAddress.cons {a target next : UInt64} {addresses : List UInt64} (low : a ≤ target)
    (same : target ∈ a :: addresses ↔ target ∈ addresses) :
    NextAddress (a :: addresses) target next ↔ NextAddress addresses target next := by
  constructor
  · rintro (⟨listed, least⟩ | ⟨without, zero⟩)
    · exact .least (same.1 listed) (above_cons addresses low ▸ least)
    · exact .none (by rwa [same, above_cons addresses low] at without) zero
  · rintro (⟨listed, least⟩ | ⟨without, zero⟩)
    · exact .least (same.2 listed) (by rwa [above_cons addresses low])
    · exact .none (by rwa [same, above_cons addresses low]) zero

section Search

variable {target : UInt64} {symbol : Symbol} {symbols : List Symbol}

theorem search_at (address : symbol.address = target) (lookup : Lookup) :
    kallsymsOnEachSymbol (findNext target) (symbol :: symbols) lookup =
      kallsymsOnEachSymbol (findNext target) symbols { lookup with returnNextSymbol := true } := by
  simp [kallsymsOnEachSymbol, findNext, address]

theorem search_before (address : symbol.address ≠ target) {lookup : Lookup} (unset : lookup.returnNextSymbol = false) :
    kallsymsOnEachSymbol (findNext target) (symbol :: symbols) lookup =
      kallsymsOnEachSymbol (findNext target) symbols lookup := by
  simp [kallsymsOnEachSymbol, findNext, address.symm, unset]

theorem search_behind (address : symbol.address ≠ target) {lookup : Lookup} (set : lookup.returnNextSymbol = true) :
    kallsymsOnEachSymbol (findNext target) (symbol :: symbols) lookup = { lookup with targetAddress := symbol.address } := by
  simp [kallsymsOnEachSymbol, findNext, address.symm, set]

/-- With the flag set, the search stops at the first address that is not the target. -/
theorem found_behind (ordered : (symbols.map (·.address)).Pairwise (· ≤ ·))
    (behind : ∀ a ∈ symbols.map (·.address), target ≤ a) :
    NextAddress (target :: symbols.map (·.address)) target
      (kallsymsOnEachSymbol (findNext target) symbols ⟨0, true⟩).targetAddress := by
  induction symbols with
  | nil =>
    refine NextAddress.none ?_ rfl
    rintro ⟨-, a, member, higher⟩
    rw [List.map_nil, List.mem_singleton] at member
    exact UInt64.lt_irrefl target (member ▸ higher)
  | cons symbol symbols ih =>
    rw [List.map_cons, List.pairwise_cons] at ordered
    rw [List.map_cons, List.forall_mem_cons] at behind
    rw [List.map_cons]
    by_cases address : symbol.address = target
    · rw [search_at address, address]
      exact (NextAddress.cons (UInt64.le_refl target) (by simp)).2 (ih ordered.2 behind.2)
    · rw [search_behind address rfl]
      refine NextAddress.least List.mem_cons_self ⟨?_, ?_⟩
      · exact ⟨by simp, UInt64.lt_of_le_of_ne behind.1 (Ne.symm address)⟩
      · rintro a ⟨member, higher⟩
        rcases List.mem_cons.1 member with rfl | member
        · exact absurd higher (UInt64.lt_irrefl a)
        · rcases List.mem_cons.1 member with rfl | member
          · exact UInt64.le_refl _
          · exact ordered.1 a member

/-- As long as the flag is not set, the target has not been enumerated. -/
theorem found_before (ordered : (symbols.map (·.address)).Pairwise (· ≤ ·)) :
    NextAddress (symbols.map (·.address)) target
      (kallsymsOnEachSymbol (findNext target) symbols ⟨0, false⟩).targetAddress := by
  induction symbols with
  | nil =>
    refine NextAddress.none ?_ rfl
    simp
  | cons symbol symbols ih =>
    rw [List.map_cons, List.pairwise_cons] at ordered
    rw [List.map_cons]
    by_cases address : symbol.address = target
    · rw [search_at address, address]
      exact found_behind ordered.2 (address ▸ ordered.1)
    · rw [search_before address rfl]
      have rest := ih ordered.2
      by_cases listed : target ∈ symbols.map (·.address)
      · apply (NextAddress.cons (ordered.1 target listed) ?_).2 rest
        simp [Ne.symm address]
      · cases rest with
        | least listed' => exact absurd listed' listed
        | none without zero =>
          refine NextAddress.none ?_ zero
          rintro ⟨member, -⟩
          exact (List.mem_cons.1 member).elim (Ne.symm address) listed

end Search

theorem findNextSymbol_next {kernel : Kernel} (ordered : kernel.Ordered) (target : UInt64) :
    NextAddress kernel.addresses target (findNextSymbol kernel target).targetAddress :=
  found_before ordered

/-- No listed address lies between a target and the address behind it. -/
theorem NextAddress.alone {addresses : List UInt64} {target next a : UInt64} (found : NextAddress addresses target next)
    (member : a ∈ addresses) (low : target ≤ a) (high : a < next) : a = target := by
  by_contra other
  cases found with
  | least listed least =>
    have higher : a ∈ above addresses target := ⟨member, UInt64.lt_of_le_of_ne low (Ne.symm other)⟩
    exact UInt64.not_lt.2 (least.2 higher) high
  | none without zero =>
    rw [zero] at high
    exact absurd high (UInt64.not_lt.2 (UInt64.zero_le))

/-! ## The range that is hashed -/

section Checker

variable {Handler : Type} {setup : Setup Handler}

/-- Where the bytes are that the checker hashes. -/
def Checker.hashedAddresses (s : Checker Handler) : List UInt64 :=
  (List.range s.sysCallTableSize.toNat).map fun i => s.sysCallTableAddress + UInt64.ofNat i

theorem Checker.tableBytes_eq (s : Checker Handler) : s.tableBytes = s.hashedAddresses.map s.memory := by
  simp [Checker.tableBytes, Checker.hashedAddresses, bytesAt]

/-- The statement that sets the size has run, and no check has failed. -/
def Statement.sized : Statement → Prop
  | .setHash | .setName | .setHandler => True
  | .returned ret => ret = 1
  | _ => False

/-- The address that the initialization works with is the one behind the table. -/
structure Sized (setup : Setup Handler) (s : Checker Handler) : Prop where
  found : s.next = .checkNext ∨ s.next = .setSize ∨ s.next.sized →
    s.nextSymbol = (findNextSymbol setup.kernel s.sysCallTableAddress).targetAddress
  nonzero : s.next = .setSize ∨ s.next.sized → s.nextSymbol ≠ 0
  size : s.next.sized → s.sysCallTableSize = (s.nextSymbol - s.sysCallTableAddress).toUInt32
  unsized : ¬ s.next.sized → s.sysCallTableSize = 0

theorem Sized.firstLoad (memory : UInt64 → Byte) : Sized setup (Carbonite.firstLoad memory) where
  found := by simp [Carbonite.firstLoad, Statement.sized]
  nonzero := by simp [Carbonite.firstLoad, Statement.sized]
  size := False.elim
  unsized _ := rfl

/-- In front of the lookup, and after a failed check, the size is still 0. -/
theorem Sized.without {s : Checker Handler} (place : ¬ (s.next = .checkNext ∨ s.next = .setSize ∨ s.next.sized))
    (size : s.sysCallTableSize = 0) : Sized setup s where
  found here := absurd here place
  nonzero here := absurd (Or.inr here) place
  size here := absurd (Or.inr (Or.inr here)) place
  unsized _ := size

/-- What a state with a size keeps, its successor has. -/
theorem Sized.grow {s s' : Checker Handler} (sized : Sized setup s) (past : s.next.sized) (next : s'.next.sized)
    (address : s'.sysCallTableAddress = s.sysCallTableAddress) (size : s'.sysCallTableSize = s.sysCallTableSize)
    (symbol : s'.nextSymbol = s.nextSymbol) : Sized setup s' where
  found _ := by rw [symbol, address]; exact sized.found (Or.inr (Or.inr past))
  nonzero _ := by rw [symbol]; exact sized.nonzero (Or.inr past)
  size _ := by rw [symbol, address, size]; exact sized.size past
  unsized early := absurd next early

@[simp] theorem registerTimerInterrupt_size (s : Checker Handler) :
    (registerTimerInterrupt s).sysCallTableSize = s.sysCallTableSize := by
  unfold registerTimerInterrupt
  split <;> rfl

theorem Sized.init {s : Checker Handler} (sized : Sized setup s) : Sized setup (initStatement setup s) := by
  cases next : s.next with
  | checkName | checkInterval | setInterval | registerTimer | registerNotifier | lookupTable | checkTable =>
    have zero : s.sysCallTableSize = 0 := sized.unsized (by simp [next, Statement.sized])
    apply Sized.without
    · simp only [initStatement, next]
      grind [Statement.sized]
    · simp [initStatement, next, zero]
  | lookupNext =>
    have zero : s.sysCallTableSize = 0 := sized.unsized (by simp [next, Statement.sized])
    constructor <;> simp [initStatement, next, zero, Statement.sized]
  | checkNext =>
    have zero : s.sysCallTableSize = 0 := sized.unsized (by simp [next, Statement.sized])
    have found := sized.found (Or.inl next)
    by_cases missing : s.nextSymbol = 0
    · apply Sized.without <;> simp [initStatement, next, zero, missing, Statement.sized]
    · constructor <;> simp [initStatement, next, zero, missing, ← found, Statement.sized]
  | setSize =>
    have found := sized.found (Or.inr (Or.inl next))
    have nonzero := sized.nonzero (Or.inl next)
    constructor <;> simp [initStatement, next, ← found, nonzero, Statement.sized]
  | setHash | setName | setHandler =>
    apply sized.grow <;> simp [initStatement, next, Statement.sized]
  | returned ret =>
    rw [initStatement_returned next]
    exact sized

theorem Sized.step {s s' : Checker Handler} {op : Op} {call : Option (Call Handler)} (sized : Sized setup s)
    (ok : Carbonite.step setup s op = .ok (call, s')) : Sized setup s' := by
  obtain ⟨found, nonzero, size, unsized⟩ := sized
  cases step_move ok with
  | init => exact Sized.init ⟨found, nonzero, size, unsized⟩
  | calm => exact ⟨found, nonzero, size, unsized⟩
  | alarm => exact ⟨found, nonzero, size, unsized⟩
  | write => exact ⟨found, nonzero, size, unsized⟩
  | quiet => exact ⟨found, nonzero, size, unsized⟩
  | live => exact ⟨found, nonzero, size, unsized⟩

theorem sized_of_reaches {memory : UInt64 → Byte} {ops : List Op} {s : Checker Handler}
    (reaches : Reaches (step setup) (firstLoad memory) ops s) : Sized setup s :=
  invariant_of_reaches (Sized setup) (fun _ _ _ _ => Sized.step) (Sized.firstLoad memory) reaches

theorem Sized.ordered {s : Checker Handler} (sized : Sized setup s) (ordered : setup.kernel.Ordered)
    (past : s.next.sized) : s.sysCallTableAddress < s.nextSymbol := by
  have found := findNextSymbol_next ordered s.sysCallTableAddress
  rw [← sized.found (Or.inr (Or.inr past))] at found
  cases found with
  | least listed least => exact least.1.2
  | none without zero => exact absurd zero (sized.nonzero (Or.inr past))

/-- The size is the distance as an `unsigned int`. -/
theorem Sized.distance {s : Checker Handler} (sized : Sized setup s) (ordered : setup.kernel.Ordered)
    (past : s.next.sized) :
    s.sysCallTableSize.toNat = (s.nextSymbol.toNat - s.sysCallTableAddress.toNat) % 2 ^ 32 := by
  have higher := UInt64.lt_iff_toNat_lt.1 (sized.ordered ordered past)
  have small := s.nextSymbol.toNat_lt
  rw [sized.size past, UInt64.toNat_toUInt32, UInt64.toNat_sub]
  omega

theorem Checker.mem_hashedAddresses {s : Checker Handler} {a : UInt64}
    (fits : s.sysCallTableAddress.toNat + s.sysCallTableSize.toNat ≤ 2 ^ 64) :
    a ∈ s.hashedAddresses ↔
      s.sysCallTableAddress ≤ a ∧ a.toNat < s.sysCallTableAddress.toNat + s.sysCallTableSize.toNat := by
  have inside (i : Nat) (less : i < s.sysCallTableSize.toNat) :
      (s.sysCallTableAddress + UInt64.ofNat i).toNat = s.sysCallTableAddress.toNat + i := by
    rw [UInt64.toNat_add, UInt64.toNat_ofNat']
    omega
  simp only [Checker.hashedAddresses, List.mem_map, List.mem_range, UInt64.le_iff_toNat_le]
  constructor
  · rintro ⟨i, less, rfl⟩
    rw [inside i less]
    omega
  · rintro ⟨low, high⟩
    refine ⟨a.toNat - s.sysCallTableAddress.toNat, by omega, ?_⟩
    apply UInt64.toNat.inj
    rw [inside _ (by omega)]
    omega

/-- What a checker hashes, beside the addresses that the kernel lists. -/
structure HashesUpToNext (kernel : Kernel) (s : Checker Handler) : Prop where
  bytes : s.tableBytes = s.hashedAddresses.map s.memory
  /-- No byte outside of the range is hashed. -/
  inside : ∀ a ∈ s.hashedAddresses,
    s.sysCallTableAddress ≤ a ∧ a < (findNextSymbolCall kernel s.sysCallTableAddress s.lookup).1
  /-- The whole range is hashed, where its size is an `unsigned int`. -/
  whole : s.next.sized →
    (findNextSymbolCall kernel s.sysCallTableAddress s.lookup).1.toNat - s.sysCallTableAddress.toNat < 2 ^ 32 →
    ∀ a, s.sysCallTableAddress ≤ a → a < (findNextSymbolCall kernel s.sysCallTableAddress s.lookup).1 →
      a ∈ s.hashedAddresses
  alone : ∀ a ∈ kernel.addresses, a ∈ s.hashedAddresses → a = s.sysCallTableAddress

theorem Sized.hashes {s : Checker Handler} (sized : Sized setup s) (ordered : setup.kernel.Ordered) :
    HashesUpToNext setup.kernel s := by
  have found := findNextSymbol_next ordered s.sysCallTableAddress
  by_cases past : s.next.sized
  · have size := sized.distance ordered past
    have higher := UInt64.lt_iff_toNat_lt.1 (sized.ordered ordered past)
    have small := s.nextSymbol.toNat_lt
    have member (a : UInt64) := Checker.mem_hashedAddresses (s := s) (a := a) (by omega)
    have next := sized.found (Or.inr (Or.inr past))
    have inside (a : UInt64) (hashed : a ∈ s.hashedAddresses) : s.sysCallTableAddress ≤ a ∧ a < s.nextSymbol := by
      obtain ⟨low, high⟩ := (member a).1 hashed
      refine ⟨low, UInt64.lt_iff_toNat_lt.2 ?_⟩
      omega
    refine ⟨s.tableBytes_eq, ?_, ?_, ?_⟩
    · rw [findNextSymbolCall_eq, ← next]
      exact inside
    · rw [findNextSymbolCall_eq, ← next]
      intro _ short a low high
      apply (member a).2
      refine ⟨low, ?_⟩
      have high := UInt64.lt_iff_toNat_lt.1 high
      rw [size, Nat.mod_eq_of_lt short]
      omega
    · intro a listed hashed
      obtain ⟨low, high⟩ := inside a hashed
      exact found.alone listed low (next ▸ high)
  · have none : s.hashedAddresses = [] := by simp [Checker.hashedAddresses, sized.unsized past]
    refine ⟨s.tableBytes_eq, ?_, fun here => absurd here past, ?_⟩
    · simp [none]
    · simp [none]

/-- **The hashed range ends at the next symbol**: from whatever statics, `find_next_symbol` returns the least listed
address above a listed target, or 0, and no other listed address is among those that a checker hashes. -/
theorem hashed_range_ends_at_next (setup : Setup Handler) (ordered : setup.kernel.Ordered) :
    (∀ target lookup,
      NextAddress setup.kernel.addresses target (findNextSymbolCall setup.kernel target lookup).1 ∧
      ∀ a ∈ setup.kernel.addresses, target ≤ a → a < (findNextSymbolCall setup.kernel target lookup).1 → a = target) ∧
    ∀ memory ops s, Reaches (step setup) (firstLoad memory) ops s → HashesUpToNext setup.kernel s := by
  refine ⟨?_, ?_⟩
  · intro target lookup
    have found := findNextSymbol_next ordered target
    rw [findNextSymbolCall_eq]
    exact ⟨found, fun a listed low high => found.alone listed low high⟩
  · intro memory ops s reaches
    exact (sized_of_reaches reaches).hashes ordered

end Checker

/-- A kernel in which the table has two names. -/
def aliasSetup : Setup Unit :=
  ⟨some (bytes "carbonite"), 1000, some (),
    ⟨[⟨bytes "jiffies", 4088⟩, ⟨bytes "sys_call_table", 4096⟩, ⟨bytes "table", 4096⟩, ⟨bytes "next", 4104⟩], none⟩, 1⟩

theorem hashed_range_of_aliases :
    (findNextSymbolCall aliasSetup.kernel 4096 ⟨7, true⟩).1 = 4104 ∧
    (NextAddress aliasSetup.kernel.addresses 4096 (findNextSymbolCall aliasSetup.kernel 4096 ⟨7, true⟩).1 ∧
      ∀ a ∈ aliasSetup.kernel.addresses, 4096 ≤ a → a < (findNextSymbolCall aliasSetup.kernel 4096 ⟨7, true⟩).1 → a = 4096) ∧
    ∀ memory ops s, Reaches (step aliasSetup) (firstLoad memory) ops s → HashesUpToNext aliasSetup.kernel s := by
  have ordered : aliasSetup.kernel.Ordered := by
    unfold Kernel.Ordered
    decide
  have range := hashed_range_ends_at_next aliasSetup ordered
  exact ⟨by decide, range.1 4096 ⟨7, true⟩, range.2⟩

end Carbonite
