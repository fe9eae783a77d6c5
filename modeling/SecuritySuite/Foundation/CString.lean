import Mathlib.Data.List.TakeWhile

/-!
# C strings as byte lists

A pointer into a text is the list of bytes from it on (`Memory`). Whatever lies behind the
listed bytes reads as NUL, so a scan for a terminator always ends, and a buffer with arbitrary
bytes behind its terminator is `s ++ 0 :: tail`. The loops that kernel code writes by hand over
such pointers are `copyUntil` (copy up to a delimiter, give up when the destination is full) and
`scanFor` (look for a byte among the first `n`); `strncmp` is the library function. Each has one
lemma that says what it computes in terms of `takeWhile`, `dropWhile` and `take`.
-/

namespace CString
set_option autoImplicit false

abbrev Byte := UInt8

/-- The bytes from a pointer on. -/
abbrev Memory := List Byte

/-- `*ch`. -/
def peek (ch : Memory) : Byte := ch.headD 0

/-- `if(*ch == b) ch++`. -/
def skip (b : Byte) (ch : Memory) : Memory :=
  if peek ch = b then ch.tail else ch

/-- The text behind a pointer: its bytes up to the terminator. -/
def text (mem : Memory) : List Byte := mem.takeWhile (· != 0)

/-- The bytes of an ASCII literal. -/
def bytes (s : String) : List Byte := s.toList.map Char.toUInt8

/-- A list of bytes that can be the text of a C string. -/
def NulFree (s : List Byte) : Prop := ∀ b ∈ s, b ≠ 0

instance (s : List Byte) : Decidable (NulFree s) := inferInstanceAs (Decidable (∀ b ∈ s, b ≠ 0))

/-- The bytes before the first delimiter. -/
def upTo (stop : Byte → Bool) (ch : Memory) : List Byte := ch.takeWhile fun b => !stop b

/-- The pointer moved to the first delimiter. -/
def onFrom (stop : Byte → Bool) (ch : Memory) : Memory := ch.dropWhile fun b => !stop b

/-- Copy bytes until a delimiter. At most `room` bytes fit; one more makes the copy fail. -/
def copyUntil (stop : Byte → Bool) : Nat → Memory → Option (List Byte × Memory)
  | _, [] => some ([], [])
  | room, b :: ch =>
    if stop b then some ([], b :: ch)
    else match room with
      | 0 => none
      | room + 1 => (copyUntil stop room ch).map fun r => (b :: r.1, r.2)

/-- `for(i = 0; i < n && mem[i] != '\0'; ++i) if(p(mem[i])) return 1; return 0`. -/
def scanFor (p : Byte → Bool) : Nat → Memory → Bool
  | 0, _ => false
  | _, [] => false
  | n + 1, b :: mem => if b = 0 then false else if p b then true else scanFor p n mem

/-- The comparison stops at `n` bytes, at a difference or at a common terminator. -/
def strncmp : Nat → Memory → Memory → Int
  | 0, _, _ => 0
  | n + 1, a, b =>
    if peek a ≠ peek b then (peek a).toNat - (peek b).toNat
    else if peek a = 0 then 0
    else strncmp n a.tail b.tail

/-- The `n` bytes that the copy leaves at its destination: the text as far as it fits, and NULs. -/
def strncpy (n : Nat) (src : Memory) : List Byte :=
  (text src).take n ++ List.replicate (n - (text src).length) 0

/-! ## Texts and pointers -/

@[simp] theorem peek_nil : peek [] = 0 := rfl

@[simp] theorem peek_cons (b : Byte) (ch : Memory) : peek (b :: ch) = b := rfl

@[simp] theorem skip_cons_self (b : Byte) (ch : Memory) : skip b (b :: ch) = ch := by
  simp [skip]

theorem skip_cons_ne {b c : Byte} (ne : c ≠ b) (ch : Memory) : skip b (c :: ch) = c :: ch := by
  simp [skip, ne]

/-- Only NUL can be stepped over where a text ends. -/
theorem skip_terminated {b : Byte} (nb : b ≠ 0) (s : List Byte) (t : Memory) :
    skip b (s ++ 0 :: t) = skip b s ++ 0 :: t := by
  cases s with
  | nil => simp [skip, nb.symm]
  | cons c s =>
    by_cases same : c = b
    · simp [skip, same]
    · simp [skip, same]

@[simp] theorem nulFree_nil : NulFree [] := by simp [NulFree]

@[simp] theorem nulFree_cons {b : Byte} {s : List Byte} : NulFree (b :: s) ↔ b ≠ 0 ∧ NulFree s := by
  simp [NulFree]

@[simp] theorem nulFree_append {s t : List Byte} : NulFree (s ++ t) ↔ NulFree s ∧ NulFree t := by
  simp only [NulFree, List.mem_append, or_imp, forall_and]

theorem NulFree.sublist {s t : List Byte} (free : NulFree t) (sub : ∀ b ∈ s, b ∈ t) : NulFree s :=
  fun b hb => free b (sub b hb)

theorem nulFree_text (mem : Memory) : NulFree (text mem) := fun b hb => by
  simpa using List.mem_takeWhile_imp hb

/-- Bytes behind the terminator are not part of the text. -/
theorem text_terminated {s : List Byte} (free : NulFree s) (t : Memory) : text (s ++ 0 :: t) = s := by
  rw [text, List.takeWhile_append_of_pos (by simpa [NulFree] using free)]
  simp

theorem text_of_nulFree {s : List Byte} (free : NulFree s) : text s = s :=
  List.takeWhile_eq_self_iff.2 (by simpa [NulFree] using free)

theorem text_append {s : List Byte} (free : NulFree s) (rest : List Byte) : text (s ++ rest) = s ++ text rest :=
  List.takeWhile_append_of_pos (by simpa [NulFree] using free)

/-- A copy holds as much of the text as fits. -/
theorem text_strncpy (n : Nat) (src : Memory) : text (strncpy n src) = (text src).take n := by
  have free : NulFree ((text src).take n) := (nulFree_text src).sublist fun _ => List.mem_of_mem_take
  rw [strncpy, text_append free]
  cases n - (text src).length <;> simp [text]

/-- What follows a list with a NUL in it is not part of the text. -/
theorem text_append_of_nul {s : List Byte} (nul : ¬ NulFree s) (rest : List Byte) : text (s ++ rest) = text s := by
  induction s with
  | nil => exact absurd nulFree_nil nul
  | cons b s ih =>
    by_cases zero : b = 0
    · simp [text, zero]
    · have later : ¬ NulFree s := fun free => nul (nulFree_cons.2 ⟨zero, free⟩)
      have more (u : List Byte) : text (b :: u) = b :: text u := by simp [text, zero]
      rw [List.cons_append, more, more, ih later]

/-- Any bytes with a NUL behind them are a text, its terminator and other bytes. -/
theorem exists_terminated (front junk : List Byte) :
    ∃ junk', front ++ 0 :: junk = text front ++ 0 :: junk' := by
  induction front with
  | nil => exact ⟨junk, rfl⟩
  | cons b front ih =>
    by_cases nul : b = 0
    · exact ⟨front ++ 0 :: junk, by simp [text, nul]⟩
    · obtain ⟨junk', same⟩ := ih
      have more : text (b :: front) = b :: text front := by simp [text, nul]
      exact ⟨junk', by rw [more, List.cons_append, same, List.cons_append]⟩

/-! ## Moving to a delimiter -/

section Delimiter

variable {stop : Byte → Bool}

theorem upTo_stops {ch : Memory} {b : Byte} (member : b ∈ upTo stop ch) : stop b = false := by
  simpa using List.mem_takeWhile_imp member

theorem upTo_subset {ch : Memory} {b : Byte} (member : b ∈ upTo stop ch) : b ∈ ch :=
  (List.takeWhile_prefix _).subset member

/-- A moved pointer is at a delimiter or at the end. -/
theorem onFrom_cases (stop : Byte → Bool) (ch : Memory) :
    onFrom stop ch = [] ∨ ∃ b rest, stop b = true ∧ onFrom stop ch = b :: rest := by
  induction ch with
  | nil => exact .inl rfl
  | cons b ch ih =>
    cases delimiter : stop b with
    | true => exact .inr ⟨b, ch, delimiter, by simp [onFrom, delimiter]⟩
    | false =>
      have next : onFrom stop (b :: ch) = onFrom stop ch := by simp [onFrom, delimiter]
      rw [next]
      exact ih

/-- A field followed by a delimiter is read back. -/
theorem upTo_delimited {v : List Byte} (inside : ∀ b ∈ v, stop b = false) {d : Byte}
    (delimiter : stop d = true) (rest : Memory) : upTo stop (v ++ d :: rest) = v := by
  rw [upTo, List.takeWhile_append_of_pos (by simpa using inside)]
  simp [delimiter]

theorem onFrom_delimited {v : List Byte} (inside : ∀ b ∈ v, stop b = false) {d : Byte}
    (delimiter : stop d = true) (rest : Memory) : onFrom stop (v ++ d :: rest) = d :: rest := by
  rw [onFrom, List.dropWhile_append_of_pos (by simpa using inside)]
  simp [delimiter]

/-- The first occurrence of a delimiter splits a list in one way. -/
theorem split_unique {d : Byte} {v v' rest rest' : List Byte} (before : d ∉ v) (before' : d ∉ v')
    (same : v ++ d :: rest = v' ++ d :: rest') : v = v' ∧ rest = rest' := by
  have inside : ∀ {w : List Byte}, d ∉ w → ∀ b ∈ w, (b == d) = false := by
    intro w absent b member
    simpa using fun h : b = d => absent (h ▸ member)
  have first := congrArg (upTo (· == d)) same
  rw [upTo_delimited (inside before) (by simp), upTo_delimited (inside before') (by simp)] at first
  subst first
  simpa using same

/-- Where NUL is a delimiter, a scan does not look past it. -/
theorem upTo_terminated (nul : stop 0 = true) (s : List Byte) (t : Memory) :
    upTo stop (s ++ 0 :: t) = upTo stop s := by
  unfold upTo
  rw [List.takeWhile_append]
  split
  · rename_i whole
    simp [nul, (List.takeWhile_prefix _).eq_of_length whole]
  · rfl

theorem onFrom_terminated (nul : stop 0 = true) (s : List Byte) (t : Memory) :
    onFrom stop (s ++ 0 :: t) = onFrom stop s ++ 0 :: t := by
  unfold onFrom
  rw [List.dropWhile_append]
  split
  · rename_i whole
    simp [nul, List.isEmpty_iff.1 whole]
  · rfl

/-- What the copying loop computes. -/
theorem copyUntil_eq (stop : Byte → Bool) (room : Nat) (ch : Memory) :
    copyUntil stop room ch =
      if (upTo stop ch).length ≤ room then some (upTo stop ch, onFrom stop ch) else none := by
  induction ch generalizing room with
  | nil => simp [copyUntil, upTo, onFrom]
  | cons b ch ih =>
    cases hb : stop b with
    | true => cases room <;> simp [copyUntil, upTo, onFrom, hb]
    | false =>
      have before : upTo stop (b :: ch) = b :: upTo stop ch := by simp [upTo, hb]
      have moved : onFrom stop (b :: ch) = onFrom stop ch := by simp [onFrom, hb]
      rw [before, moved, List.length_cons]
      cases room with
      | zero => simp [copyUntil, hb]
      | succ room =>
        rw [copyUntil, if_neg (by simp [hb]), ih room]
        simp only [Nat.add_le_add_iff_right]
        split <;> rfl

end Delimiter

/-! ## Looking for a byte -/

/-- What the search loop computes. -/
theorem scanFor_eq (p : Byte → Bool) (n : Nat) (mem : Memory) :
    scanFor p n mem = ((text mem).take n).any p := by
  induction mem generalizing n with
  | nil => cases n <;> simp [scanFor, text]
  | cons b mem ih =>
    cases n with
    | zero => simp [scanFor]
    | succ n =>
      by_cases nul : b = 0
      · simp [scanFor, text, nul]
      · have more : text (b :: mem) = b :: text mem := by simp [text, nul]
        rw [scanFor, if_neg nul, more, List.take_succ_cons, List.any_cons, ih]
        cases p b <;> simp

/-! ## Comparing -/

/-- Texts compare equal when they agree on the first `n` bytes. -/
theorem strncmp_eq_zero {n : Nat} {a b : List Byte} (ha : NulFree a) (hb : NulFree b) :
    strncmp n a b = 0 ↔ a.take n = b.take n := by
  induction n generalizing a b with
  | zero => simp [strncmp]
  | succ n ih =>
    cases a with
    | nil =>
      cases b with
      | nil => simp [strncmp]
      | cons y b =>
        have ny := (nulFree_cons.1 hb).1
        have : UInt8.toNat y ≠ 0 := fun h => ny (UInt8.toNat_inj.1 h)
        simp [strncmp, ny.symm, this]
    | cons x a =>
      obtain ⟨nx, ha⟩ := nulFree_cons.1 ha
      cases b with
      | nil =>
        have : UInt8.toNat x ≠ 0 := fun h => nx (UInt8.toNat_inj.1 h)
        simp [strncmp, nx, this]
      | cons y b =>
        by_cases same : x = y
        · subst same
          simpa [strncmp, nx] using ih ha (nulFree_cons.1 hb).2
        · have : (x.toNat : Int) - y.toNat ≠ 0 := by
            intro h; exact same (UInt8.toNat_inj.1 (by omega))
          simp [strncmp, same, this]

/-- Shorter than the limit, texts compare equal only when they are equal. -/
theorem strncmp_eq_zero_of_lt {n : Nat} {a b : List Byte} (ha : NulFree a) (hb : NulFree b)
    (short : a.length < n) : strncmp n a b = 0 ↔ a = b := by
  rw [strncmp_eq_zero ha hb, List.take_of_length_le (by omega)]
  constructor
  · intro h
    have len := congrArg List.length h
    rw [List.length_take] at len
    rwa [List.take_of_length_le (by omega)] at h
  · rintro rfl
    rw [List.take_of_length_le (by omega)]

theorem strncmp_eq_zero_of_lt_right {n : Nat} {a b : List Byte} (ha : NulFree a) (hb : NulFree b)
    (short : b.length < n) : strncmp n a b = 0 ↔ a = b := by
  rw [strncmp_eq_zero ha hb, eq_comm, ← strncmp_eq_zero hb ha, strncmp_eq_zero_of_lt hb ha short, eq_comm]

end CString
