import SecuritySuite.Foundation.CString
import Mathlib.Data.List.Induction
import Mathlib.Algebra.Order.Ring.Int
import Mathlib.Tactic.Ring

/-!
# Numerals in C strings

The numerals `printf` writes (`decimal` for `%u`, `hexadecimal4` for `%04x` of a 16-bit value),
and the loop that reads a numeral from its last character backwards with a growing multiplier, in
32-bit `int` arithmetic that wraps around (`foldBackwards`). The loop computes the value of the
numeral modulo `2 ^ 32` for any bytes (`foldBackwards_eq`), and it reads back what `%u` wrote
(`numeral_decimal`). It computes without overflow on up to nine digits, and never on more characters
(`foldOverflows_iff`).
-/

namespace CString
set_option autoImplicit false

/-- A `char`, which is signed, as an `int`. -/
def charVal (b : Byte) : Int := (b.toNat : Int).bmod 256

/-- The value a 32-bit `int` holds after it was assigned `x`. -/
def int32 (x : Int) : Int := x.bmod (2 ^ 32)

/-- `while(ch >= number_start) { value += (*ch - '0') * base; base *= 10; ch--; }` over the bytes
of the numeral, last one first. -/
def foldBackwards : List Byte → Int → Int → Int
  | [], value, _ => value
  | b :: before, value, base =>
    foldBackwards before (int32 (value + int32 ((charVal b - charVal 48) * base))) (int32 (base * 10))

/-- The value of a text read as a decimal numeral, whatever its bytes are. -/
def numeral (w : List Byte) : Int := w.foldl (fun v b => 10 * v + (charVal b - charVal 48)) 0

/-- The value of a sequence of digits. -/
def digitsValue (w : List Byte) : Nat := w.foldl (fun v b => 10 * v + (b.toNat - 48)) 0

/-- What an `int` can hold. -/
def InRange (x : Int) : Prop := -2147483648 ≤ x ∧ x < 2147483648

/-- One of the products and sums of the loop overflows. -/
def FoldOverflows : List Byte → Int → Int → Prop
  | [], _, _ => False
  | b :: before, value, base =>
    ¬ InRange ((charVal b - charVal 48) * base) ∨ ¬ InRange (value + (charVal b - charVal 48) * base) ∨
      ¬ InRange (base * 10) ∨ FoldOverflows before (value + (charVal b - charVal 48) * base) (base * 10)

/-- `%u`. -/
def decimal (n : Nat) : List Byte := (Nat.toDigits 10 n).map Char.toUInt8

/-- `%04x` of a value below `2 ^ 16`. -/
def hexadecimal4 (n : Nat) : List Byte := ((Nat.toDigits 16 n).leftpad 4 '0').map Char.toUInt8

/-! ## Reading -/

theorem int32_add_int32 (x y : Int) : int32 (x + int32 y) = int32 (x + y) := Int.add_bmod_bmod

theorem int32_int32_add (x y : Int) : int32 (int32 x + y) = int32 (x + y) := Int.bmod_add_bmod

theorem int32_mul_int32 (x y : Int) : int32 (x * int32 y) = int32 (x * y) := Int.mul_bmod_bmod

theorem int32_int32_mul (x y : Int) : int32 (int32 x * y) = int32 (x * y) := Int.bmod_mul_bmod

/-- Values an `int` can represent are stored unchanged. -/
theorem int32_of_range {x : Int} (low : -2147483648 ≤ x) (high : x < 2147483648) : int32 x = x :=
  Int.bmod_eq_of_le (by omega) (by omega)

theorem numeral_snoc (w : List Byte) (b : Byte) :
    numeral (w ++ [b]) = 10 * numeral w + (charVal b - charVal 48) := by
  simp [numeral, List.foldl_append]

/-- The loop adds the value of the unread part, scaled by the multiplier reached. -/
theorem foldBackwards_from (w : List Byte) (value base : Int) :
    foldBackwards w.reverse (int32 value) (int32 base) = int32 (value + numeral w * base) := by
  induction w using List.reverseRecOn generalizing value base with
  | nil => simp [foldBackwards, numeral]
  | append_singleton w b ih =>
    rw [List.reverse_append, List.reverse_singleton, List.singleton_append, foldBackwards,
      int32_mul_int32, int32_add_int32, int32_int32_add, int32_int32_mul, ih, numeral_snoc]
    congr 1
    ring

/-- What the reading loop computes. -/
theorem foldBackwards_eq (w : List Byte) : foldBackwards w.reverse 0 1 = int32 (numeral w) := by
  have run := foldBackwards_from w 0 1
  rw [int32_of_range (by omega) (by omega), int32_of_range (by omega) (by omega)] at run
  simpa using run

/-! ## Writing -/

theorem digit_value {d : Nat} (h : d < 10) : charVal (Nat.digitChar d).toUInt8 - charVal 48 = d := by
  have all : ∀ d < 10, charVal (Nat.digitChar d).toUInt8 - charVal 48 = (d : Int) := by decide
  exact all d h

theorem decimal_eq (n : Nat) :
    decimal n = if n < 10 then [(Nat.digitChar n).toUInt8]
      else decimal (n / 10) ++ [(Nat.digitChar (n % 10)).toUInt8] := by
  unfold decimal
  rw [Nat.toDigits_eq_if (by decide)]
  split <;> simp

/-- **A written numeral reads back.** -/
theorem numeral_decimal (n : Nat) : numeral (decimal n) = n := by
  induction n using Nat.strongRecOn with
  | ind n ih =>
    rw [decimal_eq]
    split
    · rename_i small
      simp [numeral, digit_value small]
    · rename_i large
      rw [numeral_snoc, ih (n / 10) (by omega), digit_value (Nat.mod_lt n (by omega))]
      omega

theorem decimal_injective {n m : Nat} (same : decimal n = decimal m) : n = m := by
  have := congrArg numeral same
  rw [numeral_decimal, numeral_decimal] at this
  exact Int.ofNat_inj.1 this

/-- The bytes of a decimal numeral are digits. -/
theorem decimal_digit {n : Nat} {b : Byte} (member : b ∈ decimal n) : 48 ≤ b ∧ b ≤ 57 := by
  have digit : ∀ d < 10, 48 ≤ (Nat.digitChar d).toUInt8 ∧ (Nat.digitChar d).toUInt8 ≤ 57 := by decide
  induction n using Nat.strongRecOn with
  | ind n ih =>
    rw [decimal_eq] at member
    split at member
    · rename_i small
      rw [List.mem_singleton.1 member]
      exact digit n small
    · rename_i large
      rcases List.mem_append.1 member with front | last
      · exact ih (n / 10) (by omega) front
      · rw [List.mem_singleton.1 last]
        exact digit _ (Nat.mod_lt n (by omega))

theorem decimal_ne_nil (n : Nat) : decimal n ≠ [] := by simp [decimal]

theorem decimal_length_le {n k : Nat} (positive : 0 < k) (bound : n < 10 ^ k) : (decimal n).length ≤ k := by
  rw [decimal, List.length_map, Nat.length_toDigits_le_iff (by decide) positive]
  exact bound

/-! ## Digits without overflow -/

theorem charVal_digit {b : Byte} (digit : 48 ≤ b ∧ b ≤ 57) : charVal b - charVal 48 = (b.toNat - 48 : Nat) := by
  have all : ∀ n < 10, charVal (UInt8.ofNat (48 + n)) - charVal 48 = (n : Int) := by decide
  have low : 48 ≤ b.toNat := UInt8.le_iff_toNat_le.1 digit.1
  have high : b.toNat ≤ 57 := UInt8.le_iff_toNat_le.1 digit.2
  have same : UInt8.ofNat (48 + (b.toNat - 48)) = b := by
    rw [show 48 + (b.toNat - 48) = b.toNat by omega, UInt8.ofNat_toNat]
  rw [← all (b.toNat - 48) (by omega), same]

/-- On digits the loop reads the value. -/
theorem numeral_digits {w : List Byte} (digits : ∀ b ∈ w, 48 ≤ b ∧ b ≤ 57) : numeral w = digitsValue w := by
  induction w using List.reverseRecOn with
  | nil => rfl
  | append_singleton w b ih =>
    rw [List.forall_mem_append, List.forall_mem_singleton] at digits
    rw [numeral_snoc, ih digits.1, charVal_digit digits.2]
    simp [digitsValue, List.foldl_append]

/-- The multiplier overflows at the tenth character. -/
theorem foldOverflows_long (w : List Byte) (value : Int) {k : Nat} (more : k ≤ 9) (long : 10 ≤ k + w.length) :
    FoldOverflows w value (10 ^ k) := by
  induction w generalizing value k with
  | nil =>
    rw [List.length_nil] at long
    omega
  | cons b w ih =>
    rw [List.length_cons] at long
    by_cases last : k = 9
    · subst last
      exact .inr (.inr (.inl (by unfold InRange; omega)))
    · have next : FoldOverflows w (value + (charVal b - charVal 48) * 10 ^ k) (10 ^ (k + 1)) := ih _ (by omega) (by omega)
      rw [pow_succ] at next
      exact .inr (.inr (.inr next))

/-- Up to nine digits stay below a power of ten. -/
theorem not_foldOverflows {w : List Byte} (digits : ∀ b ∈ w, 48 ≤ b ∧ b ≤ 57) {value : Int} {k : Nat}
    (low : 0 ≤ value) (high : value < 10 ^ k) (short : k + w.length ≤ 9) : ¬ FoldOverflows w value (10 ^ k) := by
  induction w generalizing value k with
  | nil => exact id
  | cons b w ih =>
    rw [List.forall_mem_cons] at digits
    rw [List.length_cons] at short
    have positive : (0 : Int) < 10 ^ k := pow_pos (by decide) k
    have power : (10 : Int) ^ k ≤ 100000000 := (pow_le_pow_right₀ (by decide) (show k ≤ 8 by omega)).trans_eq rfl
    obtain ⟨d, digit, small⟩ : ∃ d : Nat, charVal b - charVal 48 = d ∧ d < 10 := by
      refine ⟨b.toNat - 48, charVal_digit digits.1, ?_⟩
      have := UInt8.le_iff_toNat_le.1 digits.1.2
      change b.toNat ≤ 57 at this
      omega
    have product : 0 ≤ (d : Int) * 10 ^ k ∧ (d : Int) * 10 ^ k ≤ 9 * 10 ^ k :=
      ⟨Int.mul_nonneg (Int.natCast_nonneg d) positive.le, Int.mul_le_mul_of_nonneg_right (by omega) positive.le⟩
    have next : ¬ FoldOverflows w (value + d * 10 ^ k) (10 ^ (k + 1)) :=
      ih digits.2 (by omega) (by rw [pow_succ]; omega) (by omega)
    rw [pow_succ] at next
    rw [FoldOverflows, digit]
    unfold InRange
    rintro (first | sum | base | rest)
    · exact first ⟨by omega, by omega⟩
    · exact sum ⟨by omega, by omega⟩
    · exact base ⟨by omega, by omega⟩
    · exact next rest

/-- **When digits are read without overflow**: when there are at most nine of them. -/
theorem foldOverflows_iff {w : List Byte} (digits : ∀ b ∈ w, 48 ≤ b ∧ b ≤ 57) :
    FoldOverflows w.reverse 0 1 ↔ 10 ≤ w.length := by
  constructor
  · intro overflows
    by_contra short
    exact not_foldOverflows (w := w.reverse) (k := 0) (by simpa using digits) (Int.le_refl 0) (by decide)
      (by rw [List.length_reverse]; omega) overflows
  · intro long
    exact foldOverflows_long w.reverse 0 (k := 0) (by decide) (by rw [List.length_reverse]; omega)

/-! ## Groups of four hexadecimal digits -/

/-- The four digits of a 16-bit value. -/
theorem hexadecimal4_eq {n : Nat} (bound : n < 65536) :
    hexadecimal4 n = [n / 4096, n / 256 % 16, n / 16 % 16, n % 16].map fun d => (Nat.digitChar d).toUInt8 := by
  have zero : Nat.digitChar 0 = '0' := rfl
  unfold hexadecimal4
  rcases Nat.lt_or_ge n 16 with h1 | h1
  · have e : n / 4096 = 0 ∧ n / 256 = 0 ∧ n / 16 = 0 ∧ n % 16 = n := by omega
    simp [Nat.toDigits_of_lt_base h1, List.leftpad, e, zero, List.replicate]
  rw [Nat.toDigits_of_base_le (by decide) h1]
  rcases Nat.lt_or_ge (n / 16) 16 with h2 | h2
  · have e : n / 4096 = 0 ∧ n / 256 = 0 ∧ n / 16 % 16 = n / 16 := by omega
    simp [Nat.toDigits_of_lt_base h2, List.leftpad, e, zero, List.replicate]
  rw [Nat.toDigits_of_base_le (by decide) h2]
  rcases Nat.lt_or_ge (n / 16 / 16) 16 with h3 | h3
  · have e : n / 4096 = 0 ∧ n / 256 % 16 = n / 16 / 16 := by omega
    simp [Nat.toDigits_of_lt_base h3, List.leftpad, e, zero]
  rw [Nat.toDigits_of_base_le (by decide) h3]
  have top : n / 16 / 16 / 16 < 16 := by omega
  have e : n / 4096 = n / 16 / 16 / 16 ∧ n / 256 = n / 16 / 16 := by omega
  simp [Nat.toDigits_of_lt_base top, List.leftpad, e]

theorem hexadecimal4_length {n : Nat} (bound : n < 65536) : (hexadecimal4 n).length = 4 := by
  simp [hexadecimal4_eq bound]

theorem hexDigit_injective {d e : Nat} (hd : d < 16) (he : e < 16)
    (same : (Nat.digitChar d).toUInt8 = (Nat.digitChar e).toUInt8) : d = e := by
  have all : ∀ d < 16, ∀ e < 16, (Nat.digitChar d).toUInt8 = (Nat.digitChar e).toUInt8 → d = e := by
    decide
  exact all d hd e he same

theorem hexadecimal4_injective {n m : Nat} (hn : n < 65536) (hm : m < 65536)
    (same : hexadecimal4 n = hexadecimal4 m) : n = m := by
  rw [hexadecimal4_eq hn, hexadecimal4_eq hm] at same
  simp only [List.map_cons, List.map_nil, List.cons.injEq, and_true] at same
  obtain ⟨d3, d2, d1, d0⟩ := same
  have e3 := hexDigit_injective (by omega) (by omega) d3
  have e2 := hexDigit_injective (by omega) (by omega) d2
  have e1 := hexDigit_injective (by omega) (by omega) d1
  have e0 := hexDigit_injective (by omega) (by omega) d0
  omega

/-- The bytes of a hexadecimal group are digits or lower-case letters. -/
theorem hexadecimal4_digit {n : Nat} (bound : n < 65536) {b : Byte} (member : b ∈ hexadecimal4 n) :
    48 ≤ b ∧ b ≤ 57 ∨ 97 ≤ b ∧ b ≤ 102 := by
  have digit : ∀ d < 16, 48 ≤ (Nat.digitChar d).toUInt8 ∧ (Nat.digitChar d).toUInt8 ≤ 57 ∨
      97 ≤ (Nat.digitChar d).toUInt8 ∧ (Nat.digitChar d).toUInt8 ≤ 102 := by decide
  rw [hexadecimal4_eq bound] at member
  obtain ⟨d, hd, rfl⟩ := List.mem_map.1 member
  apply digit
  simp only [List.mem_cons, List.not_mem_nil, or_false] at hd
  omega

end CString
