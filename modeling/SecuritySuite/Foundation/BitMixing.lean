import Mathlib.Data.Nat.Bitwise
import Mathlib.Tactic.Common

/-!
# Steps that mix bits

The two steps that shift-and-add hashes are made of, on words of any width. `x ^^^ (x <<< k)` loses nothing
(`xorShift_injective`). `x + (x >>> k)` grows with `x` until it wraps around, so two words give the same result only
if one wraps onto the other (`addShift_eq_iff`), and then they lie at opposite ends (`Wraps.ends`).
-/

namespace BitMixing
set_option autoImplicit false

variable {n : Nat}

def xorShift (k : Nat) (x : BitVec n) : BitVec n := x ^^^ (x <<< k)

def addShift (k : Nat) (x : BitVec n) : BitVec n := x + (x >>> k)

/-- The sum for `x` wraps around onto the sum for `y`. -/
def Wraps (k : Nat) (x y : BitVec n) : Prop := x.toNat + x.toNat / 2 ^ k = y.toNat + y.toNat / 2 ^ k + 2 ^ n

instance (k : Nat) (x y : BitVec n) : Decidable (Wraps k x y) := inferInstanceAs (Decidable (_ = _))

theorem getLsbD_xorShift (k : Nat) (x : BitVec n) (i : Nat) :
    (xorShift k x).getLsbD i = (x.getLsbD i ^^ (decide (i < n) && !decide (i < k) && x.getLsbD (i - k))) := by
  rw [xorShift, BitVec.getLsbD_xor, BitVec.getLsbD_shiftLeft]

/-- The bits come back one after the other, from the lowest on. -/
theorem xorShift_injective {k : Nat} (positive : 0 < k) {x y : BitVec n} (same : xorShift k x = xorShift k y) : x = y := by
  suffices lower : ∀ m i, i < m → x.getLsbD i = y.getLsbD i from
    BitVec.eq_of_getLsbD_eq fun i _ => lower (i + 1) i (Nat.lt_succ_self i)
  intro m
  induction m with
  | zero => exact fun i below => absurd below (Nat.not_lt_zero i)
  | succ m ih =>
    intro i below
    have bits : (xorShift k x).getLsbD i = (xorShift k y).getLsbD i := by rw [same]
    rw [getLsbD_xorShift, getLsbD_xorShift] at bits
    by_cases low : i < k
    · simpa [low] using bits
    · rw [ih (i - k) (by omega)] at bits
      exact Bool.xor_left_inj.1 bits

theorem addShift_toNat (k : Nat) (x : BitVec n) : (addShift k x).toNat = (x.toNat + x.toNat / 2 ^ k) % 2 ^ n := by
  rw [addShift, BitVec.toNat_add, BitVec.toNat_ushiftRight, Nat.shiftRight_eq_div_pow]

/-- As numbers the sums are different for different words. -/
theorem sum_injective {k a b : Nat} (same : a + a / 2 ^ k = b + b / 2 ^ k) : a = b := by
  rcases Nat.lt_trichotomy a b with less | equal | greater
  · have := Nat.div_le_div_right (c := 2 ^ k) less.le
    omega
  · exact equal
  · have := Nat.div_le_div_right (c := 2 ^ k) greater.le
    omega

/-- Below twice the modulus. -/
theorem mod_eq_iff {a b m : Nat} (ha : a < m + m) (hb : b < m + m) :
    a % m = b % m ↔ a = b ∨ a = b + m ∨ b = a + m := by
  have reduced : ∀ c, c < m + m → c % m = if c < m then c else c - m := by
    intro c hc
    split
    · exact Nat.mod_eq_of_lt ‹_›
    · rw [Nat.mod_eq_sub_mod (by omega), Nat.mod_eq_of_lt (by omega)]
  rw [reduced a ha, reduced b hb]
  split <;> split <;> omega

theorem addShift_eq_iff {k : Nat} {x y : BitVec n} : addShift k x = addShift k y ↔ x = y ∨ Wraps k x y ∨ Wraps k y x := by
  rw [← BitVec.toNat_inj, addShift_toNat, addShift_toNat]
  have boundX : x.toNat + x.toNat / 2 ^ k < 2 ^ n + 2 ^ n :=
    Nat.add_lt_add_of_lt_of_le x.isLt ((Nat.div_le_self ..).trans x.isLt.le)
  have boundY : y.toNat + y.toNat / 2 ^ k < 2 ^ n + 2 ^ n :=
    Nat.add_lt_add_of_lt_of_le y.isLt ((Nat.div_le_self ..).trans y.isLt.le)
  have whole : x.toNat + x.toNat / 2 ^ k = y.toNat + y.toNat / 2 ^ k ↔ x = y := by
    rw [← BitVec.toNat_inj]
    exact ⟨sum_injective, fun same => by rw [same]⟩
  rw [← whole, Wraps, Wraps]
  exact mod_eq_iff boundX boundY

/-- The word that wraps has its upper `k` bits set, and those of the other are clear. -/
theorem Wraps.ends {k : Nat} (fits : k ≤ n) {x y : BitVec n} (wraps : Wraps k x y) :
    2 ^ n - 2 ^ (n - k) ≤ x.toNat ∧ y.toNat < 2 ^ (n - k) := by
  have upper : x.toNat / 2 ^ k < 2 ^ (n - k) := by
    rw [Nat.div_lt_iff_lt_mul (Nat.two_pow_pos k), ← Nat.pow_add, Nat.sub_add_cancel fits]
    exact x.isLt
  have below : x.toNat < 2 ^ n := x.isLt
  unfold Wraps at wraps
  generalize x.toNat / 2 ^ k = q at *
  generalize y.toNat / 2 ^ k = r at *
  generalize 2 ^ (n - k) = room at *
  generalize 2 ^ n = modulus at *
  omega

end BitMixing
