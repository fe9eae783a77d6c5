import Mathlib.Data.List.Induction
import Mathlib.Data.List.Count

/-!
# Texts of separated pieces

A text of pieces in which a separator follows each piece (`terminated`), next to the text in which
separators stand between the pieces (`List.intercalate`) and to cutting a text at its separators
(`List.splitOn`).
-/

namespace Separated
set_option autoImplicit false

universe u
variable {α : Type u}

/-- Each piece with a separator behind it. -/
def terminated (sep : α) (pieces : List (List α)) : List α := pieces.flatMap (· ++ [sep])

@[simp] theorem terminated_nil (sep : α) : terminated sep [] = [] := rfl

@[simp] theorem terminated_cons (sep : α) (p : List α) (pieces : List (List α)) :
    terminated sep (p :: pieces) = p ++ [sep] ++ terminated sep pieces := rfl

theorem terminated_snoc (sep : α) (pieces : List (List α)) (p : List α) :
    terminated sep (pieces ++ [p]) = terminated sep pieces ++ (p ++ [sep]) := by
  simp [terminated]

/-- One separator more than between the pieces. -/
theorem terminated_eq (sep : α) {pieces : List (List α)} (nonempty : pieces ≠ []) :
    terminated sep pieces = [sep].intercalate pieces ++ [sep] := by
  induction pieces with
  | nil => exact absurd rfl nonempty
  | cons p pieces ih =>
    cases pieces with
    | nil => simp
    | cons q pieces =>
      rw [terminated_cons, ih (by simp), List.intercalate_cons_cons]
      simp

theorem mem_terminated {sep : α} {pieces : List (List α)} {b : α} (member : b ∈ terminated sep pieces) :
    b = sep ∨ ∃ p ∈ pieces, b ∈ p := by
  obtain ⟨p, piece, inside⟩ := List.mem_flatMap.1 member
  rcases List.mem_append.1 inside with h | h
  · exact .inr ⟨p, piece, h⟩
  · exact .inl (List.mem_singleton.1 h)

section Cut

variable [DecidableEq α]

/-- A cut text with a separator at its end. -/
theorem terminated_splitOn (sep : α) (w : List α) : terminated sep (w.splitOn sep) = w ++ [sep] := by
  rw [terminated_eq sep (List.splitOn_ne_nil sep w), List.intercalate_splitOn]

theorem not_mem_of_splitOn {sep : α} {w p : List α} (piece : p ∈ w.splitOn sep) : sep ∉ p := by
  intro inside
  induction w generalizing p with
  | nil =>
    rw [List.splitOn_nil, List.mem_singleton] at piece
    rw [piece] at inside
    cases inside
  | cons b w ih =>
    rw [List.splitOn_cons_eq_if_modifyHead] at piece
    obtain ⟨first, rest, cut⟩ := List.exists_cons_of_ne_nil (List.splitOn_ne_nil sep w)
    by_cases same : b = sep
    · rw [if_pos (by simpa using same), List.mem_cons] at piece
      rcases piece with rfl | later
      · cases inside
      · exact ih later inside
    · rw [if_neg (by simpa using same), cut, List.modifyHead_cons, List.mem_cons] at piece
      rcases piece with rfl | later
      · rcases List.mem_cons.1 inside with rfl | behind
        · exact same rfl
        · exact ih (by simp [cut]) behind
      · exact ih (by simp [cut, later]) inside

/-- The elements of a piece are elements of the text. -/
theorem mem_of_splitOn {sep : α} {w p : List α} (piece : p ∈ w.splitOn sep) {b : α} (inside : b ∈ p) : b ∈ w := by
  have member : b ∈ terminated sep (w.splitOn sep) :=
    List.mem_flatMap.2 ⟨p, piece, by simp [inside]⟩
  rw [terminated_splitOn, List.mem_append, List.mem_singleton] at member
  apply member.resolve_right
  rintro rfl
  exact not_mem_of_splitOn piece inside

/-- The number of separators is the number of pieces. -/
theorem count_terminated {sep : α} {pieces : List (List α)} (inside : ∀ p ∈ pieces, sep ∉ p) :
    (terminated sep pieces).count sep = pieces.length := by
  induction pieces with
  | nil => rfl
  | cons p pieces ih =>
    have none_in_p : p.count sep = 0 := List.count_eq_zero.2 (inside p (by simp))
    have rest := ih fun q member => inside q (by simp [member])
    rw [terminated_cons, List.count_append, List.count_append, none_in_p, rest]
    simp [Nat.add_comm]

end Cut

end Separated
