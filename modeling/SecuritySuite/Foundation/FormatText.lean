import SecuritySuite.Foundation.CString

/-!
# Formats without arguments

What `printf` and its relatives write for a format that is passed without arguments. Bytes other than `'%'` are copied,
and a doubled `'%'` gives a single one. Any other `'%'` starts a conversion whose argument has not been passed, or one
that does not exist. What comes of it and of everything behind it is not determined by the format, so it is a
parameter. Only a text without `'%'` is written as it is whatever the parameter (`expand_eq_self_iff`).
-/

namespace CString
set_option autoImplicit false

/-- What is written. `unpassed` is what comes of a format that starts with a conversion. -/
def expand (unpassed : List Byte → List Byte) : List Byte → List Byte
  | [] => []
  | 37 :: 37 :: format => 37 :: expand unpassed format
  | 37 :: format => unpassed (37 :: format)
  | b :: format => b :: expand unpassed format

/-- Every `'%'` is doubled. -/
inductive Doubled : List Byte → Prop where
  | nil : Doubled []
  | percent {format : List Byte} (rest : Doubled format) : Doubled (37 :: 37 :: format)
  | plain {b : Byte} {format : List Byte} (other : b ≠ 37) (rest : Doubled format) : Doubled (b :: format)

variable (unpassed : List Byte → List Byte)

theorem expand_percent (format : List Byte) : expand unpassed (37 :: 37 :: format) = 37 :: expand unpassed format := rfl

theorem expand_cons {b : Byte} (plain : b ≠ 37) (format : List Byte) :
    expand unpassed (b :: format) = b :: expand unpassed format := by
  rw [expand]
  · rintro rest rfl
    exact absurd rfl plain
  · exact plain

/-- What is in front of the first `'%'` is copied. -/
theorem expand_append {front : List Byte} (plain : 37 ∉ front) (rest : List Byte) :
    expand unpassed (front ++ rest) = front ++ expand unpassed rest := by
  induction front with
  | nil => rfl
  | cons b front ih =>
    obtain ⟨first, others⟩ := List.ne_and_not_mem_of_not_mem_cons plain
    rw [List.cons_append, expand_cons unpassed (Ne.symm first), ih others, List.cons_append]

theorem expand_plain {format : List Byte} (plain : 37 ∉ format) : expand unpassed format = format := by
  have copied := expand_append unpassed plain []
  rwa [expand, List.append_nil] at copied

/-- If a conversion ends the text, nothing gets longer, and a `'%'` is lost. -/
theorem expand_nothing_length (format : List Byte) : (expand (fun _ => []) format).length ≤ format.length ∧
    (37 ∈ format → (expand (fun _ => []) format).length < format.length) := by
  induction format using expand.induct with
  | case1 => exact ⟨Nat.le_refl _, fun member => by cases member⟩
  | case2 format ih =>
    rw [expand_percent]
    simp only [List.length_cons]
    exact ⟨by omega, fun _ => by omega⟩
  | case3 format other =>
    rw [expand]
    · exact ⟨by simp, fun _ => by simp⟩
    · exact other
  | case4 b format notDoubled plain ih =>
    rw [expand_cons _ plain]
    simp only [List.length_cons]
    refine ⟨by omega, fun member => ?_⟩
    have := ih.2 (List.mem_of_ne_of_mem (Ne.symm plain) member)
    omega

/-- **Which texts are written as they are**, whatever comes of a conversion: those without `'%'`. -/
theorem expand_eq_self_iff (format : List Byte) : (∀ unpassed, expand unpassed format = format) ↔ 37 ∉ format := by
  constructor
  · intro same member
    have shorter := (expand_nothing_length format).2 member
    rw [same] at shorter
    exact Nat.lt_irrefl _ shorter
  · intro plain unpassed
    exact expand_plain unpassed plain

theorem Doubled.of_plain {format : List Byte} (plain : 37 ∉ format) : Doubled format := by
  induction format with
  | nil => exact .nil
  | cons b format ih =>
    obtain ⟨first, others⟩ := List.ne_and_not_mem_of_not_mem_cons plain
    exact .plain (Ne.symm first) (ih others)

theorem Doubled.append {front format : List Byte} (doubled : Doubled front) (rest : Doubled format) :
    Doubled (front ++ format) := by
  induction doubled with
  | nil => exact rest
  | percent _ ih => exact .percent ih
  | plain other _ ih => exact .plain other ih

/-- Where every `'%'` is doubled nothing is left open, -/
theorem Doubled.expand_eq {format : List Byte} (doubled : Doubled format) :
    expand unpassed format = expand (fun _ => []) format := by
  induction doubled with
  | nil => rfl
  | percent rest ih => rw [expand_percent, expand_percent, ih]
  | plain other rest ih => rw [expand_cons _ other, expand_cons _ other, ih]

/-- and a text with such a `'%'` is never written as it is. -/
theorem Doubled.expand_ne {format : List Byte} (doubled : Doubled format) (member : 37 ∈ format) :
    expand unpassed format ≠ format := by
  intro same
  have shorter := (expand_nothing_length format).2 member
  rw [← doubled.expand_eq unpassed, same] at shorter
  exact Nat.lt_irrefl _ shorter

end CString
