import Mathlib.Data.List.Induction
import Mathlib.Data.List.Infix
import Mathlib.Tactic.Common

/-!
# Texts of records with a free field

A record is a fixed head, a field that may hold anything, and a tail that can be read from its end. Texts of such records
are still read in one way only: a record cannot be mistaken to begin inside another one, because no tail has the first
letter of the head in it and a field is too short to bring a tail of its own, or has no end of a record in it.
-/

namespace Framing
set_option autoImplicit false

universe u v w
variable {α : Type u}

/-- What stands behind the last separator of a text, and what stands in front of it. -/
theorem last_separator {c : α} {x y s t : List α} (inside : c ∉ s) (inside' : c ∉ t)
    (same : x ++ c :: s = y ++ c :: t) : x = y ∧ s = t := by
  have later : ∀ {x y s t a : List α}, c ∉ s → y = x ++ a → c :: s = a ++ c :: t → x = y ∧ s = t := by
    rintro x y s t a clear rfl split
    cases a with
    | nil => exact ⟨(List.append_nil x).symm, by simpa using split⟩
    | cons b a =>
      rw [List.cons_append, List.cons.injEq] at split
      exact absurd (by simp [split.2]) clear
  rcases List.append_eq_append_iff.1 same with ⟨a, longer, split⟩ | ⟨a, longer, split⟩
  · exact later inside longer split
  · obtain ⟨front, back⟩ := later inside' longer split
    exact ⟨front.symm, back.symm⟩

/-- What stands in front of the first separator of a text, and what stands behind it. -/
theorem first_separator {c : α} {x y s t : List α} (outside : c ∉ s) (outside' : c ∉ t)
    (same : s ++ c :: x = t ++ c :: y) : s = t ∧ x = y := by
  have turned := congrArg List.reverse same
  simp only [List.reverse_append, List.reverse_cons, List.append_assoc, List.singleton_append] at turned
  obtain ⟨behind, front⟩ := last_separator (by simpa using outside) (by simpa using outside') turned
  exact ⟨List.reverse_injective front, List.reverse_injective behind⟩

/-- A text whose pieces show what they hold and where they end is read from its beginning. -/
theorem map_eq_of_flatMap_eq {ι : Type v} {κ : Type w} {piece : ι → List α} {holds : ι → κ} {Ok : ι → Prop}
    (reads : ∀ {i j x y}, Ok i → Ok j → piece i ++ x = piece j ++ y → holds i = holds j ∧ x = y)
    (filled : ∀ i, piece i ≠ []) {is js : List ι} (ok : ∀ i ∈ is, Ok i) (ok' : ∀ j ∈ js, Ok j)
    (same : is.flatMap piece = js.flatMap piece) : is.map holds = js.map holds := by
  induction is generalizing js with
  | nil =>
    cases js with
    | nil => rfl
    | cons j js => exact absurd (List.append_eq_nil_iff.1 same.symm).1 (filled j)
  | cons i is ih =>
    cases js with
    | nil => exact absurd (List.append_eq_nil_iff.1 same).1 (filled i)
    | cons j js =>
      rw [List.forall_mem_cons] at ok ok'
      obtain ⟨first, rest⟩ := reads ok.1 ok'.1 same
      rw [List.map_cons, List.map_cons, first, ih ok.2 ok'.2 rest]

/-- The same head on every record, and tails that are found from the end of a text. -/
structure Format (α : Type u) where
  mark : α
  rest : List α
  stop : α
  Tail : List α → Prop
  /-- How long a field may be when it holds ends of records. -/
  limit : Nat
  reads : ∀ {x y s t : List α}, Tail s → Tail t → x ++ s = y ++ t → x = y ∧ s = t
  ends : ∀ {t : List α}, Tail t → ∃ body, t = body ++ [stop]
  unmarked : ∀ {t : List α}, Tail t → mark ∉ t
  long : ∀ {t : List α}, Tail t → limit ≤ t.length
  open_head : stop ∉ mark :: rest

structure Record (α : Type u) where
  field : List α
  tail : List α

namespace Format

variable (f : Format α)

def head : List α := f.mark :: f.rest

def recordText (r : Record α) : List α := f.head ++ (r.field ++ r.tail)

def text (records : List (Record α)) : List α := records.flatMap f.recordText

/-- A field that cannot pass for more than itself. -/
def Field (field : List α) : Prop := field.length ≤ f.limit ∨ f.stop ∉ field

structure Admits (r : Record α) : Prop where
  field : f.Field r.field
  tail : f.Tail r.tail

theorem text_snoc (records : List (Record α)) (r : Record α) :
    f.text (records ++ [r]) = f.text records ++ (f.head ++ r.field) ++ r.tail := by
  simp [text, recordText, List.append_assoc]

variable {f} {records records' : List (Record α)}

/-- The end of a text of records is no beginning of a record. -/
theorem not_shifted {front shift field field' : List α} (admits : ∀ r ∈ records, f.Admits r) (free : f.Field field')
    (split : f.text records = front ++ shift) (nonempty : shift ≠ []) (same : shift ++ (f.head ++ field) = f.head ++ field') :
    False := by
  have some_record : records ≠ [] := by
    rintro rfl
    exact nonempty (List.append_eq_nil_iff.1 split.symm).2
  obtain ⟨before, r, rfl⟩ := (List.eq_nil_or_concat' records).resolve_left some_record
  have tail := (admits r (by simp)).tail
  rw [text_snoc] at split
  rcases free with short | clear
  · have lengths := congrArg List.length same
    simp only [List.length_append] at lengths
    have inside : shift <:+ r.tail := by
      have behind : r.tail <:+ front ++ shift := by
        rw [← split]
        exact List.suffix_append ..
      have long := f.long tail
      exact List.suffix_of_suffix_length_le (List.suffix_append ..) behind (by omega)
    obtain ⟨first, more, rfl⟩ := List.exists_cons_of_ne_nil nonempty
    simp only [head, List.cons_append, List.cons.injEq] at same
    exact f.unmarked tail (inside.subset (by simp [same.1]))
  · obtain ⟨body, last, rfl⟩ := (List.eq_nil_or_concat' shift).resolve_left nonempty
    obtain ⟨start, ends⟩ := f.ends tail
    rw [ends, ← List.append_assoc, ← List.append_assoc front] at split
    obtain ⟨-, stops⟩ := List.append_inj' split rfl
    rw [List.cons.injEq] at stops
    have member : f.stop ∈ f.head ++ field' := by
      rw [← same, ← stops.1]
      simp
    rcases List.mem_append.1 member with inside | inside
    · exact f.open_head inside
    · exact clear inside

theorem field_unique {field field' : List α} (admits : ∀ r ∈ records, f.Admits r) (admits' : ∀ r ∈ records', f.Admits r)
    (free : f.Field field) (free' : f.Field field')
    (same : f.text records ++ (f.head ++ field) = f.text records' ++ (f.head ++ field')) :
    f.text records = f.text records' ∧ field = field' := by
  rcases List.append_eq_append_iff.1 same with ⟨shift, longer, split⟩ | ⟨shift, longer, split⟩
  · by_cases nothing : shift = []
    · rw [nothing, List.nil_append, List.append_cancel_left_eq] at split
      exact ⟨by rw [longer, nothing, List.append_nil], split⟩
    · exact (not_shifted admits' free longer nothing split.symm).elim
  · by_cases nothing : shift = []
    · rw [nothing, List.nil_append, List.append_cancel_left_eq] at split
      exact ⟨by rw [longer, nothing, List.append_nil], split.symm⟩
    · exact (not_shifted admits free' longer nothing split.symm).elim

theorem text_ne_nil (r : Record α) : f.text (records ++ [r]) ≠ [] := by
  rw [text_snoc]
  simp [head]

/-- **A text of records is read in one way.** -/
theorem text_injective (admits : ∀ r ∈ records, f.Admits r) (admits' : ∀ r ∈ records', f.Admits r)
    (same : f.text records = f.text records') : records = records' := by
  induction records using List.reverseRecOn generalizing records' with
  | nil =>
    rcases List.eq_nil_or_concat' records' with rfl | ⟨before, r, rfl⟩
    · rfl
    · exact absurd same.symm (text_ne_nil r)
  | append_singleton records r ih =>
    rcases List.eq_nil_or_concat' records' with rfl | ⟨records', r', rfl⟩
    · exact absurd same (text_ne_nil r)
    · have here := admits r (by simp)
      have here' := admits' r' (by simp)
      have earlier : ∀ r ∈ records, f.Admits r := fun r member => admits r (by simp [member])
      have earlier' : ∀ r ∈ records', f.Admits r := fun r member => admits' r (by simp [member])
      rw [text_snoc, text_snoc] at same
      obtain ⟨front, tails⟩ := f.reads here.tail here'.tail same
      obtain ⟨texts, fields⟩ := field_unique earlier earlier' here.field here'.field front
      rw [ih earlier earlier' texts]
      cases r
      cases r'
      simp_all

end Format

end Framing
