import Mathlib.Data.Set.Basic
import Mathlib.Data.List.Induction

/-!
# Keeping what does not clash

A list grows by one element after the other, and each is kept or dropped by a look at those kept before
it (`keep`). What was kept is kept again when it is all that is offered (`keepAll_kept`).

In the second part an element is dropped when it clashes with a kept one. Elements stand for sets,
and a clash means that two sets meet. Dropping loses nothing exactly when every element that meets an
earlier one lies inside an earlier one (`covered_iff`): then whatever is dropped was already there.
-/

namespace FirstCome
set_option autoImplicit false

universe u v
variable {α : Type u} {β : Type v}

/-- Append an element if it is accepted after those kept. -/
def keep (accepts : List α → α → Bool) (kept : List α) (e : α) : List α :=
  if accepts kept e then kept ++ [e] else kept

def keepAll (accepts : List α → α → Bool) (kept es : List α) : List α := es.foldl (keep accepts) kept

theorem keepAll_snoc (accepts : List α → α → Bool) (kept es : List α) (e : α) :
    keepAll accepts kept (es ++ [e]) = keep accepts (keepAll accepts kept es) e := by
  simp [keepAll]

theorem mem_of_keepAll {accepts : List α → α → Bool} {es : List α} {k : α} (member : k ∈ keepAll accepts [] es) :
    k ∈ es := by
  induction es using List.reverseRecOn with
  | nil => exact member
  | append_singleton es e ih =>
    rw [keepAll_snoc, keep] at member
    split at member
    · rcases List.mem_append.1 member with before | last
      · exact List.mem_append_left _ (ih before)
      · exact List.mem_append_right _ last
    · exact List.mem_append_left _ (ih member)

/-- **What was kept is kept again.** Each kept element finds the elements that it found before. -/
theorem keepAll_kept (accepts : List α → α → Bool) (es : List α) :
    keepAll accepts [] (keepAll accepts [] es) = keepAll accepts [] es := by
  induction es using List.reverseRecOn with
  | nil => rfl
  | append_singleton es e ih =>
    rw [keepAll_snoc]
    by_cases accepted : accepts (keepAll accepts [] es) e = true
    · have kept : keep accepts (keepAll accepts [] es) e = keepAll accepts [] es ++ [e] := if_pos accepted
      rw [kept, keepAll_snoc, ih, kept]
    · have kept : keep accepts (keepAll accepts [] es) e = keepAll accepts [] es := if_neg accepted
      rw [kept, ih]

/-- Append an element unless it clashes with a kept one. -/
def enter (clash : α → α → Bool) (kept : List α) (e : α) : List α :=
  if kept.any (clash e) then kept else kept ++ [e]

def enterAll (clash : α → α → Bool) (kept es : List α) : List α := es.foldl (enter clash) kept

/-- Clashing means that the sets meet, for elements that stand for something. -/
def Agrees (clash : α → α → Bool) (den : α → Set β) : Prop :=
  ∀ e x, (den e).Nonempty → (clash e x = true ↔ (den e ∩ den x).Nonempty)

/-- No element lost anything by being dropped. -/
def Covered (clash : α → α → Bool) (den : α → Set β) (es : List α) : Prop :=
  ∀ e ∈ es, (den e).Nonempty → ∃ k ∈ enterAll clash [] es, den e ⊆ den k

/-- Whatever meets an earlier element lies inside an earlier element. -/
def Nested (den : α → Set β) (es : List α) : Prop :=
  ∀ pre e post, es = pre ++ e :: post → (∃ i ∈ pre, (den e ∩ den i).Nonempty) → ∃ k ∈ pre, den e ⊆ den k

variable {clash : α → α → Bool} {den : α → Set β}

theorem enter_cases (clash : α → α → Bool) (kept : List α) (e : α) :
    enter clash kept e = kept ∧ kept.any (clash e) = true ∨
      enter clash kept e = kept ++ [e] ∧ kept.any (clash e) = false := by
  unfold enter
  cases kept.any (clash e) <;> simp

theorem enterAll_snoc (kept es : List α) (e : α) :
    enterAll clash kept (es ++ [e]) = enter clash (enterAll clash kept es) e := by
  simp [enterAll]

theorem enterAll_append (kept es es' : List α) :
    enterAll clash kept (es ++ es') = enterAll clash (enterAll clash kept es) es' := by
  simp [enterAll]

/-- Kept elements stay. -/
theorem kept_subset (clash : α → α → Bool) (kept es : List α) : kept ⊆ enterAll clash kept es := by
  induction es using List.reverseRecOn with
  | nil => exact List.Subset.refl _
  | append_singleton es e ih =>
    rw [enterAll_snoc]
    rcases enter_cases clash (enterAll clash kept es) e with ⟨same, -⟩ | ⟨more, -⟩
    · rw [same]
      exact ih
    · rw [more]
      exact List.Subset.trans ih (List.subset_append_left _ _)

/-- What is kept was given, and what was added clashes with nothing kept before. -/
theorem kept_cases {kept es : List α} {k : α} (member : k ∈ enterAll clash kept es) :
    k ∈ kept ∨ k ∈ es ∧ ∀ x ∈ kept, clash k x = false := by
  induction es using List.reverseRecOn with
  | nil => exact .inl member
  | append_singleton es e ih =>
    rw [enterAll_snoc] at member
    rcases enter_cases clash (enterAll clash kept es) e with ⟨same, -⟩ | ⟨more, apart⟩
    · rw [same] at member
      exact (ih member).imp_right fun h => ⟨by simp [h.1], h.2⟩
    · rw [more, List.mem_append, List.mem_singleton] at member
      rcases member with before | rfl
      · exact (ih before).imp_right fun h => ⟨by simp [h.1], h.2⟩
      · refine .inr ⟨by simp, fun x hx => ?_⟩
        rw [List.any_eq_false] at apart
        simpa using apart x (kept_subset clash kept es hx)

theorem mem_of_kept {es : List α} {k : α} (member : k ∈ enterAll clash [] es) : k ∈ es :=
  ((kept_cases member).resolve_left (by simp)).1

/-- Every element met something that was kept. -/
theorem met_of_mem (agrees : Agrees clash den) {es : List α} {e : α} (member : e ∈ es) (live : (den e).Nonempty) :
    ∃ x ∈ enterAll clash [] es, (den e ∩ den x).Nonempty := by
  induction es using List.reverseRecOn with
  | nil => cases member
  | append_singleton es e' ih =>
    rw [enterAll_snoc]
    have later : enterAll clash [] es ⊆ enter clash (enterAll clash [] es) e' := by
      have := kept_subset clash (enterAll clash [] es) [e']
      simpa [enterAll] using this
    rw [List.mem_append, List.mem_singleton] at member
    rcases member with before | rfl
    · obtain ⟨x, kept, meets⟩ := ih before
      exact ⟨x, later kept, meets⟩
    · rcases enter_cases clash (enterAll clash [] es) e with ⟨same, clashes⟩ | ⟨more, -⟩
      · obtain ⟨x, kept, clashes⟩ := List.any_eq_true.1 clashes
        exact ⟨x, later kept, (agrees e x live).1 clashes⟩
      · exact ⟨e, by rw [more]; simp, by simpa using live⟩

/-- A kept element that meets an element kept earlier was there already. -/
theorem kept_before (agrees : Agrees clash den) {kept es : List α} {k x : α}
    (member : k ∈ enterAll clash kept es) (earlier : x ∈ kept) (meets : (den k ∩ den x).Nonempty) : k ∈ kept := by
  rcases kept_cases member with before | ⟨-, apart⟩
  · exact before
  · have clashes := (agrees k x (meets.mono Set.inter_subset_left)).2 meets
    rw [apart x earlier] at clashes
    cases clashes

/-- **Dropping loses nothing exactly for nested sequences.** -/
theorem covered_iff (agrees : Agrees clash den) (es : List α) : Covered clash den es ↔ Nested den es := by
  constructor
  · rintro covered pre e post rfl ⟨i, member, meets⟩
    have split : enterAll clash [] (pre ++ e :: post) = enterAll clash (enterAll clash [] pre) (e :: post) :=
      enterAll_append _ _ _
    rw [Covered, split] at covered
    have live : (den e).Nonempty := meets.mono Set.inter_subset_left
    have live' : (den i).Nonempty := meets.mono Set.inter_subset_right
    obtain ⟨j, kept, inside⟩ := covered i (by simp [member]) live'
    obtain ⟨x, early, meets'⟩ := met_of_mem agrees member live'
    have kept := kept_before agrees kept early (meets'.mono (Set.inter_subset_inter_left _ inside))
    obtain ⟨k, kept', inside'⟩ := covered e (by simp) live
    have both : (den k ∩ den j).Nonempty := meets.mono (Set.inter_subset_inter inside' inside)
    exact ⟨k, mem_of_kept (kept_before agrees kept' kept both), inside'⟩
  · intro nested
    induction es using List.reverseRecOn with
    | nil => intro e member; cases member
    | append_singleton es e ih =>
      have before := ih fun pre e' post split => nested pre e' (post ++ [e]) (by simp [split])
      have later := kept_subset clash (enterAll clash [] es) [e]
      rw [← enterAll_append] at later
      intro e' member live
      rw [List.mem_append, List.mem_singleton] at member
      rcases member with earlier | rfl
      · obtain ⟨k, kept, inside⟩ := before e' earlier live
        exact ⟨k, later kept, inside⟩
      · rcases enter_cases clash (enterAll clash [] es) e' with ⟨-, clashes⟩ | ⟨more, -⟩
        · obtain ⟨x, kept, clashes⟩ := List.any_eq_true.1 clashes
          have meets := (agrees e' x live).1 clashes
          obtain ⟨j, member, inside⟩ := nested es e' [] rfl ⟨x, mem_of_kept kept, meets⟩
          obtain ⟨k, kept, inside'⟩ := before j member (live.mono inside)
          exact ⟨k, later kept, inside.trans inside'⟩
        · exact ⟨e', by rw [enterAll_snoc, more]; simp, subset_rfl⟩

end FirstCome
