import SecuritySuite.Foundation.Runs

/-!
# Delivery from a growing source

A machine whose answers are parts of a list that grows while they are given out. `whole` is the list so far, and
`rest` what a state still has to give out. A step may add to both, and it may lose something. What was given out
and what remains make up the list exactly after the runs in which no step loses anything (`delivered_iff`): what is
lost once is never made up for, because the two sides only grow by the same.
-/

namespace Runs
set_option autoImplicit false

universe u v w x
variable {State : Type u} {Op : Type v} {α : Type w} {Fault : Type x}

/-- A step that adds to the list: without a loss it gives out the front of what remains, and with one there is less
behind it. -/
structure HandsOut (whole rest : State → List α) (loses : Prop) (s : State) (delivered : List α) (s' : State)
    (added : List α) : Prop where
  grown : whole s' = whole s ++ added
  kept : ¬ loses → delivered ++ rest s' = rest s ++ added
  lost : loses → (delivered ++ rest s').length < (rest s ++ added).length

section

variable {whole rest : State → List α} {loses : Prop} {s s' : State} {delivered added given : List α}

theorem HandsOut.intact (step : HandsOut whole rest loses s delivered s' added) (calm : ¬ loses)
    (intact : given ++ rest s = whole s) : given ++ delivered ++ rest s' = whole s' := by
  rw [List.append_assoc, step.kept calm, ← List.append_assoc, intact, step.grown]

/-- A loss stays. -/
theorem HandsOut.short (step : HandsOut whole rest loses s delivered s' added)
    (bound : (given ++ rest s).length ≤ (whole s).length) (less : loses ∨ (given ++ rest s).length < (whole s).length) :
    (given ++ delivered ++ rest s').length < (whole s').length := by
  have grown := congrArg List.length step.grown
  by_cases here : loses
  · have lost := step.lost here
    simp only [List.length_append] at grown bound lost ⊢
    omega
  · have kept := congrArg List.length (step.kept here)
    have before := less.resolve_left here
    simp only [List.length_append] at grown before kept ⊢
    omega

end

variable {step : State → Op → Except Fault (List α × State)} (inv : State → Prop) {cond : State → Op → Prop}
  {whole rest : State → List α} {loses : State → Op → Prop}

/-- **What was given out and what remains**, after a run whose steps meet the condition: the whole list, or less if a
step has lost something. -/
theorem delivered_along
    (keeps : ∀ s op, inv s → cond s op → ∃ delivered s' added, step s op = .ok (delivered, s') ∧ inv s' ∧
      HandsOut whole rest (loses s op) s delivered s' added)
    {s : State} {ops : List Op} (start : inv s) (all : rest s = whole s) (along : Along step cond ops s) :
    ∃ answers s', run step ops s = .ok (answers, s') ∧ inv s' ∧
      (Along step (fun s op => ¬ loses s op) ops s → answers.flatten ++ rest s' = whole s') ∧
      (¬ Along step (fun s op => ¬ loses s op) ops s → (answers.flatten ++ rest s').length < (whole s').length) := by
  induction ops using List.reverseRecOn with
  | nil => exact ⟨[], s, rfl, start, fun _ => all, fun lost => absurd trivial lost⟩
  | append_singleton ops op ih =>
    obtain ⟨answers, s₁, before, kept, whole₁, lost₁⟩ := ih along.front
    have here : cond s₁ op := ((along_snoc ⟨answers, before⟩).1 along).2
    obtain ⟨delivered, s', added, next, kept', delivers⟩ := keeps s₁ op kept here
    have lossless : Along step (fun s op => ¬ loses s op) (ops ++ [op]) s ↔
        Along step (fun s op => ¬ loses s op) ops s ∧ ¬ loses s₁ op := along_snoc ⟨answers, before⟩
    refine ⟨answers ++ [delivered], s', run_snoc.2 ⟨answers, s₁, delivered, before, next, rfl⟩, kept', ?_, ?_⟩
    · intro calm
      rw [List.flatten_append, List.flatten_singleton]
      exact delivers.intact (lossless.1 calm).2 (whole₁ (lossless.1 calm).1)
    · intro loss
      rw [List.flatten_append, List.flatten_singleton]
      by_cases calm : Along step (fun s op => ¬ loses s op) ops s
      · have now : loses s₁ op := by
          by_contra calm'
          exact loss (lossless.2 ⟨calm, calm'⟩)
        exact delivers.short (Nat.le_of_eq (congrArg List.length (whole₁ calm))) (.inl now)
      · exact delivers.short (Nat.le_of_lt (lost₁ calm)) (.inr (lost₁ calm))

theorem delivered_iff
    (keeps : ∀ s op, inv s → cond s op → ∃ delivered s' added, step s op = .ok (delivered, s') ∧ inv s' ∧
      HandsOut whole rest (loses s op) s delivered s' added)
    {s : State} {ops : List Op} (start : inv s) (all : rest s = whole s) (along : Along step cond ops s) :
    ∃ answers s', run step ops s = .ok (answers, s') ∧ inv s' ∧
      (answers.flatten ++ rest s' = whole s' ↔ Along step (fun s op => ¬ loses s op) ops s) := by
  obtain ⟨answers, s', ran, kept, intact, short⟩ := delivered_along inv keeps start all along
  refine ⟨answers, s', ran, kept, fun same => ?_, intact⟩
  by_contra loss
  have less := short loss
  rw [same] at less
  exact Nat.lt_irrefl _ less

end Runs
