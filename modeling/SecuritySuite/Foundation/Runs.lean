import Mathlib.Data.List.Induction
import Mathlib.Tactic.Common

/-!
# Runs of a machine that may fault

A machine takes one operation at a time from a state to an answer and a new state, or faults. A run
ends at the first fault. `Along` says that every operation of a run meets a condition in the state it
finds. The induction over runs is made here once: with an invariant, a condition on single
steps decides whether whole runs complete (`completes_iff`) and carries the invariant through them
(`keeps_along`).
-/

namespace Runs
set_option autoImplicit false

universe u v w x
variable {State : Type u} {Op : Type v} {Answer : Type w} {Fault : Type x}

/-- The answers and the last state, unless an operation faults. -/
def run (step : State → Op → Except Fault (Answer × State)) : List Op → State → Except Fault (List Answer × State)
  | [], s => .ok ([], s)
  | op :: ops, s =>
    match step s op with
    | .error fault => .error fault
    | .ok (answer, s') =>
      match run step ops s' with
      | .error fault => .error fault
      | .ok (answers, s'') => .ok (answer :: answers, s'')

/-- The last state of a complete run. -/
def final (step : State → Op → Except Fault (Answer × State)) (ops : List Op) (s : State) : State :=
  match run step ops s with
  | .error _ => s
  | .ok r => r.2

variable {step : State → Op → Except Fault (Answer × State)}

/-- A state at the end of a complete run. -/
def Reaches (step : State → Op → Except Fault (Answer × State)) (s : State) (ops : List Op) (s' : State) : Prop :=
  ∃ answers, run step ops s = .ok (answers, s')

/-- Every operation meets the condition in the state it finds. -/
def Along (step : State → Op → Except Fault (Answer × State)) (cond : State → Op → Prop) : List Op → State → Prop
  | [], _ => True
  | op :: ops, s => cond s op ∧ ∀ answer s', step s op = .ok (answer, s') → Along step cond ops s'

theorem run_cons {s s'' : State} {op : Op} {ops : List Op} {all : List Answer} :
    run step (op :: ops) s = .ok (all, s'') ↔ ∃ answer s' answers,
      step s op = .ok (answer, s') ∧ run step ops s' = .ok (answers, s'') ∧ all = answer :: answers := by
  constructor
  · intro h
    rw [run] at h
    cases first : step s op with
    | error fault => simp [first] at h
    | ok r =>
      obtain ⟨answer, s'⟩ := r
      cases rest : run step ops s' with
      | error fault => simp [first, rest] at h
      | ok r' =>
        obtain ⟨answers, s₃⟩ := r'
        simp only [first, rest, Except.ok.injEq, Prod.mk.injEq] at h
        exact ⟨answer, s', answers, rfl, by rw [rest, h.2], h.1.symm⟩
  · intro given
    obtain ⟨answer, s', answers, first, rest, rfl⟩ := given
    simp [run, first, rest]

theorem run_append {s s'' : State} {ops ops' : List Op} {all : List Answer} :
    run step (ops ++ ops') s = .ok (all, s'') ↔ ∃ answers s' answers',
      run step ops s = .ok (answers, s') ∧ run step ops' s' = .ok (answers', s'') ∧ all = answers ++ answers' := by
  induction ops generalizing s all with
  | nil => simp [run]
  | cons op ops ih =>
    simp only [List.cons_append, run_cons, ih]
    constructor
    · intro given
      obtain ⟨answer, s₁, _, first, ⟨answers, s', answers', before, behind, rfl⟩, rfl⟩ := given
      exact ⟨answer :: answers, s', answers', ⟨answer, s₁, answers, first, before, rfl⟩, behind, rfl⟩
    · intro given
      obtain ⟨_, s', answers', ⟨answer, s₁, answers, first, before, rfl⟩, behind, rfl⟩ := given
      exact ⟨answer, s₁, answers ++ answers', first, ⟨answers, s', answers', before, behind, rfl⟩, rfl⟩

theorem run_snoc {s s'' : State} {op : Op} {ops : List Op} {all : List Answer} :
    run step (ops ++ [op]) s = .ok (all, s'') ↔ ∃ answers s' answer,
      run step ops s = .ok (answers, s') ∧ step s' op = .ok (answer, s'') ∧ all = answers ++ [answer] := by
  rw [run_append]
  constructor
  · intro given
    obtain ⟨answers, s', rest, before, last, rfl⟩ := given
    obtain ⟨answer, s₁, none, next, nothing, rfl⟩ := run_cons.1 last
    cases nothing
    exact ⟨answers, s', answer, before, next, rfl⟩
  · intro given
    obtain ⟨answers, s', answer, before, next, rfl⟩ := given
    exact ⟨answers, s', [answer], before, run_cons.2 ⟨answer, s'', [], next, rfl, rfl⟩, rfl⟩

theorem reaches_nil {s s' : State} : Reaches step s [] s' ↔ s = s' := by
  simp [Reaches, run]

theorem reaches_cons {s s'' : State} {op : Op} {ops : List Op} :
    Reaches step s (op :: ops) s'' ↔ ∃ answer s', step s op = .ok (answer, s') ∧ Reaches step s' ops s'' := by
  unfold Reaches
  constructor
  · intro given
    obtain ⟨all, h⟩ := given
    obtain ⟨answer, s', answers, first, rest, -⟩ := run_cons.1 h
    exact ⟨answer, s', first, answers, rest⟩
  · intro given
    obtain ⟨answer, s', first, answers, rest⟩ := given
    exact ⟨answer :: answers, run_cons.2 ⟨answer, s', answers, first, rest, rfl⟩⟩

theorem reaches_append {s s'' : State} {ops ops' : List Op} :
    Reaches step s (ops ++ ops') s'' ↔ ∃ s', Reaches step s ops s' ∧ Reaches step s' ops' s'' := by
  unfold Reaches
  constructor
  · intro given
    obtain ⟨all, h⟩ := given
    obtain ⟨answers, s', answers', before, behind, -⟩ := run_append.1 h
    exact ⟨s', ⟨answers, before⟩, answers', behind⟩
  · intro given
    obtain ⟨s', ⟨answers, before⟩, answers', behind⟩ := given
    exact ⟨answers ++ answers', run_append.2 ⟨answers, s', answers', before, behind, rfl⟩⟩

/-- A step that faults ends the run. -/
theorem run_fault {s s' : State} {pre post : List Op} {op : Op} {fault : Fault} (reaches : Reaches step s pre s')
    (faults : step s' op = .error fault) : run step (pre ++ op :: post) s = .error fault := by
  induction pre generalizing s with
  | nil =>
    rw [reaches_nil.1 reaches, List.nil_append, run, faults]
  | cons first pre ih =>
    obtain ⟨answer, s₁, next, rest⟩ := reaches_cons.1 reaches
    rw [List.cons_append, run, next]
    simp only [ih rest]

theorem along_append {cond : State → Op → Prop} {s : State} {ops ops' : List Op} :
    Along step cond (ops ++ ops') s ↔
      Along step cond ops s ∧ ∀ s', Reaches step s ops s' → Along step cond ops' s' := by
  induction ops generalizing s with
  | nil => simp [Along, reaches_nil]
  | cons op ops ih =>
    simp only [List.cons_append, Along, ih]
    constructor
    · intro given
      obtain ⟨here, later⟩ := given
      refine ⟨⟨here, fun answer s₁ next => (later answer s₁ next).1⟩, ?_⟩
      intro s' reaches
      obtain ⟨answer, s₁, next, rest⟩ := reaches_cons.1 reaches
      exact (later answer s₁ next).2 s' rest
    · intro given
      obtain ⟨⟨here, later⟩, behind⟩ := given
      refine ⟨here, fun answer s₁ next => ⟨later answer s₁ next, ?_⟩⟩
      intro s' rest
      exact behind s' (reaches_cons.2 ⟨answer, s₁, next, rest⟩)

theorem Along.front {cond : State → Op → Prop} {s : State} {ops ops' : List Op}
    (along : Along step cond (ops ++ ops') s) : Along step cond ops s :=
  (along_append.1 along).1

theorem along_singleton {cond : State → Op → Prop} {s : State} {op : Op} :
    Along step cond [op] s ↔ cond s op := by
  simp [Along]

theorem along_cons_ok {cond : State → Op → Prop} {s s' : State} {op : Op} {ops : List Op} {answer : Answer}
    (next : step s op = .ok (answer, s')) : cond s op ∧ Along step cond ops s' ↔ Along step cond (op :: ops) s := by
  simp [Along, next]

theorem along_cons_error {cond : State → Op → Prop} {s : State} {op : Op} {ops : List Op} {fault : Fault}
    (faults : step s op = .error fault) : cond s op ↔ Along step cond (op :: ops) s := by
  simp [Along, faults]

instance decidableAlong {cond : State → Op → Prop} [∀ s op, Decidable (cond s op)] :
    (ops : List Op) → (s : State) → Decidable (Along step cond ops s)
  | [], _ => .isTrue trivial
  | op :: ops, s =>
    match next : step s op with
    | .error _ => decidable_of_iff (cond s op) (along_cons_error next)
    | .ok (_, s') =>
      have : Decidable (Along step cond ops s') := decidableAlong ops s'
      decidable_of_iff (cond s op ∧ Along step cond ops s') (along_cons_ok next)

/-- Every operation meets the condition, wherever the run is cut in front of it. -/
theorem along_iff {cond : State → Op → Prop} {s : State} {ops : List Op} :
    Along step cond ops s ↔
      ∀ pre op post s', ops = pre ++ op :: post → Reaches step s pre s' → cond s' op := by
  induction ops generalizing s with
  | nil => simp [Along]
  | cons first ops ih =>
    constructor
    · rintro ⟨here, later⟩ pre op post s' split reaches
      cases pre with
      | nil =>
        obtain ⟨rfl, -⟩ : first = op ∧ ops = post := by simpa using split
        exact reaches_nil.1 reaches ▸ here
      | cons op' pre =>
        obtain ⟨rfl, rfl⟩ : first = op' ∧ ops = pre ++ op :: post := by simpa using split
        obtain ⟨answer, s₁, next, rest⟩ := reaches_cons.1 reaches
        exact ih.1 (later answer s₁ next) pre op post s' rfl rest
    · intro all
      refine ⟨all [] first ops s rfl (reaches_nil.2 rfl), fun answer s₁ next => ih.2 ?_⟩
      intro pre op post s' split reaches
      exact all (first :: pre) op post s' (by simp [split]) (reaches_cons.2 ⟨answer, s₁, next, reaches⟩)

/-- A property of the operations alone can be added to the condition. -/
theorem Along.and {cond : State → Op → Prop} {valid : Op → Prop} {s : State} {ops : List Op}
    (all : ∀ op ∈ ops, valid op) (along : Along step cond ops s) :
    Along step (fun s op => valid op ∧ cond s op) ops s := by
  induction ops generalizing s with
  | nil => trivial
  | cons op ops ih =>
    obtain ⟨first, rest⟩ := List.forall_mem_cons.1 all
    exact ⟨⟨first, along.1⟩, fun answer s' next => ih rest (along.2 answer s' next)⟩

theorem along_and {cond cond' : State → Op → Prop} {s : State} {ops : List Op} :
    Along step (fun s op => cond s op ∧ cond' s op) ops s ↔ Along step cond ops s ∧ Along step cond' ops s := by
  induction ops generalizing s with
  | nil => simp [Along]
  | cons op ops ih =>
    simp only [Along, ih]
    constructor
    · rintro ⟨⟨here, here'⟩, later⟩
      exact ⟨⟨here, fun answer s₁ next => (later answer s₁ next).1⟩, here', fun answer s₁ next => (later answer s₁ next).2⟩
    · rintro ⟨⟨here, later⟩, here', later'⟩
      exact ⟨⟨here, here'⟩, fun answer s₁ next => ⟨later answer s₁ next, later' answer s₁ next⟩⟩

theorem Along.mono {cond cond' : State → Op → Prop} {s : State} {ops : List Op} (along : Along step cond ops s)
    (weaker : ∀ s op, cond s op → cond' s op) : Along step cond' ops s := by
  induction ops generalizing s with
  | nil => trivial
  | cons op ops ih => exact ⟨weaker s op along.1, fun answer s' next => ih (along.2 answer s' next)⟩

/-- A condition that always holds, holds along every run. -/
theorem Along.of_forall {cond : State → Op → Prop} (always : ∀ s op, cond s op) (ops : List Op) (s : State) :
    Along step cond ops s := by
  induction ops generalizing s with
  | nil => trivial
  | cons op ops ih => exact ⟨always s op, fun _ _ _ => ih _⟩

/-- Runs are deterministic. -/
theorem Reaches.unique {s s' s'' : State} {ops : List Op} (first : Reaches step s ops s')
    (second : Reaches step s ops s'') : s' = s'' := by
  obtain ⟨_, h⟩ := first
  obtain ⟨_, h'⟩ := second
  rw [h] at h'
  cases h'
  rfl

/-- The last operation meets the condition in the state that those before it reach. -/
theorem along_snoc {cond : State → Op → Prop} {s s' : State} {ops : List Op} {op : Op}
    (reaches : Reaches step s ops s') : Along step cond (ops ++ [op]) s ↔ Along step cond ops s ∧ cond s' op := by
  rw [along_append]
  constructor
  · intro given
    exact ⟨given.1, along_singleton.1 (given.2 s' reaches)⟩
  · intro given
    refine ⟨given.1, fun s'' reaches' => along_singleton.2 ?_⟩
    rw [reaches'.unique reaches]
    exact given.2

/-- A condition holds along a run if it holds wherever it held along the front. -/
theorem along_of_front {cond : State → Op → Prop} {s : State} {ops : List Op}
    (here : ∀ pre op post s', ops = pre ++ op :: post → Along step cond pre s → Reaches step s pre s' → cond s' op) :
    Along step cond ops s := by
  induction ops using List.reverseRecOn with
  | nil => trivial
  | append_singleton ops op ih =>
    have front : Along step cond ops s := by
      apply ih
      intro pre op' post s' split
      exact here pre op' (post ++ [op]) s' (by simp [split])
    rw [along_append]
    exact ⟨front, fun s' reaches => along_singleton.2 (here ops op [] s' rfl front reaches)⟩

section Invariant

variable (inv : State → Prop) {cond : State → Op → Prop}

/-- An invariant that steps keep under the condition holds at the end of a run that meets it. -/
theorem keeps_along
    (keeps : ∀ s op, inv s → cond s op → ∃ answer s', step s op = .ok (answer, s') ∧ inv s')
    {s : State} {ops : List Op} (start : inv s) (along : Along step cond ops s) :
    ∃ s', Reaches step s ops s' ∧ inv s' := by
  induction ops generalizing s with
  | nil => exact ⟨s, reaches_nil.2 rfl, start⟩
  | cons op ops ih =>
    obtain ⟨answer, s₁, first, kept⟩ := keeps s op start along.1
    obtain ⟨s', rest, last⟩ := ih kept (along.2 answer s₁ first)
    exact ⟨s', reaches_cons.2 ⟨answer, s₁, first, rest⟩, last⟩

/-- An invariant of all steps holds at the end of every run. -/
theorem invariant_of_reaches
    (keeps : ∀ s op answer s', inv s → step s op = .ok (answer, s') → inv s')
    {s s' : State} {ops : List Op} (start : inv s) (reaches : Reaches step s ops s') : inv s' := by
  induction ops generalizing s with
  | nil => exact reaches_nil.1 reaches ▸ start
  | cons op ops ih =>
    obtain ⟨answer, s₁, first, rest⟩ := reaches_cons.1 reaches
    exact ih (keeps s op answer s₁ start first) rest

/-- An invariant of the steps that meet the condition holds at the end of every run that meets it. -/
theorem invariant_of_along
    (keeps : ∀ s op answer s', inv s → cond s op → step s op = .ok (answer, s') → inv s')
    {s s' : State} {ops : List Op} (start : inv s) (along : Along step cond ops s) (reaches : Reaches step s ops s') :
    inv s' := by
  induction ops generalizing s with
  | nil => exact reaches_nil.1 reaches ▸ start
  | cons op ops ih =>
    obtain ⟨answer, s₁, first, rest⟩ := reaches_cons.1 reaches
    exact ih (keeps s op answer s₁ start along.1 first) (along.2 answer s₁ first) rest

/-- What an invariant says of single answers holds of every answer of a run. -/
theorem answers_of_along (good : Answer → Prop)
    (keeps : ∀ s op answer s', inv s → cond s op → step s op = .ok (answer, s') → inv s' ∧ good answer)
    {s s' : State} {ops : List Op} {answers : List Answer} (start : inv s) (along : Along step cond ops s)
    (ran : run step ops s = .ok (answers, s')) : ∀ answer ∈ answers, good answer := by
  induction ops generalizing s answers with
  | nil =>
    cases ran
    simp
  | cons op ops ih =>
    obtain ⟨answer, s₁, answers, first, rest, rfl⟩ := run_cons.1 ran
    obtain ⟨kept, here⟩ := keeps s op answer s₁ start along.1 first
    rw [List.forall_mem_cons]
    exact ⟨here, ih kept (along.2 answer s₁ first) rest⟩

/-- A run that leaves what steps only leave with a certain answer, gives this answer. -/
theorem answer_of_leaving (hit : Answer → Prop)
    (keeps : ∀ s op answer s', inv s → cond s op → step s op = .ok (answer, s') → inv s' ∨ hit answer)
    {s s' : State} {ops : List Op} {answers : List Answer} (start : inv s) (along : Along step cond ops s)
    (ran : run step ops s = .ok (answers, s')) (left : ¬ inv s') : ∃ answer ∈ answers, hit answer := by
  induction ops generalizing s answers with
  | nil =>
    cases ran
    exact absurd start left
  | cons op ops ih =>
    obtain ⟨answer, s₁, answers, first, rest, rfl⟩ := run_cons.1 ran
    rcases keeps s op answer s₁ start along.1 first with kept | here
    · obtain ⟨later, member, given⟩ := ih kept (along.2 answer s₁ first) rest
      exact ⟨later, List.mem_cons_of_mem _ member, given⟩
    · exact ⟨answer, List.mem_cons_self, here⟩

/-- An invariant of states and of the operations that led to them. -/
theorem history_of_reaches (past : List Op → State → Prop) {s₀ : State} (start : past [] s₀)
    (keeps : ∀ ops s op answer s', Reaches step s₀ ops s → past ops s → step s op = .ok (answer, s') →
      past (ops ++ [op]) s')
    {s : State} {ops : List Op} (reaches : Reaches step s₀ ops s) : past ops s := by
  induction ops using List.reverseRecOn generalizing s with
  | nil => exact reaches_nil.1 reaches ▸ start
  | append_singleton ops op ih =>
    obtain ⟨s₁, before, last⟩ := reaches_append.1 reaches
    obtain ⟨answer, s', next, rest⟩ := reaches_cons.1 last
    obtain rfl := reaches_nil.1 rest
    exact keeps ops s₁ op answer s' before (ih before) next

/-- The same with the answers that were given. -/
theorem history_of_run (past : List Op → List Answer → State → Prop) {s₀ : State} (start : past [] [] s₀)
    (keeps : ∀ ops answers s op answer s', run step ops s₀ = .ok (answers, s) → past ops answers s →
      step s op = .ok (answer, s') → past (ops ++ [op]) (answers ++ [answer]) s')
    {s : State} {ops : List Op} {answers : List Answer} (ran : run step ops s₀ = .ok (answers, s)) : past ops answers s := by
  induction ops using List.reverseRecOn generalizing s answers with
  | nil =>
    cases ran
    exact start
  | append_singleton ops op ih =>
    obtain ⟨answers, s₁, answer, before, next, rfl⟩ := run_snoc.1 ran
    exact keeps ops answers s₁ op answer s before (ih before) next

/-- The fault of a run that meets the condition is the fault of a step that meets it. -/
theorem fault_of_along (keeps : ∀ s op answer s', inv s → cond s op → step s op = .ok (answer, s') → inv s')
    {s : State} {ops : List Op} {fault : Fault} (start : inv s) (along : Along step cond ops s)
    (faults : run step ops s = .error fault) : ∃ s' op, inv s' ∧ cond s' op ∧ step s' op = .error fault := by
  induction ops generalizing s with
  | nil => cases faults
  | cons op ops ih =>
    rw [run] at faults
    cases first : step s op with
    | error fault' =>
      simp only [first, Except.error.injEq] at faults
      exact ⟨s, op, start, along.1, by rw [first, faults]⟩
    | ok r =>
      obtain ⟨answer, s₁⟩ := r
      apply ih (keeps s op answer s₁ start along.1 first) (along.2 answer s₁ first)
      cases rest : run step ops s₁ with
      | error fault' => simpa only [first, rest] using faults
      | ok r' => simp [first, rest] at faults

/-- Where the condition decides single steps, it decides runs. -/
theorem completes_iff
    (keeps : ∀ s op answer s', inv s → step s op = .ok (answer, s') → inv s')
    (decides : ∀ s op, inv s → ((∃ answer s', step s op = .ok (answer, s')) ↔ cond s op))
    {s : State} {ops : List Op} (start : inv s) :
    (∃ s', Reaches step s ops s') ↔ Along step cond ops s := by
  induction ops generalizing s with
  | nil => simp [reaches_nil, Along]
  | cons op ops ih =>
    constructor
    · intro given
      obtain ⟨s', reaches⟩ := given
      obtain ⟨answer, s₁, first, rest⟩ := reaches_cons.1 reaches
      refine ⟨(decides s op start).1 ⟨answer, s₁, first⟩, fun answer' s₂ first' => ?_⟩
      rw [first] at first'
      cases first'
      exact (ih (keeps s op answer s₁ start first)).1 ⟨s', rest⟩
    · intro along
      obtain ⟨answer, s₁, first⟩ := (decides s op start).2 along.1
      obtain ⟨s', rest⟩ := (ih (keeps s op answer s₁ start first)).2 (along.2 answer s₁ first)
      exact ⟨s', reaches_cons.2 ⟨answer, s₁, first, rest⟩⟩

end Invariant

end Runs
