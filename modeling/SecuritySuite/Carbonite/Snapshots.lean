import SecuritySuite.Carbonite.Monitoring

/-!
# Snapshots of a detected change

`carbonite` leaves an incident out when the call before it came from the notifier, however long ago
that was. So a change of the system call table is followed by a snapshot up to the dispatch of the
incident, unless the last call before the change came from the notifier and no call comes in
between.
-/

namespace Carbonite
set_option autoImplicit false
open Runs

variable {around : Surroundings}

def lastReason (around : Surroundings) (events : List Event) : Option Int :=
  (events.filterMap (Event.reason around)).getLast?

/-- One of the answers is a full snapshot, and it is in the list. -/
def Snapshotted (answers : List (Option Outcome)) (dumps : DumpList) : Prop :=
  ∃ processes, some (.dumped processes []) ∈ answers ∧ records processes <:+: dumps

/-- What a run does that leaves the handler in place. -/
structure Watched (around : Surroundings) (events : List Event) (answers : List (Option Outcome))
    (s s' : System) : Prop where
  monitoring : Monitoring s'
  set : s.checker.incidentHandler.isSome
  previous : s'.kept.previousReason = (lastReason around events).getD s.kept.previousReason
  grows : s.dumps <+: s'.dumps
  silent : (∀ event ∈ events, event.reason around = none) → ∀ answer ∈ answers, answer = none
  snapshot : (∃ event ∈ events, event.reason around ≠ none) → Snapshotted answers s'.dumps

theorem lastReason_append {events events' : List Event} :
    lastReason around (events ++ events') = (lastReason around events').or (lastReason around events) := by
  rw [lastReason, List.filterMap_append, List.getLast?_append]
  rfl

theorem Watched.append {events events' : List Event} {answers answers' : List (Option Outcome)} {s s' s'' : System}
    (before : Watched around events answers s s') (behind : Watched around events' answers' s' s'') :
    Watched around (events ++ events') (answers ++ answers') s s'' where
  monitoring := behind.monitoring
  set := before.set
  previous := by
    rw [behind.previous, before.previous, lastReason_append]
    cases lastReason around events' <;> rfl
  grows := before.grows.trans behind.grows
  silent := by
    intro silent answer member
    rcases List.mem_append.1 member with first | second
    · exact before.silent (fun event m => silent event (List.mem_append_left _ m)) answer first
    · exact behind.silent (fun event m => silent event (List.mem_append_right _ m)) answer second
  snapshot := by
    intro given
    obtain ⟨event, member, calls⟩ := given
    rcases List.mem_append.1 member with first | second
    · obtain ⟨processes, answered, inside⟩ := before.snapshot ⟨event, first, calls⟩
      exact ⟨processes, List.mem_append_left _ answered, inside.trans behind.grows.isInfix⟩
    · obtain ⟨processes, answered, inside⟩ := behind.snapshot ⟨event, second, calls⟩
      exact ⟨processes, List.mem_append_right _ answered, inside⟩

theorem Effect.watched {s s' : System} {event : Event} {answer : Option Outcome}
    (effect : Effect around s event answer s') (monitoring : Monitoring s)
    (set : s'.checker.incidentHandler.isSome) : Watched around [event] [answer] s s' := by
  have after := effect.monitoring monitoring
  cases effect with
  | quiet _ pending memory silent =>
    refine ⟨after, set, ?_, List.prefix_rfl, fun _ => by simp, fun calls => ?_⟩
    · simp [lastReason, silent]
    · simp [silent] at calls
  | called _ why processes reason =>
    obtain ⟨dumps, is⟩ := Option.isSome_iff_exists.1 monitoring.list
    have incident : why ≠ afterIncident := by
      rintro rfl
      exact Event.reason_ne reason
    have kept : s.kept = ⟨s.kept.previousReason, some dumps⟩ := by rw [← is]
    have outcome := perform_dumps why s.kept.previousReason processes dumps fun both => incident both.2
    rw [← kept] at outcome
    refine ⟨after, set, ?_, ?_, fun silent => ?_, fun _ => ⟨processes, ?_, ?_⟩⟩
    · simp [lastReason, reason, outcome]
    · simp [System.dumps, is, outcome]
    · simp [reason] at silent
    · simp [outcome]
    · simpa [System.dumps, outcome] using (List.suffix_append dumps (records processes)).isInfix
  | alarm processes pending alarms => simp at set

theorem Monitoring.watched {events : List Event} {answers : List (Option Outcome)} {s s' : System}
    (monitoring : Monitoring s) (ran : run (System.step around) events s = .ok (answers, s'))
    (set : s'.checker.incidentHandler.isSome) : Watched around events answers s s' := by
  induction events generalizing s answers with
  | nil =>
    cases ran
    exact ⟨monitoring, set, rfl, List.prefix_rfl, fun _ => by simp, fun calls => by simp at calls⟩
  | cons event events ih =>
    obtain ⟨answer, s₁, answers', first, rest, rfl⟩ := run_cons.1 ran
    have effect := monitoring.effect first
    have behind := ih (effect.monitoring monitoring) rest
    exact (effect.watched monitoring behind.set).append behind

/-! ## The dispatch of an incident -/

theorem Monitoring.kept {s : System} (monitoring : Monitoring s) : s.kept = ⟨s.kept.previousReason, some s.dumps⟩ := by
  obtain ⟨dumps, list⟩ := Option.isSome_iff_exists.1 monitoring.list
  rw [System.dumps, list, Option.getD_some, ← list]

/-- The first tick that finds the table modified calls `carbonite`, which leaves the incident out right after
a call by the notifier and dumps every process otherwise. -/
theorem Monitoring.dispatch {s s' : System} {processes : List Task} {answer : Option Outcome}
    (monitoring : Monitoring s) (alarms : s.checker.Alarms) (set : s.checker.incidentHandler.isSome)
    (ok : s.step around (.checker .tick processes) = .ok (answer, s')) :
    (s.kept.previousReason = afterModuleInit ∧ answer = some .suppressed ∧ s'.dumps = s.dumps) ∨
    (s.kept.previousReason ≠ afterModuleInit ∧ answer = some (.dumped processes []) ∧
      s'.dumps = s.dumps ++ records processes) := by
  have handler : s.checker.incidentHandler = some carbonite := by
    rcases monitoring.handler with unset | handler
    · simp [unset] at set
    · exact handler
  rw [System.step, step_tick_alarm alarms, handler] at ok
  by_cases previous : s.kept.previousReason = afterModuleInit
  · left
    have outcome := perform_suppressed processes s.dumps
    rw [← previous, ← monitoring.kept] at outcome
    cases ok
    exact ⟨previous, by simp [outcome], by simp [System.dumps, outcome]⟩
  · right
    have outcome := perform_dumps afterIncident _ processes s.dumps fun both => previous both.1
    rw [← monitoring.kept] at outcome
    cases ok
    exact ⟨previous, by simp [outcome], by simp [System.dumps, outcome]⟩

theorem lastReason_silent {events : List Event} (silent : ∀ event ∈ events, event.reason around = none) :
    lastReason around events = none := by
  rw [lastReason, List.filterMap_eq_nil_iff.2 silent]
  rfl

/-- The event leaves the table as it is. -/
def KeepsTable (around : Surroundings) (s : System) (event : Event) : Prop :=
  ∀ answer s', s.step around event = .ok (answer, s') → s'.checker.tableBytes = s.checker.tableBytes

instance (s : System) (event : Event) : Decidable (KeepsTable around s event) :=
  match outcome : s.step around event with
  | .error _ => .isTrue fun answer s' ok => by simp [outcome] at ok
  | .ok r => decidable_of_iff (r.2.checker.tableBytes = s.checker.tableBytes) <| by
    constructor
    · intro same answer s' ok
      rw [outcome] at ok
      cases ok
      exact same
    · intro keeps
      exact keeps r.1 r.2 outcome

/-- A run after the initialization in which a tick is about to dispatch an incident: the table keeps its
bytes through `before`, is changed by a write for the first time, and is found modified behind
`between`. -/
structure Detection (around : Surroundings) (memory : UInt64 → UInt8) (s : System) (before : List Event)
    (unchanged : System) (change : Event) (between : List Event) (found : System) : Prop where
  initialized : Initialized around memory s
  untouched : Along (System.step around) (KeepsTable around) before s
  reaches : Reaches (System.step around) s before unchanged
  isWrite : ∃ address stored processes, change = .checker (.write address stored) processes
  changes : ¬ KeepsTable around unchanged change
  later : Reaches (System.step around) unchanged (change :: between) found
  alarms : found.checker.Alarms
  set : found.checker.incidentHandler.isSome

theorem Detection.silent {memory : UInt64 → UInt8} {s unchanged found : System} {before between : List Event}
    {change : Event} (detection : Detection around memory s before unchanged change between found) :
    change.reason around = none := by
  obtain ⟨address, stored, processes, rfl⟩ := detection.isWrite
  rfl

/-- The run up to the tick is watched, and the reason that the change finds is the one of the last
event. -/
theorem Detection.spec {memory : UInt64 → UInt8} {s unchanged found : System} {before between : List Event}
    {change : Event} (detection : Detection around memory s before unchanged change between found) :
    ∃ answers, run (System.step around) (change :: between) unchanged = .ok (answers, found) ∧
      Watched around (change :: between) answers unchanged found ∧
      (unchanged.kept.previousReason = afterModuleInit ↔ lastReason around before = some afterModuleInit) := by
  obtain ⟨monitoring, unsuppressed⟩ := detection.initialized.spec
  obtain ⟨answersBefore, ranBefore⟩ := detection.reaches
  obtain ⟨answers, ranSince⟩ := detection.later
  have since := (monitoring.reaches detection.reaches).watched ranSince detection.set
  have upTo := monitoring.watched ranBefore since.set
  refine ⟨answers, ranSince, since, ?_⟩
  rw [upTo.previous]
  cases lastReason around before with
  | none => simpa using unsuppressed
  | some why => simp

/-- **A detected change has a snapshot that is not older than it**, in the list when the dispatch of the
incident returns, exactly when not both the last call of `carbonite` before the change came from the
notifier and no call came between the change and the tick. -/
theorem snapshot_since_change_iff {around : Surroundings} {memory : UInt64 → UInt8} {s unchanged found last : System}
    {before between : List Event} {change : Event} {processes : List Task} {answers : List (Option Outcome)}
    (detection : Detection around memory s before unchanged change between found)
    (dispatched : run (System.step around) (change :: between ++ [.checker .tick processes]) unchanged =
      .ok (answers, last)) :
    Snapshotted answers last.dumps ↔
      ¬ (lastReason around before = some afterModuleInit ∧ ∀ event ∈ between, event.reason around = none) := by
  obtain ⟨answersSince, ranSince, since, reason⟩ := detection.spec
  obtain ⟨_, _, answersTick, ran, ticked, rfl⟩ := run_append.1 dispatched
  rw [ranSince] at ran
  cases ran
  obtain ⟨answer, s', rest, tick, done, rfl⟩ := run_cons.1 ticked
  cases done
  have outcome := since.monitoring.dispatch detection.alarms detection.set tick
  by_cases calls : ∃ event ∈ between, event.reason around ≠ none
  · -- A call after the change has dumped every process already.
    obtain ⟨event, member, calls⟩ := calls
    obtain ⟨walked, answered, inside⟩ := since.snapshot ⟨event, List.mem_cons_of_mem _ member, calls⟩
    have grows : found.dumps <+: last.dumps := by
      rcases outcome with ⟨-, -, same⟩ | ⟨-, -, more⟩
      · exact same ▸ List.prefix_rfl
      · exact more ▸ List.prefix_append _ _
    constructor
    · rintro - ⟨-, silent⟩
      exact calls (silent event member)
    · intro _
      exact ⟨walked, List.mem_append_left _ answered, inside.trans grows.isInfix⟩
  · -- The tick finds the reason that the change found.
    have silent : ∀ event ∈ change :: between, event.reason around = none := by
      intro event member
      rcases List.mem_cons.1 member with rfl | member
      · exact detection.silent
      · by_contra call
        exact calls ⟨event, member, call⟩
    have previous : found.kept.previousReason = unchanged.kept.previousReason := by
      rw [since.previous, lastReason_silent silent, Option.getD_none]
    rw [← previous] at reason
    rcases outcome with ⟨module, rfl, same⟩ | ⟨other, rfl, more⟩
    · constructor
      · intro given
        obtain ⟨walked, answered, -⟩ := given
        rcases List.mem_append.1 answered with early | tick
        · simpa using since.silent silent _ early
        · simp at tick
      · intro allowed
        exact absurd ⟨reason.1 module, fun event member => silent event (List.mem_cons_of_mem _ member)⟩ allowed
    · constructor
      · rintro - ⟨module, -⟩
        exact other (reason.2 module)
      · intro _
        refine ⟨processes, by simp, ?_⟩
        rw [more]
        exact (List.suffix_append _ _).isInfix

def smallSurroundings : Surroundings := ⟨1000, smallKernel, 1⟩

/-- The twelve statements in front of the last one. -/
def bootEvents : List Event := List.replicate 12 (.checker .init [])

def started : System :=
  final (System.step smallSurroundings) (bootEvents ++ [.checker .init []]) (System.load fun _ => 0)

/-- A pointer in the table is redirected. -/
def redirect : Event := .checker (.write 4096 [1]) []

theorem started_initialized : Initialized smallSurroundings (fun _ => 0) started where
  returns := ⟨bootEvents, [], final (System.step smallSurroundings) bootEvents (System.load fun _ => 0),
    ⟨_, rfl⟩, by decide +kernel, ⟨_, rfl⟩⟩
  unmodified := by decide +kernel

/-- A module has been announced. -/
def announced : Event := .checker (.moduleEvent ⟨2, .live⟩) []

/-- A user asks for a snapshot. -/
def demand : Event := .ioctl ioctlCarboniteCommand true [⟨1, 0, 0, 1, CString.bytes "init", 0, 0⟩]

/-- The last call in front of the change came from the notifier, and a call comes behind it: the incident is dumped. -/
theorem snapshot_since_redirect :
    ∃ unchanged found answers last,
      Detection smallSurroundings (fun _ => 0) started [announced] unchanged redirect [demand] found ∧
      run (System.step smallSurroundings)
        [redirect, demand, .checker .tick [⟨1, 0, 0, 1, CString.bytes "init", 0, 0⟩, ⟨2, 0, 0, 1, CString.bytes "sh", 0, 0⟩]] unchanged =
          .ok (answers, last) ∧
      last.dumps.length = 3 ∧ Snapshotted answers last.dumps := by
  have detection : Detection smallSurroundings (fun _ => 0) started [announced]
      (final (System.step smallSurroundings) [announced] started) redirect [demand]
      (final (System.step smallSurroundings) [announced, redirect, demand] started) :=
    { initialized := started_initialized
      untouched := ⟨by decide +kernel, fun _ _ _ => trivial⟩
      reaches := ⟨_, rfl⟩
      isWrite := ⟨4096, [1], [], rfl⟩
      changes := by decide +kernel
      later := ⟨_, rfl⟩
      alarms := by decide +kernel
      set := by decide +kernel }
  refine ⟨_, _, _, _, detection, rfl, by decide +kernel, (snapshot_since_change_iff detection rfl).2 ?_⟩
  intro silent
  have called : demand.reason smallSurroundings ≠ none := by decide +kernel
  exact called (silent.2 demand List.mem_cons_self)

/-- A module is loaded, and long after that the table is changed by other means. -/
theorem snapshot_since_change_fails :
    ¬ ∀ (around : Surroundings) memory s before unchanged change between found processes answers last,
      Detection around memory s before unchanged change between found →
      run (System.step around) (change :: between ++ [.checker .tick processes]) unchanged = .ok (answers, last) →
      Snapshotted answers last.dumps := by
  intro claim
  have detection : Detection smallSurroundings (fun _ => 0) started [.checker (.moduleEvent ⟨2, .live⟩) []]
      (final (System.step smallSurroundings) [.checker (.moduleEvent ⟨2, .live⟩) []] started) redirect []
      (final (System.step smallSurroundings) [.checker (.moduleEvent ⟨2, .live⟩) [], redirect] started) :=
    { initialized := started_initialized
      untouched := ⟨by decide +kernel, fun _ _ _ => trivial⟩
      reaches := ⟨_, rfl⟩
      isWrite := ⟨4096, [1], [], rfl⟩
      changes := by decide +kernel
      later := ⟨_, rfl⟩
      alarms := by decide +kernel
      set := by decide +kernel }
  obtain ⟨walked, answered, -⟩ := claim _ _ _ _ _ _ _ _ [] [none, some .suppressed] _ detection rfl
  simp at answered

end Carbonite
