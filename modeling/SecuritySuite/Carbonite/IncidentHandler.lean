import SecuritySuite.Carbonite.IntegrityCheck

/-!
# When the incident handler can be called

The notifier is registered before the handler is stored, and it calls the handler without a test for
NULL; a tick that finds the table modified clears it for good. A run is free of calls through NULL
exactly when every live notification finds a handler that has been stored and that no tick has
used up.
-/

namespace Carbonite
set_option autoImplicit false
open Runs

variable {Handler : Type} {setup : Setup Handler}

/-- The last statement of the initialization has run, on a handler that is not NULL, and no tick since
then found the table modified. -/
def HandlerAvailable (setup : Setup Handler) (memory : UInt64 → UInt8) (ops : List Op) : Prop :=
  setup.handler.isSome ∧ ∃ before since s s', ops = before ++ .init :: since ∧
    Reaches (step setup) (firstLoad memory) before s ∧ s.next = .setHandler ∧
    Reaches (step setup) s [.init] s' ∧
    Along (step setup) (fun s op => op = .tick → ¬ s.Alarms) since s'

/-- The handler stays behind a step, except at its store and at a tick that finds a change. -/
theorem step_keeps_handler {s s' : Checker Handler} {op : Op} {call : Option (Call Handler)}
    (ok : step setup s op = .ok (call, s')) (stores : ¬ (op = .init ∧ s.next = .setHandler))
    (calm : op = .tick → ¬ s.Alarms) : s'.incidentHandler = s.incidentHandler := by
  cases step_move ok with
  | init => rw [initStatement_handler, if_neg fun next => stores ⟨rfl, next⟩]
  | calm => rfl
  | alarm alarms => exact absurd alarms (calm rfl)
  | write => rfl
  | quiet => rfl
  | live => rfl

/-- A handler that is set got there by the store of the initialization. -/
theorem HandlerAvailable.of_set {memory : UInt64 → UInt8} {ops : List Op} {s : Checker Handler}
    (reaches : Reaches (step setup) (firstLoad memory) ops s) (set : s.incidentHandler.isSome) :
    HandlerAvailable setup memory ops := by
  revert set
  refine history_of_reaches (fun ops s => s.incidentHandler.isSome → HandlerAvailable setup memory ops) ?_ ?_ reaches
  · intro set
    simp [firstLoad] at set
  · intro ops s op call s' reaches past ok set
    by_cases stores : op = .init ∧ s.next = .setHandler
    · obtain ⟨rfl, next⟩ := stores
      have given : s'.incidentHandler = setup.handler := by
        cases ok
        rw [initStatement_handler, if_pos next]
      refine ⟨given ▸ set, ops, [], s, s', rfl, reaches, next, ?_, trivial⟩
      exact reaches_cons.2 ⟨call, s', ok, reaches_nil.2 rfl⟩
    · have calm : op = .tick → ¬ s.Alarms := by
        rintro rfl alarms
        rw [step_tick_alarm alarms] at ok
        cases ok
        simp at set
      rw [step_keeps_handler ok stores calm] at set
      obtain ⟨given, before, since, s₁, s₂, rfl, first, next, store, along⟩ := past set
      refine ⟨given, before, since ++ [op], s₁, s₂, by simp, first, next, store, ?_⟩
      refine along_append.2 ⟨along, fun s₃ rest => along_singleton.2 ?_⟩
      have whole := reaches_append.2 ⟨s₁, first, reaches_append.2 ⟨s₂, store, rest⟩⟩
      obtain rfl := reaches.unique (by simpa using whole)
      exact calm

/-- After the initialization only a tick that finds a change takes the handler away. -/
theorem step_keeps_set {s : Checker Handler} {op : Op} {ret : Int}
    (start : s.next = .returned ret ∧ s.incidentHandler.isSome) (calm : op = .tick → ¬ s.Alarms) :
    ∃ call s', step setup s op = .ok (call, s') ∧ s'.next = .returned ret ∧ s'.incidentHandler.isSome := by
  obtain ⟨returned, set⟩ := start
  cases op with
  | init =>
    refine ⟨none, s, ?_, returned, set⟩
    rw [step_init, initStatement_returned returned]
  | tick =>
    obtain ⟨pending, quiet⟩ := step_tick_calm setup (calm rfl)
    exact ⟨none, _, quiet, returned, set⟩
  | write address stored => exact ⟨none, _, step_write, returned, set⟩
  | moduleEvent newModule =>
    by_cases announces : Announces setup s newModule
    · obtain ⟨handler, is⟩ := Option.isSome_iff_exists.1 set
      refine ⟨some (handler, afterModuleInit), s, ?_, returned, set⟩
      rw [step_moduleEvent_live announces, is]
    · exact ⟨none, s, step_moduleEvent_quiet announces, returned, set⟩

theorem HandlerAvailable.set {memory : UInt64 → UInt8} {ops : List Op} {s : Checker Handler}
    (available : HandlerAvailable setup memory ops) (reaches : Reaches (step setup) (firstLoad memory) ops s) :
    s.incidentHandler.isSome := by
  obtain ⟨given, before, since, s₁, s₂, rfl, first, next, store, along⟩ := available
  have stored : s₂.next = .returned 1 ∧ s₂.incidentHandler.isSome := by
    obtain ⟨call, s', ok, done⟩ := reaches_cons.1 store
    obtain rfl := reaches_nil.1 done
    cases ok
    refine ⟨by simp [initStatement, next], ?_⟩
    rwa [initStatement_handler, if_pos next]
  obtain ⟨s₃, rest, -, set⟩ := keeps_along
    (fun s => s.next = .returned 1 ∧ s.incidentHandler.isSome)
    (fun s op start calm => step_keeps_set start calm) stored along
  have whole := reaches_append.2 ⟨s₁, first, reaches_append.2 ⟨s₂, store, rest⟩⟩
  obtain rfl := reaches.unique (by simpa using whole)
  exact set

/-- A step calls through NULL when the notifier finds no handler, and in no other case. -/
theorem step_completes_iff {s : Checker Handler} {op : Op} :
    (∃ call s', step setup s op = .ok (call, s')) ↔
      ∀ newModule, op = .moduleEvent newModule → Announces setup s newModule → s.incidentHandler.isSome := by
  constructor
  · rintro ⟨call, s', ok⟩ newModule rfl announces
    rw [step_moduleEvent_live announces] at ok
    cases set : s.incidentHandler with
    | none => simp [set] at ok
    | some handler => rfl
  · intro set
    cases op with
    | init => exact ⟨none, _, step_init⟩
    | tick => exact ⟨_, _, rfl⟩
    | write address stored => exact ⟨none, _, step_write⟩
    | moduleEvent newModule =>
      by_cases announces : Announces setup s newModule
      · obtain ⟨handler, is⟩ := Option.isSome_iff_exists.1 (set newModule rfl announces)
        refine ⟨some (handler, afterModuleInit), s, ?_⟩
        rw [step_moduleEvent_live announces, is]
      · exact ⟨none, s, step_moduleEvent_quiet announces⟩

theorem run_ne_nullCall_iff {ops : List Op} {s : Checker Handler} :
    run (step setup) ops s ≠ .error .nullCall ↔ ∃ s', Reaches (step setup) s ops s' := by
  unfold Reaches
  cases outcome : run (step setup) ops s with
  | error fault => cases fault; simp
  | ok r => exact ⟨fun _ => ⟨r.2, r.1, rfl⟩, fun _ => by simp⟩

/-- **A run never calls the handler while it is NULL** exactly when every notification of another
live module, from the registration of the notifier on, finds a handler that the
initialization has stored and that no tick since then has used up. -/
theorem never_null_call_iff (setup : Setup Handler) (memory : UInt64 → UInt8) (ops : List Op) :
    run (step setup) ops (firstLoad memory) ≠ .error .nullCall ↔
      ∀ before newModule behind s, ops = before ++ .moduleEvent newModule :: behind →
        Reaches (step setup) (firstLoad memory) before s → Announces setup s newModule →
        HandlerAvailable setup memory before := by
  have decides : (∃ s, Reaches (step setup) (firstLoad memory) ops s) ↔
      Along (step setup) (fun s op => ∀ newModule, op = .moduleEvent newModule → Announces setup s newModule →
        s.incidentHandler.isSome) ops (firstLoad memory) :=
    completes_iff (fun _ => True) (fun _ _ _ _ _ _ => trivial) (fun _ _ _ => step_completes_iff) trivial
  rw [run_ne_nullCall_iff, decides, along_iff]
  constructor
  · intro along before newModule behind s split reaches announces
    apply HandlerAvailable.of_set reaches
    exact along before _ behind s split reaches newModule rfl announces
  · rintro available before op behind s split reaches newModule rfl announces
    exact (available before newModule behind s split reaches announces).set reaches

def smallSetup : Setup Unit := ⟨some (CString.bytes "the-drip-dry-carbonite"), 1000, some (), smallKernel, 1⟩

/-- A module becomes live right after `register_module_notifier`. -/
theorem never_null_call_fails :
    ¬ ∀ (setup : Setup Unit) memory ops, run (step setup) ops (firstLoad memory) ≠ .error .nullCall := by
  intro never
  apply never smallSetup (fun _ => 0) [.init, .init, .init, .init, .init, .moduleEvent ⟨2, .live⟩]
  rfl

end Carbonite
