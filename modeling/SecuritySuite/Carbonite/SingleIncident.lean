import SecuritySuite.Carbonite.IncidentHandler

/-!
# No false alarm, and at most one incident

Ticks see every partly finished initialization. Until its last statement has run there is no handler to
call; from then on the hash is that of the bytes the initialization found at the address and of the size
that a tick still uses, so a tick that finds another hash finds other bytes. The tick that calls the
handler is the last one with a handler.
-/

namespace Carbonite
set_option autoImplicit false
open Runs

variable {Handler : Type} {setup : Setup Handler}

/-- The handler is called for an incident. -/
def isIncident (call : Option (Call Handler)) : Bool :=
  match call with
  | some (_, reason) => reason == afterIncident
  | none => false

/-- The baseline of a state: the last statement that computes the hash has run in `hashed`. -/
structure Baseline (setup : Setup Handler) (memory : UInt64 → UInt8) (ops : List Op) (s hashed : Checker Handler) : Prop where
  computed : ∃ before since, ops = before ++ .init :: since ∧ Reaches (step setup) (firstLoad memory) before hashed
  statement : hashed.next = .setHash
  address : s.sysCallTableAddress = hashed.sysCallTableAddress
  size : s.sysCallTableSize = hashed.sysCallTableSize
  hash : s.sysCallTableHash = hashed.tableHash

/-- What holds of a run of the checker from module load on. -/
structure SoundAlarms (setup : Setup Handler) (memory : UInt64 → UInt8) (ops : List Op) : Prop where
  /-- At most one incident. -/
  once : ∀ calls s, run (step setup) ops (firstLoad memory) = .ok (calls, s) →
    (calls.filter isIncident).length ≤ 1
  /-- An incident is called at a tick, after the handler was stored, when the bytes differ from those
  of the baseline. -/
  modified : ∀ before op behind s call s', ops = before ++ op :: behind →
    Reaches (step setup) (firstLoad memory) before s → step setup s op = .ok (call, s') → isIncident call = true →
      op = .tick ∧ HandlerAvailable setup memory before ∧
        ∃ hashed, Baseline setup memory before s hashed ∧ s.tableBytes ≠ hashed.tableBytes
  /-- A tick leaves the timer armed. -/
  armed : ∀ before behind s call s', ops = before ++ .tick :: behind →
    Reaches (step setup) (firstLoad memory) before s → s.timerPending = true → step setup s .tick = .ok (call, s') →
      s'.timerPending = true
  /-- After an initialization that succeeds it always is. -/
  pending : ∀ before s, before <+: ops → Reaches (step setup) (firstLoad memory) before s → s.next = .returned 1 →
    s.timerPending = true

/-! ## The timer -/

/-- The statement that arms the timer has run, and no check has failed since. -/
def Statement.timed : Statement → Prop
  | .checkName | .checkInterval | .setInterval | .registerTimer => False
  | .returned ret => ret = 1
  | _ => True

/-- A timer that is armed has an interval. -/
structure Timed (setup : Setup Handler) (s : Checker Handler) : Prop where
  interval : s.timerPending = true → s.timerInterval ≠ 0
  every : s.next = .setInterval → setup.every ≠ 0
  set : s.next = .registerTimer → s.timerInterval ≠ 0
  pending : s.next.timed → s.timerPending = true

theorem Timed.firstLoad (memory : UInt64 → UInt8) : Timed setup (Carbonite.firstLoad memory) where
  interval := by simp [Carbonite.firstLoad]
  every := by simp [Carbonite.firstLoad]
  set := by simp [Carbonite.firstLoad]
  pending := False.elim

theorem Timed.init {s : Checker Handler} (timed : Timed setup s) : Timed setup (initStatement setup s) := by
  obtain ⟨interval, every, set, pending⟩ := timed
  cases next : s.next with
  | registerTimer =>
    have given := set next
    constructor <;> simp [initStatement, next, registerTimerInterrupt, given]
  | setInterval =>
    have given := every next
    constructor <;> simp [initStatement, next, given, Statement.timed]
  | checkName =>
    by_cases named : setup.moduleName.isNone = true <;>
      exact ⟨by simpa [initStatement, next] using interval, by simp [initStatement, next, named],
        by simp [initStatement, next, named], by simp [initStatement, next, named, Statement.timed]⟩
  | checkInterval =>
    by_cases given : setup.every = 0 <;>
      exact ⟨by simpa [initStatement, next] using interval, by simp [initStatement, next, given],
        by simp [initStatement, next, given], by simp [initStatement, next, given, Statement.timed]⟩
  | returned ret =>
    rw [initStatement_returned next]
    exact ⟨interval, every, set, pending⟩
  | registerNotifier | lookupTable | checkTable | lookupNext | checkNext | setSize | setHash | setName | setHandler =>
    have armed := pending (by rw [next]; trivial)
    refine ⟨?_, ?_, ?_, ?_⟩
    · simpa [initStatement, next] using interval
    · simp only [initStatement, next]
      grind
    · simp only [initStatement, next]
      grind
    · simp [initStatement, next, armed]

/-- A tick arms the timer again. -/
theorem step_tick_pending {s s' : Checker Handler} {call : Option (Call Handler)} (pending : s.timerPending = true)
    (ok : step setup s .tick = .ok (call, s')) :
    s'.timerPending = decide (s.timerInterval ≠ 0) ∧ s'.timerInterval = s.timerInterval ∧ s'.next = s.next := by
  by_cases modified : s.Modified
  · rw [step_tick_alarm ⟨pending, modified⟩] at ok
    cases ok
    exact ⟨rfl, rfl, rfl⟩
  · rw [step, if_pos pending, sysCallTableIntegrityChecker, if_neg modified, registerTimerInterrupt_fired] at ok
    cases ok
    exact ⟨rfl, rfl, rfl⟩

theorem Timed.tick {s s' : Checker Handler} {call : Option (Call Handler)} (timed : Timed setup s)
    (ok : Carbonite.step setup s .tick = .ok (call, s')) : Timed setup s' := by
  cases pending : s.timerPending with
  | true =>
    obtain ⟨armed, interval, next⟩ := step_tick_pending pending ok
    have given := timed.interval pending
    have rearmed : s'.timerPending = true := by simpa [armed] using given
    exact ⟨fun _ => interval ▸ given, next ▸ timed.every, fun _ => interval ▸ given, fun _ => rearmed⟩
  | false =>
    rw [Carbonite.step, if_neg (by simp [pending])] at ok
    cases ok
    exact timed

theorem Timed.step {s s' : Checker Handler} {op : Op} {call : Option (Call Handler)} (timed : Timed setup s)
    (ok : Carbonite.step setup s op = .ok (call, s')) : Timed setup s' := by
  cases op with
  | tick => exact timed.tick ok
  | init =>
    cases ok
    exact timed.init
  | write address stored =>
    cases ok
    exact ⟨timed.interval, timed.every, timed.set, timed.pending⟩
  | moduleEvent newModule =>
    cases step_move ok with
    | quiet => exact timed
    | live => exact timed

/-! ## The baseline -/

/-- The hash has been computed, and no check has failed since. -/
def Statement.hashed : Statement → Prop
  | .setName | .setHandler => True
  | .returned ret => ret = 1
  | _ => False

theorem Baseline.grow {memory : UInt64 → UInt8} {ops : List Op} {s s' hashed : Checker Handler}
    (baseline : Baseline setup memory ops s hashed) (op : Op) (address : s'.sysCallTableAddress = s.sysCallTableAddress)
    (size : s'.sysCallTableSize = s.sysCallTableSize) (hash : s'.sysCallTableHash = s.sysCallTableHash) :
    Baseline setup memory (ops ++ [op]) s' hashed where
  computed := by
    obtain ⟨before, since, rfl, reaches⟩ := baseline.computed
    exact ⟨before, since ++ [op], by simp, reaches⟩
  statement := baseline.statement
  address := address.trans baseline.address
  size := size.trans baseline.size
  hash := hash.trans baseline.hash

/-- From its computation on, the hash is that of the baseline, at its address and of its size. -/
theorem baseline_of_reaches {memory : UInt64 → UInt8} {ops : List Op} {s : Checker Handler}
    (reaches : Reaches (step setup) (firstLoad memory) ops s) (past : s.next.hashed) :
    ∃ hashed, Baseline setup memory ops s hashed := by
  revert past
  refine history_of_reaches (fun ops s => s.next.hashed → ∃ hashed, Baseline setup memory ops s hashed) ?_ ?_ reaches
  · exact False.elim
  intro ops s op call s' before past ok hashed
  cases step_move ok with
  | init =>
    cases next : s.next with
    | setHash =>
      refine ⟨s, ⟨ops, [], rfl, before⟩, next, ?_, ?_, ?_⟩
      all_goals simp [initStatement, next]
    | setName =>
      obtain ⟨first, baseline⟩ := past (by rw [next]; trivial)
      refine ⟨first, baseline.grow .init ?_ ?_ ?_⟩
      all_goals simp [initStatement, next]
    | setHandler =>
      obtain ⟨first, baseline⟩ := past (by rw [next]; trivial)
      refine ⟨first, baseline.grow .init ?_ ?_ ?_⟩
      all_goals simp [initStatement, next]
    | returned ret =>
      rw [initStatement_returned next] at hashed ⊢
      obtain ⟨first, baseline⟩ := past hashed
      exact ⟨first, baseline.grow .init rfl rfl rfl⟩
    | _ =>
      exfalso
      revert hashed
      simp only [initStatement, next]
      grind [Statement.hashed]
  | calm =>
    obtain ⟨first, baseline⟩ := past hashed
    exact ⟨first, baseline.grow .tick rfl rfl rfl⟩
  | alarm =>
    obtain ⟨first, baseline⟩ := past hashed
    exact ⟨first, baseline.grow .tick rfl rfl rfl⟩
  | write address stored =>
    obtain ⟨first, baseline⟩ := past hashed
    exact ⟨first, baseline.grow _ rfl rfl rfl⟩
  | quiet newModule =>
    obtain ⟨first, baseline⟩ := past hashed
    exact ⟨first, baseline.grow _ rfl rfl rfl⟩
  | live newModule =>
    obtain ⟨first, baseline⟩ := past hashed
    exact ⟨first, baseline.grow _ rfl rfl rfl⟩

/-- A tick that finds another hash than the baseline's finds other bytes. -/
theorem Baseline.differs {memory : UInt64 → UInt8} {ops : List Op} {s hashed : Checker Handler}
    (baseline : Baseline setup memory ops s hashed) (modified : s.Modified) : s.tableBytes ≠ hashed.tableBytes := by
  intro same
  apply modified
  rw [baseline.hash, Checker.tableHash, Checker.tableHash, same, baseline.address, baseline.size]

/-! ## Incidents -/

/-- What an incident tells about the step it is called in. -/
theorem incident_of_step {s s' : Checker Handler} {op : Op} {call : Option (Call Handler)}
    (ok : step setup s op = .ok (call, s')) (incident : isIncident call = true) :
    op = .tick ∧ s.Modified ∧ s.incidentHandler.isSome ∧ s'.incidentHandler = none := by
  cases step_move ok with
  | init => cases incident
  | calm => cases incident
  | alarm alarms =>
    refine ⟨rfl, alarms.2, ?_, rfl⟩
    cases set : s.incidentHandler with
    | none => simp [set, isIncident] at incident
    | some handler => rfl
  | write => cases incident
  | quiet => cases incident
  | live => cases incident

/-- There is a handler after the last statement of the initialization only. -/
theorem returned_of_set {memory : UInt64 → UInt8} {ops : List Op} {s : Checker Handler}
    (reaches : Reaches (step setup) (firstLoad memory) ops s) (set : s.incidentHandler.isSome) : s.next = .returned 1 := by
  obtain ⟨-, before, since, s₁, s₂, rfl, first, next, store, -⟩ := HandlerAvailable.of_set reaches set
  obtain ⟨call, s₃, ok, done⟩ := reaches_cons.1 store
  obtain rfl := reaches_nil.1 done
  cases ok
  have stored : (initStatement setup s₁).next = .returned 1 := by simp [initStatement, next]
  obtain ⟨s₄, first', rest⟩ := reaches_append.1 reaches
  obtain rfl := first'.unique first
  obtain ⟨call', s₅, ok', rest⟩ := reaches_cons.1 rest
  cases ok'
  exact invariant_of_reaches (fun s => s.next = .returned 1) (fun _ _ _ _ returned ok => step_returned ok returned)
    stored rest

/-- Once the handler has been called for an incident there is none, and no statement is left that would
store one. -/
theorem incidents_le {memory : UInt64 → UInt8} {ops : List Op} {s : Checker Handler} {calls : List (Option (Call Handler))}
    (result : run (step setup) ops (firstLoad memory) = .ok (calls, s)) :
    calls.filter isIncident = [] ∨
      (calls.filter isIncident).length = 1 ∧ s.incidentHandler = none ∧ s.next = .returned 1 := by
  induction ops using List.reverseRecOn generalizing s calls with
  | nil =>
    cases result
    exact .inl rfl
  | append_singleton ops op ih =>
    obtain ⟨calls', s₁, call, before, ok, rfl⟩ := run_snoc.1 result
    rw [List.filter_append]
    cases incident : isIncident call with
    | true =>
      obtain ⟨-, -, set, cleared⟩ := incident_of_step ok incident
      have returned := returned_of_set ⟨_, before⟩ set
      rcases ih before with none_yet | ⟨-, absent, -⟩
      · exact .inr ⟨by simp [none_yet, incident], cleared, step_returned ok returned⟩
      · rw [absent] at set
        cases set
    | false =>
      rcases ih before with none_yet | ⟨once, absent, returned⟩
      · exact .inl (by simp [none_yet, incident])
      · refine .inr ⟨by simp [once, incident], ?_, step_returned ok returned⟩
        cases step_move ok with
        | init => rwa [initStatement_returned returned]
        | calm => exact absent
        | alarm => rfl
        | write => exact absent
        | quiet => exact absent
        | live => exact absent

/-- **No false alarm, and at most one incident**, however the ticks fall in between the statements of the
initialization and whatever is written. -/
theorem sound_alarms (setup : Setup Handler) (memory : UInt64 → UInt8) (ops : List Op) :
    SoundAlarms setup memory ops where
  once := by
    intro calls s result
    rcases incidents_le result with nothing | ⟨once, -⟩
    · simp [nothing]
    · exact once.le
  modified := by
    intro before op behind s call s' split reaches ok incident
    obtain ⟨tick, modified, set, -⟩ := incident_of_step ok incident
    obtain ⟨hashed, baseline⟩ := baseline_of_reaches reaches (by rw [returned_of_set reaches set]; rfl)
    exact ⟨tick, .of_set reaches set, hashed, baseline, baseline.differs modified⟩
  armed := by
    intro before behind s call s' split reaches pending ok
    have timed := invariant_of_reaches (Timed setup) (fun _ _ _ _ timed ok => timed.step ok) (.firstLoad memory) reaches
    rw [(step_tick_pending pending ok).1]
    simpa using timed.interval pending
  pending := by
    intro before s front reaches returned
    have timed := invariant_of_reaches (Timed setup) (fun _ _ _ _ timed ok => timed.step ok) (.firstLoad memory) reaches
    exact timed.pending (by rw [returned]; rfl)

end Carbonite
