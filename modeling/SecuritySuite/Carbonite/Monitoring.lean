import SecuritySuite.Carbonite.Dispatch

/-!
# The system while the table is monitored

Once the initialization has returned, an event has one of three effects: it calls nothing, the notifier
or the command calls `carbonite`, or a tick finds the table modified (`Effect`). However the
initialization is interleaved with ticks, notifications and commands, it ends in such a state, and
no call of `carbonite` has come from the notifier until then.
-/

namespace Carbonite
set_option autoImplicit false
open Runs

variable {around : Surroundings}

/-- The reason for which an event calls `carbonite` once the notifier is registered, incidents
apart. -/
def Event.reason (around : Surroundings) : Event → Option Int
  | .ioctl ioctlNum capable _ => if ioctlNum = ioctlCarboniteCommand ∧ capable then some onDemand else none
  | .checker (.moduleEvent newModule) _ =>
    if newModule.state = .live ∧ newModule.address ≠ around.thisModule then some afterModuleInit else none
  | .checker _ _ => none

def System.dumps (s : System) : DumpList := s.kept.dumpList.getD []

/-- Between the initialization and the removal of the module. -/
structure Monitoring (s : System) : Prop where
  returned : s.checker.next = .returned 1
  registered : s.checker.notifierRegistered
  handler : s.checker.incidentHandler = none ∨ s.checker.incidentHandler = some carbonite
  command : s.command = some carbonite
  list : s.kept.dumpList.isSome

/-- What an event can do while the table is monitored. -/
inductive Effect (around : Surroundings) (s : System) : Event → Option Outcome → System → Prop where
  /-- Nothing is called. The timer and the memory may change. -/
  | quiet (event : Event) (pending : Bool) (memory : UInt64 → UInt8) (silent : event.reason around = none) :
      Effect around s event none
        { s with checker := { s.checker with timerPending := pending, memory := memory } }
  /-- The notifier or the command calls. -/
  | called (event : Event) (why : Int) (processes : List Task) (reason : event.reason around = some why) :
      Effect around s event (perform (some (carbonite, why)) processes s.kept).1
        { s with kept := (perform (some (carbonite, why)) processes s.kept).2 }
  /-- A tick finds the table modified. -/
  | alarm (processes : List Task) (pending : Bool) (alarms : s.checker.Alarms) :
      Effect around s (.checker .tick processes)
        (perform (s.checker.incidentHandler.map fun handler => (handler, afterIncident)) processes s.kept).1
        { s with
          checker := { s.checker with timerPending := pending, incidentHandler := none }
          kept := (perform (s.checker.incidentHandler.map fun handler => (handler, afterIncident)) processes s.kept).2 }

theorem Event.reason_ne {event : Event} : event.reason around ≠ some afterIncident := by
  unfold Event.reason
  split
  · split <;> decide
  · split <;> decide
  · decide

theorem Monitoring.effect {s s' : System} {event : Event} {answer : Option Outcome}
    (monitoring : Monitoring s) (ok : s.step around event = .ok (answer, s')) :
    Effect around s event answer s' := by
  cases event with
  | ioctl ioctlNum capable processes =>
    have call := commandIoctl_call carbonite ioctlNum capable
    rw [← monitoring.command] at call
    rw [System.step, call] at ok
    cases ok
    by_cases commanded : ioctlNum = ioctlCarboniteCommand ∧ capable = true
    · rw [if_pos commanded]
      exact .called _ onDemand processes (if_pos commanded)
    · rw [if_neg commanded]
      exact .quiet _ s.checker.timerPending s.checker.memory (if_neg commanded)
  | checker op processes =>
    obtain ⟨call, checker, moved, rfl, rfl⟩ := System.step_checker ok
    cases step_move moved with
    | init =>
      rw [initStatement_returned monitoring.returned]
      exact .quiet _ s.checker.timerPending s.checker.memory rfl
    | calm pending calm => exact .quiet _ pending s.checker.memory rfl
    | alarm alarms => exact .alarm processes _ alarms
    | write address stored => exact .quiet _ s.checker.timerPending _ rfl
    | quiet newModule quiet =>
      have silent : ¬ (newModule.state = .live ∧ newModule.address ≠ around.thisModule) :=
        fun live => quiet ⟨monitoring.registered, live⟩
      exact .quiet _ s.checker.timerPending s.checker.memory (if_neg silent)
    | live newModule handler announces set =>
      obtain rfl : handler = carbonite := by
        rcases monitoring.handler with unset | is
        · simp [unset] at set
        · rw [is] at set
          exact (Option.some.inj set).symm
      exact .called _ afterModuleInit processes (if_pos announces.2)

theorem Effect.monitoring {s s' : System} {event : Event} {answer : Option Outcome}
    (effect : Effect around s event answer s') (monitoring : Monitoring s) : Monitoring s' := by
  obtain ⟨returned, registered, handler, command, list⟩ := monitoring
  cases effect with
  | quiet _ pending memory silent => exact ⟨returned, registered, handler, command, list⟩
  | called _ why processes reason => exact ⟨returned, registered, handler, command, perform_list list⟩
  | alarm processes pending alarms =>
    refine ⟨returned, registered, .inl rfl, command, ?_⟩
    rcases handler with unset | set
    · simpa [unset, perform] using list
    · simpa [set] using perform_list list

theorem Monitoring.reaches {events : List Event} {s s' : System} (monitoring : Monitoring s)
    (reaches : Reaches (System.step around) s events s') : Monitoring s' :=
  invariant_of_reaches _ (fun _ _ _ _ monitoring ok => (monitoring.effect ok).monitoring monitoring) monitoring reaches

/-! ## The initialization -/

/-- The statements up to `register_module_notifier`. -/
def Statement.early : List Statement :=
  [.checkName, .checkInterval, .setInterval, .registerTimer, .registerNotifier]

/-- While the initialization runs. -/
structure Booting (s : System) : Prop where
  running : ∀ ret, s.checker.next ≠ .returned ret
  unset : s.checker.incidentHandler = none
  registered : s.checker.next ∈ Statement.early ∨ s.checker.notifierRegistered
  command : s.command = some carbonite
  list : s.kept.dumpList.isSome
  unsuppressed : s.kept.previousReason ≠ afterModuleInit

theorem Booting.load (memory : UInt64 → UInt8) : Booting (System.load memory) where
  running := fun _ => by simp [System.load, firstLoad]
  unset := rfl
  registered := .inl (by simp [System.load, firstLoad, Statement.early])
  command := rfl
  list := rfl
  unsuppressed := by simp [System.load, noReason, afterModuleInit]

theorem Booting.kept {s : System} (booting : Booting s) (kept : Snapshots) (list : kept.dumpList.isSome)
    (unsuppressed : kept.previousReason ≠ afterModuleInit) : Booting { s with kept := kept } :=
  ⟨booting.running, booting.unset, booting.registered, booting.command, list, unsuppressed⟩

theorem Booting.quiet {s : System} (booting : Booting s) (pending : Bool) (memory : UInt64 → UInt8) :
    Booting { s with checker := { s.checker with timerPending := pending, memory := memory } } :=
  ⟨booting.running, booting.unset, booting.registered, booting.command, booting.list, booting.unsuppressed⟩

/-- A statement in front of the last one leaves the handler NULL and comes to the notifier in turn. -/
theorem Booting.initStatement {s : System} (booting : Booting s)
    (running : ∀ ret, (initStatement around.setup s.checker).next ≠ .returned ret) :
    Booting { s with checker := Carbonite.initStatement around.setup s.checker } := by
  refine ⟨running, ?_, ?_, booting.command, booting.list, booting.unsuppressed⟩
  · rw [initStatement_handler, if_neg, booting.unset]
    intro last
    exact running 1 (by simp [Carbonite.initStatement, last])
  · have registered := booting.registered
    cases next : s.checker.next
    case checkName | checkInterval =>
      left
      have passes := running 0
      simp only [Carbonite.initStatement, next] at passes ⊢
      split
      · simp_all
      · decide
    all_goals simp_all [Carbonite.initStatement, Statement.early]

/-- The initialization keeps `Booting` until it returns, however it is interleaved. -/
theorem Booting.step {s s' : System} {event : Event} {answer : Option Outcome} (booting : Booting s)
    (ok : s.step around event = .ok (answer, s')) : Booting s' ∨ ∃ ret, s'.checker.next = .returned ret := by
  cases event with
  | ioctl ioctlNum capable processes =>
    left
    have call := commandIoctl_call carbonite ioctlNum capable
    rw [← booting.command] at call
    rw [System.step, call] at ok
    cases ok
    split
    · apply booting.kept _ (perform_list booting.list)
      simp [perform, carbonite, onDemand, afterIncident, afterModuleInit]
    · exact booting
  | checker op processes =>
    obtain ⟨call, checker, moved, rfl, rfl⟩ := System.step_checker ok
    cases step_move moved with
    | init =>
      by_cases running : ∀ ret, (Carbonite.initStatement around.setup s.checker).next ≠ .returned ret
      · exact .inl (booting.initStatement running)
      · right
        simpa using running
    | calm pending calm => exact .inl (booting.quiet pending s.checker.memory)
    | alarm alarms =>
      rw [booting.unset]
      exact .inl ⟨booting.running, rfl, booting.registered, booting.command, booting.list, booting.unsuppressed⟩
    | write address stored => exact .inl (booting.quiet s.checker.timerPending _)
    | quiet newModule quiet => exact .inl booting
    | live newModule handler announces set =>
      rw [booting.unset] at set
      cases set

theorem System.step_returned {s s' : System} {event : Event} {answer : Option Outcome} {ret : Int}
    (ok : s.step around event = .ok (answer, s')) (returned : s.checker.next = .returned ret) :
    s'.checker.next = .returned ret := by
  cases event with
  | ioctl ioctlNum capable processes =>
    cases ok
    exact returned
  | checker op processes =>
    obtain ⟨call, checker, moved, rfl, rfl⟩ := System.step_checker ok
    exact Carbonite.step_returned moved returned

theorem booting_of_reaches {memory : UInt64 → UInt8} {boot : List Event} {s : System}
    (reaches : Reaches (System.step around) (System.load memory) boot s) :
    Booting s ∨ ∃ ret, s.checker.next = .returned ret := by
  refine invariant_of_reaches (fun s => Booting s ∨ ∃ ret, s.checker.next = .returned ret) ?_
    (.inl (Booting.load memory)) reaches
  intro s event answer s' inv ok
  rcases inv with booting | ⟨ret, returned⟩
  · exact booting.step ok
  · exact .inr ⟨ret, System.step_returned ok returned⟩

/-- The initialization has just returned 1, in any interleaving since the module was loaded, and the table
is as it was hashed. -/
structure Initialized (around : Surroundings) (memory : UInt64 → UInt8) (s : System) : Prop where
  returns : ∃ boot processes before, Reaches (System.step around) (System.load memory) boot before ∧
    before.checker.next = .setHandler ∧ Reaches (System.step around) before [.checker .init processes] s
  unmodified : ¬ s.checker.Modified

theorem Initialized.spec {memory : UInt64 → UInt8} {s : System} (initialized : Initialized around memory s) :
    Monitoring s ∧ s.kept.previousReason ≠ afterModuleInit := by
  obtain ⟨boot, processes, before, reaches, last, returns⟩ := initialized.returns
  obtain ⟨answer, s', ok, done⟩ := reaches_cons.1 returns
  obtain rfl := reaches_nil.1 done
  rcases booting_of_reaches reaches with booting | ⟨ret, returned⟩
  · cases ok
    have registered := booting.registered
    simp only [last, Statement.early, List.mem_cons, List.not_mem_nil, reduceCtorEq, or_false, false_or] at registered
    refine ⟨⟨?_, ?_, .inr ?_, booting.command, booting.list⟩, booting.unsuppressed⟩
    · simp [initStatement, last]
    · simpa [initStatement, last] using registered
    · simp [initStatement, last, Surroundings.setup]
  · simp [last] at returned

end Carbonite
