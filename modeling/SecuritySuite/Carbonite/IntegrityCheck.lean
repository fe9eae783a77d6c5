import SecuritySuite.Carbonite.MyKallsyms
import SecuritySuite.Carbonite.SuperFastHash
import SecuritySuite.Foundation.Runs

/-!
# `sys-call-table-integrity-check.c`

The integrity checker as a machine. Its steps are the statements of
`init_sys_call_table_integrity_checker`, timer ticks, writes to memory and module notifications.
Ticks and notifications run in between the statements, once the timer and the notifier are
registered. A step answers with the call of the incident handler it makes; a call through NULL
is a fault.
-/

namespace Carbonite
set_option autoImplicit false
open CString

def moduleNameLen : Nat := 56

/-! ## Reasons of a dispatch -/

def onDemand : Int := 0

def afterIncident : Int := 1

def afterModuleInit : Int := 2

/-- Before the first dispatch (`NONE`). -/
def noReason : Int := -1

/-! ## State -/

/-- The statements of `init_sys_call_table_integrity_checker`, in their order. -/
inductive Statement where
  | checkName
  | checkInterval
  | setInterval
  | registerTimer
  | registerNotifier
  | lookupTable
  | checkTable
  | lookupNext
  | checkNext
  | setSize
  | setHash
  | setName
  | setHandler
  | returned (ret : Int)
deriving DecidableEq, Repr

/-- The arguments of `init_sys_call_table_integrity_checker`, and its surroundings. -/
structure Setup (Handler : Type) where
  moduleName : Option (List Byte)
  every : UInt64
  handler : Option Handler
  kernel : Kernel
  /-- The address of `THIS_MODULE`. -/
  thisModule : UInt64

structure Checker (Handler : Type) where
  /-- Where the initialization stands. -/
  next : Statement
  /-- The local variable of the initialization. -/
  nextSymbol : UInt64
  timerInterval : UInt64
  timerPending : Bool
  notifierRegistered : Bool
  checkingModule : List Byte
  sysCallTableHash : UInt32
  sysCallTableSize : UInt32
  sysCallTableAddress : UInt64
  incidentHandler : Option Handler
  lookup : Lookup
  memory : UInt64 → Byte

variable {Handler : Type}

/-- The static variables are zero when the module is loaded for the first time. -/
def firstLoad (memory : UInt64 → Byte) : Checker Handler where
  next := .checkName
  nextSymbol := 0
  timerInterval := 0
  timerPending := false
  notifierRegistered := false
  checkingModule := List.replicate moduleNameLen 0
  sysCallTableHash := 0
  sysCallTableSize := 0
  sysCallTableAddress := 0
  incidentHandler := none
  lookup := ⟨0, false⟩
  memory := memory

/-- The `len` bytes at an address. -/
def bytesAt (memory : UInt64 → Byte) (address : UInt64) (len : UInt32) : List Byte :=
  (List.range len.toNat).map fun i => memory (address + UInt64.ofNat i)

def Checker.tableBytes (s : Checker Handler) : List Byte :=
  bytesAt s.memory s.sysCallTableAddress s.sysCallTableSize

/-- `super_fast_hash((char *) sys_call_table_address, sys_call_table_size)`. -/
def Checker.tableHash (s : Checker Handler) : UInt32 :=
  superFastHash (if s.sysCallTableAddress = 0 then none else some s.tableBytes) s.sysCallTableSize

/-- What the tick compares. -/
def Checker.Modified (s : Checker Handler) : Prop := s.sysCallTableHash ≠ s.tableHash

instance (s : Checker Handler) : Decidable s.Modified := inferInstanceAs (Decidable (_ ≠ _))

/-! ## Steps -/

def registerTimerInterrupt (s : Checker Handler) : Checker Handler :=
  if s.timerInterval = 0 then s else { s with timerPending := true }

/-- One statement of `init_sys_call_table_integrity_checker`. A failing return leaves the timer and
the notifier as they are. -/
def initStatement (setup : Setup Handler) (s : Checker Handler) : Checker Handler :=
  match s.next with
  | .checkName => { s with next := if setup.moduleName.isNone then .returned 0 else .checkInterval }
  | .checkInterval => { s with next := if setup.every = 0 then .returned 0 else .setInterval }
  | .setInterval => { s with timerInterval := setup.every, next := .registerTimer }
  | .registerTimer => { registerTimerInterrupt s with next := .registerNotifier }
  | .registerNotifier => { s with notifierRegistered := true, next := .lookupTable }
  | .lookupTable =>
    let r := myKallsymsLookupName setup.kernel (bytes "sys_call_table") s.lookup
    { s with sysCallTableAddress := r.1, lookup := r.2, next := .checkTable }
  | .checkTable => { s with next := if s.sysCallTableAddress = 0 then .returned 0 else .lookupNext }
  | .lookupNext =>
    let found := findNextSymbol setup.kernel s.sysCallTableAddress
    { s with nextSymbol := found.targetAddress, lookup := found, next := .checkNext }
  | .checkNext => { s with next := if s.nextSymbol = 0 then .returned 0 else .setSize }
  | .setSize => { s with sysCallTableSize := (s.nextSymbol - s.sysCallTableAddress).toUInt32, next := .setHash }
  | .setHash => { s with sysCallTableHash := s.tableHash, next := .setName }
  | .setName => { s with checkingModule := strncpy moduleNameLen (setup.moduleName.getD []), next := .setHandler }
  | .setHandler => { s with incidentHandler := setup.handler, next := .returned 1 }
  | .returned _ => s

/-- A call of the handler, with its reason. -/
abbrev Call (Handler : Type) := Handler × Int

/-- A tick. The kernel has taken the timer off its list before it calls. -/
def sysCallTableIntegrityChecker (s : Checker Handler) : Option (Call Handler) × Checker Handler :=
  let fired := { s with timerPending := false }
  if s.Modified then
    match s.incidentHandler with
    | some handler => (some (handler, afterIncident), registerTimerInterrupt { fired with incidentHandler := none })
    | none => (none, registerTimerInterrupt fired)
  else (none, registerTimerInterrupt fired)

inductive ModuleState where
  | coming
  | live
  | going
  /-- Any other value. -/
  | unknown
deriving DecidableEq, Repr

/-- `struct module`. -/
structure Module where
  address : UInt64
  state : ModuleState
deriving DecidableEq

inductive Fault where
  /-- `incident_handler` is called while it is NULL. -/
  | nullCall
deriving DecidableEq, Repr

/-- The notifier does not test the handler. -/
def theDripDryCarboniteModuleEvent (setup : Setup Handler) (newModule : Module) (s : Checker Handler) :
    Except Fault (Option (Call Handler)) :=
  match newModule.state with
  | .live =>
    if newModule.address = setup.thisModule then .ok none
    else match s.incidentHandler with
      | some handler => .ok (some (handler, afterModuleInit))
      | none => .error .nullCall
  | .coming => .ok none
  | .going => .ok none
  | .unknown => .ok none

/-- Memory after a store of `stored` at `address`. -/
def store (memory : UInt64 → Byte) (address : UInt64) (stored : List Byte) : UInt64 → Byte :=
  fun a => stored.getD (a - address).toNat (memory a)

inductive Op where
  /-- The next statement of the initialization. -/
  | init
  /-- The timer expires. -/
  | tick
  | write (address : UInt64) (stored : List Byte)
  | moduleEvent (newModule : Module)
deriving DecidableEq

/-- A timer that is not pending does not expire, and a notifier that is not registered does not
run. -/
def step (setup : Setup Handler) (s : Checker Handler) : Op → Except Fault (Option (Call Handler) × Checker Handler)
  | .init => .ok (none, initStatement setup s)
  | .tick => .ok (if s.timerPending then sysCallTableIntegrityChecker s else (none, s))
  | .write address stored => .ok (none, { s with memory := store s.memory address stored })
  | .moduleEvent newModule =>
    if s.notifierRegistered then
      match theDripDryCarboniteModuleEvent setup newModule s with
      | .ok call => .ok (call, s)
      | .error fault => .error fault
    else .ok (none, s)

/-! ## What a step does -/

/-- A tick in this state finds the table modified. -/
def Checker.Alarms (s : Checker Handler) : Prop := s.timerPending ∧ s.Modified

instance (s : Checker Handler) : Decidable s.Alarms := inferInstanceAs (Decidable (_ ∧ _))

/-- The notifier runs for another module that has become live. -/
def Announces (setup : Setup Handler) (s : Checker Handler) (newModule : Module) : Prop :=
  s.notifierRegistered ∧ newModule.state = .live ∧ newModule.address ≠ setup.thisModule

instance (setup : Setup Handler) (s : Checker Handler) (newModule : Module) :
    Decidable (Announces setup s newModule) := inferInstanceAs (Decidable (_ ∧ _ ∧ _))

/-- Armed again, when there is an interval. -/
theorem registerTimerInterrupt_fired (s : Checker Handler) :
    registerTimerInterrupt { s with timerPending := false } =
      { s with timerPending := decide (s.timerInterval ≠ 0) } := by
  unfold registerTimerInterrupt
  by_cases zero : s.timerInterval = 0 <;> simp [zero]

variable {setup : Setup Handler} {s s' : Checker Handler} {call : Option (Call Handler)}

theorem step_init : step setup s .init = .ok (none, initStatement setup s) := rfl

theorem step_write {address : UInt64} {stored : List Byte} :
    step setup s (.write address stored) = .ok (none, { s with memory := store s.memory address stored }) := rfl

/-- A tick that finds nothing only arms the timer again. -/
theorem step_tick_calm (setup : Setup Handler) (calm : ¬ s.Alarms) :
    ∃ pending, step setup s .tick = .ok (none, { s with timerPending := pending }) := by
  by_cases fires : s.timerPending = true
  · have same : ¬ s.Modified := fun modified => calm ⟨fires, modified⟩
    refine ⟨decide (s.timerInterval ≠ 0), ?_⟩
    rw [step, if_pos fires, sysCallTableIntegrityChecker, if_neg same, registerTimerInterrupt_fired]
  · exact ⟨s.timerPending, by rw [step, if_neg fires]⟩

/-- A tick that finds the table modified calls the handler, if there is one, and clears it. -/
theorem step_tick_alarm (alarms : s.Alarms) :
    step setup s .tick = .ok (s.incidentHandler.map fun handler => (handler, afterIncident),
      { s with timerPending := decide (s.timerInterval ≠ 0), incidentHandler := none }) := by
  obtain ⟨fires, modified⟩ := alarms
  rw [step, if_pos fires, sysCallTableIntegrityChecker, if_pos modified]
  have armed := registerTimerInterrupt_fired s
  have cleared := registerTimerInterrupt_fired ({ s with incidentHandler := none } : Checker Handler)
  cases set : s.incidentHandler with
  | none =>
    simp only [set] at armed ⊢
    rw [armed]
    rfl
  | some handler => simp only [cleared, Option.map_some]

theorem step_moduleEvent_quiet {newModule : Module} (quiet : ¬ Announces setup s newModule) :
    step setup s (.moduleEvent newModule) = .ok (none, s) := by
  by_cases registered : s.notifierRegistered = true
  · cases state : newModule.state with
    | live =>
      have this : newModule.address = setup.thisModule := by
        by_contra other
        exact quiet ⟨registered, state, other⟩
      simp [step, registered, theDripDryCarboniteModuleEvent, state, this]
    | coming => simp [step, registered, theDripDryCarboniteModuleEvent, state]
    | going => simp [step, registered, theDripDryCarboniteModuleEvent, state]
    | unknown => simp [step, registered, theDripDryCarboniteModuleEvent, state]
  · simp [step, registered]

theorem step_moduleEvent_live {newModule : Module} (announces : Announces setup s newModule) :
    step setup s (.moduleEvent newModule) =
      match s.incidentHandler with
      | some handler => .ok (some (handler, afterModuleInit), s)
      | none => .error .nullCall := by
  obtain ⟨registered, live, other⟩ := announces
  cases set : s.incidentHandler <;> simp [step, registered, theDripDryCarboniteModuleEvent, live, other, set]

theorem initStatement_handler :
    (initStatement setup s).incidentHandler = if s.next = .setHandler then setup.handler else s.incidentHandler := by
  have armed : (registerTimerInterrupt s).incidentHandler = s.incidentHandler := by
    unfold registerTimerInterrupt
    split <;> rfl
  cases next : s.next <;> simp [initStatement, next, armed]

/-- The initialization runs once. -/
theorem initStatement_returned {ret : Int} (returned : s.next = .returned ret) : initStatement setup s = s := by
  simp [initStatement, returned]

/-- All that a step can do. -/
inductive Move (setup : Setup Handler) (s : Checker Handler) : Op → Option (Call Handler) → Checker Handler → Prop where
  | init : Move setup s .init none (initStatement setup s)
  | calm (pending : Bool) (calm : ¬ s.Alarms) : Move setup s .tick none { s with timerPending := pending }
  | alarm (alarms : s.Alarms) : Move setup s .tick (s.incidentHandler.map fun handler => (handler, afterIncident))
      { s with timerPending := decide (s.timerInterval ≠ 0), incidentHandler := none }
  | write (address : UInt64) (stored : List Byte) :
      Move setup s (.write address stored) none { s with memory := store s.memory address stored }
  | quiet (newModule : Module) (quiet : ¬ Announces setup s newModule) : Move setup s (.moduleEvent newModule) none s
  | live (newModule : Module) (handler : Handler) (announces : Announces setup s newModule)
      (set : s.incidentHandler = some handler) :
      Move setup s (.moduleEvent newModule) (some (handler, afterModuleInit)) s

theorem step_move {op : Op} (ok : step setup s op = .ok (call, s')) : Move setup s op call s' := by
  cases op with
  | init =>
    cases ok
    exact .init
  | tick =>
    by_cases alarms : s.Alarms
    · rw [step_tick_alarm alarms] at ok
      cases ok
      exact .alarm alarms
    · obtain ⟨pending, calm⟩ := step_tick_calm setup alarms
      rw [calm] at ok
      cases ok
      exact .calm pending alarms
  | write address stored =>
    cases ok
    exact .write address stored
  | moduleEvent newModule =>
    by_cases announces : Announces setup s newModule
    · rw [step_moduleEvent_live announces] at ok
      cases set : s.incidentHandler with
      | none => simp [set] at ok
      | some handler =>
        rw [set] at ok
        cases ok
        exact .live newModule handler announces set
    · rw [step_moduleEvent_quiet announces] at ok
      cases ok
      exact .quiet newModule announces

theorem step_returned {op : Op} {ret : Int} (ok : step setup s op = .ok (call, s')) (returned : s.next = .returned ret) :
    s'.next = .returned ret := by
  cases step_move ok with
  | init => rw [initStatement_returned returned, returned]
  | calm => exact returned
  | alarm => exact returned
  | write => exact returned
  | quiet => exact returned
  | live => exact returned

end Carbonite
