import Mathlib.Logic.Function.Basic
import SecuritySuite.Foundation.Numeral
import SecuritySuite.Foundation.Runs

/-!
# `dresden`

Dresden registers a notifier that replaces the init function of every module that is announced to it, and takes
itself off the list of modules. The kernel loads and unloads several modules at a time: a module is announced as
coming, its init function is called, it is announced as live or, if that fails, as going. The steps are the statements
of `dresden_engage`, those of the notifier for each module, and what the kernel does in between.
-/

namespace Dresden
set_option autoImplicit false
open CString Runs

/-! ## Data -/

inductive ModuleState where
  | live
  | coming
  | going
  /-- Any other value. -/
  | unknown
deriving DecidableEq, Repr

/-- A pointer to an init function: NULL, the module's own one, or `fail`. -/
inductive Init where
  | null
  | own (address : UInt64)
  | fail
deriving DecidableEq, Repr

/-- The fields of `struct module` that the notifier reads. -/
structure Module where
  name : List Byte
  state : ModuleState
  init : Init
  initSize : UInt32
  moduleCore : UInt64
  coreSize : UInt32
deriving DecidableEq

/-- The statements of the notifier. All but the first are those for a module that is coming. -/
inductive HandlerStatement where
  | switch
  | storeInit
  | disabled
deriving DecidableEq, Repr

/-- How far the kernel is with the notifiers for the module's present state. -/
inductive Phase where
  | notify
  | handler (statement : HandlerStatement)
  | notified
deriving DecidableEq, Repr

/-- A module that the kernel has loaded. -/
structure Loaded where
  module : Module
  phase : Phase
  /-- It is on the list of modules. -/
  listed : Bool
deriving DecidableEq

/-- The statements of `dresden_engage`. -/
inductive EngageStatement where
  | registerNotifier
  | listDel
  | banner
  | procEntry
  | returned
deriving DecidableEq, Repr

/-- Where the functions of dresden lie, its parameter, and what `create_proc_entry` returns. -/
structure Setting where
  thisModule : UInt64
  fail : UInt64
  showProcEntry : Int32
  createProcEntry : Bool

structure State where
  modules : UInt64 → Option Loaded
  /-- `module_notifier_block` is on the chain. -/
  registered : Bool
  engaging : EngageStatement
  /-- `dresden_proc_entry` is not NULL. -/
  procEntry : Bool

/-- Before dresden is loaded, with modules that are live or being loaded. -/
def State.boot (modules : UInt64 → Option Loaded) : State := ⟨modules, false, .registerNotifier, false⟩

/-! ## Messages -/

def kernEmerg : List Byte := bytes "<0>"

def kernErr : List Byte := bytes "<3>"

def kernInfo : List Byte := bytes "<6>"

def moduleName : List Byte := bytes "dresden"

/-- `"%x"`. -/
def hexadecimal (n : Nat) : List Byte := (Nat.toDigits 16 n).map Char.toUInt8

/-- `"%p"`. -/
def pointer (address : UInt64) : List Byte := ((Nat.toDigits 16 address.toNat).leftpad 16 '0').map Char.toUInt8

def Init.address (setting : Setting) : Init → UInt64
  | .null => 0
  | .own address => address
  | .fail => setting.fail

/-- The core of the module, at the end of a line. -/
def Module.coreText (m : Module) : List Byte :=
  bytes " core: 0x" ++ pointer m.moduleCore ++ bytes " size of core (text + data) 0x" ++ hexadecimal m.coreSize.toNat ++ bytes "\n"

/-- The line break in the source's format leaves the tabs of the next line in it. -/
def Module.comingLine (setting : Setting) (m : Module) : List Byte :=
  kernEmerg ++ moduleName ++ bytes ": event: MODULE_STATE_COMING name: " ++ m.name ++ bytes " init: 0x" ++
    pointer (m.init.address setting) ++ bytes " size of init (text + data)" ++ List.replicate 13 9 ++ bytes "0x" ++
      hexadecimal m.initSize.toNat ++ m.coreText

def Module.disabledLine (m : Module) : List Byte :=
  kernEmerg ++ moduleName ++ bytes ": New module is th name " ++ m.name ++ bytes ". Its functionality will be disabled\n"

def Module.liveLine (m : Module) : List Byte :=
  kernEmerg ++ moduleName ++ bytes ": event: MODULE_STATE_LIVE name: " ++ m.name ++ m.coreText

def Module.goingLine (m : Module) : List Byte :=
  kernEmerg ++ moduleName ++ bytes ": event: MODULE_STATE_GOING name: " ++ m.name ++ m.coreText

def Module.unknownLine (m : Module) : List Byte :=
  kernErr ++ moduleName ++ bytes ": ERROR unknown module state in notifier chain for " ++ m.name ++ bytes " module\n"

def blockedLine : List Byte := kernInfo ++ bytes "Module insertion blocked by CERN's dresden\n"

def bannerLines : List (List Byte) :=
  [kernInfo ++ moduleName ++ bytes ": Kernel module insertion blocker and action notifier by CERN Security Team\n",
    kernInfo ++ moduleName ++ bytes ":\t[+] Future loading of kernel modules will be prevented\n",
    kernInfo ++ moduleName ++ bytes ":\t[+] Emergency messages will be logged in case of trying to load or unload a module\n",
    kernInfo ++ moduleName ++ bytes ":\t[+] You are not able to remove this module\n"]

/-! ## Steps -/

inductive Event where
  /-- The kernel has put a module into memory. -/
  | load (address : UInt64) (module : Module)
  /-- The notifiers are called for the state of a module. -/
  | notify (address : UInt64)
  /-- The next statement of the notifier for a module. -/
  | handle (address : UInt64)
  /-- The init function is called. `ret` is what the module's own one returns. -/
  | initcall (address : UInt64) (ret : Int)
  | delete (address : UInt64)
  /-- A module that is going is taken out of memory. -/
  | free (address : UInt64)
  /-- The next statement of `dresden_engage`. -/
  | engage
deriving DecidableEq

inductive Fault where
  /-- The event is not one that can come next. -/
  | outOfTurn
deriving DecidableEq, Repr

/-- The lines that were printed, with the module they are about, and the module whose own init function was called. -/
structure Answer where
  printed : List (UInt64 × List Byte)
  ran : Option UInt64

def Answer.nothing : Answer := ⟨[], none⟩

def State.put (s : State) (address : UInt64) (loaded : Loaded) : State :=
  { s with modules := Function.update s.modules address (some loaded) }

/-- `dresden_module_handler`, statement by statement. The lock is one of its own, so that several calls can run at a time. -/
def State.handle (setting : Setting) (s : State) (address : UInt64) (loaded : Loaded) :
    HandlerStatement → Answer × State
  | .switch =>
    match loaded.module.state with
    | .coming => (⟨[(address, loaded.module.comingLine setting)], none⟩, s.put address { loaded with phase := .handler .storeInit })
    | .live =>
      if address = setting.thisModule then (.nothing, s.put address { loaded with phase := .notified })
      else (⟨[(address, loaded.module.liveLine)], none⟩, s.put address { loaded with phase := .notified })
    | .going => (⟨[(address, loaded.module.goingLine)], none⟩, s.put address { loaded with phase := .notified })
    | .unknown => (⟨[(address, loaded.module.unknownLine)], none⟩, s.put address { loaded with phase := .notified })
  | .storeInit => (.nothing, s.put address
      { loaded with module := { loaded.module with init := .fail }, phase := .handler .disabled })
  | .disabled => (⟨[(address, loaded.module.disabledLine)], none⟩, s.put address { loaded with phase := .notified })

/-- The kernel goes on with what an init function has returned. -/
def Loaded.started (loaded : Loaded) (ret : Int) : Loaded :=
  { loaded with module := { loaded.module with state := if ret < 0 then .going else .live }, phase := .notify }

/-- A call of the init function. `fail` returns -1. -/
def State.initcall (s : State) (address : UInt64) (loaded : Loaded) (ret : Int) : Answer × State :=
  match loaded.module.init with
  | .null => (.nothing, s.put address (loaded.started 0))
  | .own _ => (⟨[], some address⟩, s.put address (loaded.started ret))
  | .fail => (⟨[(address, blockedLine)], none⟩, s.put address (loaded.started (-1)))

def procCreated : Int := 1

def procEntryExists : Int := 2

def ecreateProcEntry : Int := 3

def initProcEntry (setting : Setting) (s : State) : Int × State :=
  if s.procEntry then (procEntryExists, s)
  else if !setting.createProcEntry then (-ecreateProcEntry, s)
  else (procCreated, { s with procEntry := true })

/-- The next statement of `dresden_engage`, the init function of dresden, and what the kernel does when it returns. -/
def State.engage (setting : Setting) (s : State) (loaded : Loaded) : Except Fault (Answer × State) :=
  match s.engaging with
  | .registerNotifier => .ok (.nothing, { s with registered := true, engaging := .listDel })
  | .listDel => .ok (.nothing, { s.put setting.thisModule { loaded with listed := false } with engaging := .banner })
  | .banner => .ok (⟨bannerLines.map (setting.thisModule, ·), none⟩, { s with engaging := .procEntry })
  | .procEntry =>
    let r := if setting.showProcEntry = 0 then (none, s) else let r := initProcEntry setting s; (some r.1, r.2)
    let line := r.1.map fun err => if err = procCreated then
      kernInfo ++ moduleName ++ bytes ":\t[+] Created /proc/dresden entry\n"
      else kernErr ++ moduleName ++ bytes ":\t[-] Failed to create /proc/dresden entry\n"
    .ok (⟨line.toList.map (setting.thisModule, ·), some setting.thisModule⟩,
      { r.2.put setting.thisModule (loaded.started 0) with engaging := .returned })
  | .returned => .error .outOfTurn

/-- Only a module that is on the list can be deleted. -/
def step (setting : Setting) (s : State) : Event → Except Fault (Answer × State)
  | .load address module =>
    match s.modules address with
    | some _ => .error .outOfTurn
    | none => .ok (.nothing, s.put address ⟨{ module with state := .coming }, .notify, true⟩)
  | .notify address =>
    match s.modules address with
    | some ⟨module, .notify, listed⟩ =>
      .ok (.nothing, s.put address ⟨module, if s.registered then .handler .switch else .notified, listed⟩)
    | _ => .error .outOfTurn
  | .handle address =>
    match s.modules address with
    | some ⟨module, .handler statement, listed⟩ => .ok (s.handle setting address ⟨module, .handler statement, listed⟩ statement)
    | _ => .error .outOfTurn
  | .initcall address ret =>
    match s.modules address with
    | some ⟨module, .notified, listed⟩ =>
      if module.state = .coming ∧ address ≠ setting.thisModule then .ok (s.initcall address ⟨module, .notified, listed⟩ ret)
      else .error .outOfTurn
    | _ => .error .outOfTurn
  | .delete address =>
    match s.modules address with
    | some ⟨module, .notified, true⟩ =>
      if module.state = .live then .ok (.nothing, s.put address ⟨{ module with state := .going }, .notify, true⟩)
      else .error .outOfTurn
    | _ => .error .outOfTurn
  | .free address =>
    match s.modules address with
    | some ⟨module, .notified, _⟩ =>
      if module.state = .going then .ok (.nothing, { s with modules := Function.update s.modules address none })
      else .error .outOfTurn
    | _ => .error .outOfTurn
  | .engage =>
    match s.modules setting.thisModule with
    | some ⟨module, .notified, listed⟩ =>
      if module.state = .coming then s.engage setting ⟨module, .notified, listed⟩ else .error .outOfTurn
    | _ => .error .outOfTurn

/-! ## What a step does to a module -/

/-- The module that an event is about. -/
def Event.about (setting : Setting) : Event → UInt64
  | .load address _ | .notify address | .handle address | .initcall address _ | .delete address | .free address => address
  | .engage => setting.thisModule

/-- The lines about a module. -/
def Answer.linesAbout (address : UInt64) (answer : Answer) : List (List Byte) :=
  (answer.printed.filter (·.1 = address)).map (·.2)

@[simp] theorem Answer.linesAbout_nothing (address : UInt64) : Answer.nothing.linesAbout address = [] := rfl

@[simp] theorem Answer.linesAbout_singleton (address : UInt64) (line : List Byte) (ran : Option UInt64) :
    (⟨[(address, line)], ran⟩ : Answer).linesAbout address = [line] := by
  simp [linesAbout]

/-- The rows of a module other than dresden: an event, the module's record before it, the answer, and the record after it. -/
inductive Row (setting : Setting) (registered : Bool) (a : UInt64) : Event → Option Loaded → Answer → Option Loaded → Prop where
  | elsewhere {event : Event} {record : Option Loaded} {answer : Answer} (away : event.about setting ≠ a)
      (silent : answer.linesAbout a = []) (idle : answer.ran ≠ some a) : Row setting registered a event record answer record
  | load (m : Module) :
      Row setting registered a (.load a m) none .nothing (some ⟨{ m with state := .coming }, .notify, true⟩)
  | notify (m : Module) (listed : Bool) :
      Row setting registered a (.notify a) (some ⟨m, .notify, listed⟩) .nothing
        (some ⟨m, if registered then .handler .switch else .notified, listed⟩)
  | coming (m : Module) (listed : Bool) (state : m.state = .coming) :
      Row setting registered a (.handle a) (some ⟨m, .handler .switch, listed⟩) ⟨[(a, m.comingLine setting)], none⟩
        (some ⟨m, .handler .storeInit, listed⟩)
  | storeInit (m : Module) (listed : Bool) :
      Row setting registered a (.handle a) (some ⟨m, .handler .storeInit, listed⟩) .nothing
        (some ⟨{ m with init := .fail }, .handler .disabled, listed⟩)
  | disabled (m : Module) (listed : Bool) :
      Row setting registered a (.handle a) (some ⟨m, .handler .disabled, listed⟩) ⟨[(a, m.disabledLine)], none⟩
        (some ⟨m, .notified, listed⟩)
  | live (m : Module) (listed : Bool) (state : m.state = .live) :
      Row setting registered a (.handle a) (some ⟨m, .handler .switch, listed⟩) ⟨[(a, m.liveLine)], none⟩
        (some ⟨m, .notified, listed⟩)
  | going (m : Module) (listed : Bool) (state : m.state = .going) :
      Row setting registered a (.handle a) (some ⟨m, .handler .switch, listed⟩) ⟨[(a, m.goingLine)], none⟩
        (some ⟨m, .notified, listed⟩)
  | unknown (m : Module) (listed : Bool) (state : m.state = .unknown) :
      Row setting registered a (.handle a) (some ⟨m, .handler .switch, listed⟩) ⟨[(a, m.unknownLine)], none⟩
        (some ⟨m, .notified, listed⟩)
  | initNull (m : Module) (listed : Bool) (ret : Int) (state : m.state = .coming) (init : m.init = .null) :
      Row setting registered a (.initcall a ret) (some ⟨m, .notified, listed⟩) .nothing
        (some (Loaded.started ⟨m, .notified, listed⟩ 0))
  | initOwn (m : Module) (listed : Bool) (ret : Int) (address : UInt64) (state : m.state = .coming) (init : m.init = .own address) :
      Row setting registered a (.initcall a ret) (some ⟨m, .notified, listed⟩) ⟨[], some a⟩
        (some (Loaded.started ⟨m, .notified, listed⟩ ret))
  | initFail (m : Module) (listed : Bool) (ret : Int) (state : m.state = .coming) (init : m.init = .fail) :
      Row setting registered a (.initcall a ret) (some ⟨m, .notified, listed⟩) ⟨[(a, blockedLine)], none⟩
        (some (Loaded.started ⟨m, .notified, listed⟩ (-1)))
  | delete (m : Module) (state : m.state = .live) :
      Row setting registered a (.delete a) (some ⟨m, .notified, true⟩) .nothing (some ⟨{ m with state := .going }, .notify, true⟩)
  | free (m : Module) (listed : Bool) (state : m.state = .going) :
      Row setting registered a (.free a) (some ⟨m, .notified, listed⟩) .nothing none

/-! ## The rows -/

section Rows

variable {setting : Setting} {s s' : State} {answer : Answer} {a address : UInt64} {loaded : Loaded}

@[simp] theorem State.put_registered : (s.put address loaded).registered = s.registered := rfl

@[simp] theorem State.put_engaging : (s.put address loaded).engaging = s.engaging := rfl

@[simp] theorem State.put_here : (s.put address loaded).modules address = some loaded := by
  simp [put]

theorem State.put_elsewhere (away : a ≠ address) : (s.put address loaded).modules a = s.modules a := by
  simp [put, away]

/-- Lines about one module are not about another one. -/
theorem Answer.linesAbout_elsewhere {lines : List (List Byte)} {ran : Option UInt64} (away : address ≠ a) :
    (⟨lines.map (address, ·), ran⟩ : Answer).linesAbout a = [] := by
  simp [linesAbout, away]

theorem Answer.lineAbout_elsewhere {line : List Byte} {ran : Option UInt64} (away : address ≠ a) :
    (⟨[(address, line)], ran⟩ : Answer).linesAbout a = [] :=
  @linesAbout_elsewhere _ _ [line] _ away

theorem initProcEntry_modules : (initProcEntry setting s).2.modules = s.modules := by
  unfold initProcEntry
  split
  · rfl
  · split <;> rfl

theorem initProcEntry_registered : (initProcEntry setting s).2.registered = s.registered := by
  unfold initProcEntry
  split
  · rfl
  · split <;> rfl

/-- The notifier for one module leaves the others alone. -/
theorem handle_elsewhere {statement : HandlerStatement} (away : address ≠ a)
    (next : s.handle setting address loaded statement = (answer, s')) :
    s'.modules a = s.modules a ∧ answer.linesAbout a = [] ∧ answer.ran ≠ some a := by
  have other : a ≠ address := away.symm
  cases statement with
  | switch =>
    simp only [State.handle] at next
    split at next
    · cases next
      exact ⟨State.put_elsewhere other, Answer.lineAbout_elsewhere away, nofun⟩
    · split at next
      · cases next
        exact ⟨State.put_elsewhere other, rfl, nofun⟩
      · cases next
        exact ⟨State.put_elsewhere other, Answer.lineAbout_elsewhere away, nofun⟩
    · cases next
      exact ⟨State.put_elsewhere other, Answer.lineAbout_elsewhere away, nofun⟩
    · cases next
      exact ⟨State.put_elsewhere other, Answer.lineAbout_elsewhere away, nofun⟩
  | storeInit =>
    cases next
    exact ⟨State.put_elsewhere other, rfl, nofun⟩
  | disabled =>
    cases next
    exact ⟨State.put_elsewhere other, Answer.lineAbout_elsewhere away, nofun⟩

theorem initcall_elsewhere {ret : Int} (away : address ≠ a) (next : s.initcall address loaded ret = (answer, s')) :
    s'.modules a = s.modules a ∧ answer.linesAbout a = [] ∧ answer.ran ≠ some a := by
  have other : a ≠ address := away.symm
  unfold State.initcall at next
  split at next
  · cases next
    exact ⟨State.put_elsewhere other, rfl, nofun⟩
  · cases next
    exact ⟨State.put_elsewhere other, rfl, by simpa using away⟩
  · cases next
    exact ⟨State.put_elsewhere other, Answer.lineAbout_elsewhere away, nofun⟩

theorem engage_elsewhere (away : setting.thisModule ≠ a) (next : s.engage setting loaded = .ok (answer, s')) :
    s'.modules a = s.modules a ∧ answer.linesAbout a = [] ∧ answer.ran ≠ some a := by
  have other : a ≠ setting.thisModule := away.symm
  unfold State.engage at next
  split at next
  · cases next
    exact ⟨rfl, rfl, nofun⟩
  · cases next
    exact ⟨State.put_elsewhere other, rfl, nofun⟩
  · cases next
    exact ⟨rfl, Answer.linesAbout_elsewhere away, nofun⟩
  · cases next
    refine ⟨(State.put_elsewhere other).trans ?_, Answer.linesAbout_elsewhere away, by simpa using away⟩
    split
    · rfl
    · exact congrFun initProcEntry_modules a
  · cases next

end Rows

/-- **An event about another module.** -/
theorem step_elsewhere {setting : Setting} {s s' : State} {event : Event} {answer : Answer} {a : UInt64}
    (next : step setting s event = .ok (answer, s')) (away : event.about setting ≠ a) :
    s'.modules a = s.modules a ∧ answer.linesAbout a = [] ∧ answer.ran ≠ some a := by
  cases event with
  | load address m =>
    simp only [step] at next
    split at next
    · cases next
    · cases next
      exact ⟨State.put_elsewhere away.symm, rfl, nofun⟩
  | notify address =>
    simp only [step] at next
    split at next
    · cases next
      exact ⟨State.put_elsewhere away.symm, rfl, nofun⟩
    · cases next
  | handle address =>
    simp only [step] at next
    split at next
    · apply handle_elsewhere away
      exact Except.ok.inj next
    · cases next
  | initcall address ret =>
    simp only [step] at next
    split at next
    · split at next
      · apply initcall_elsewhere away
        exact Except.ok.inj next
      · cases next
    · cases next
  | delete address =>
    simp only [step] at next
    split at next
    · split at next
      · cases next
        exact ⟨State.put_elsewhere away.symm, rfl, nofun⟩
      · cases next
    · cases next
  | free address =>
    simp only [step] at next
    split at next
    · split at next
      · cases next
        exact ⟨Function.update_of_ne away.symm .., rfl, nofun⟩
      · cases next
    · cases next
  | engage =>
    simp only [step] at next
    split at next
    · split at next
      · exact engage_elsewhere away next
      · cases next
    · cases next

/-- **Every step is a row of each module.** -/
theorem step_row {setting : Setting} {s s' : State} {event : Event} {answer : Answer} {a : UInt64}
    (foreign : a ≠ setting.thisModule) (next : step setting s event = .ok (answer, s')) :
    Row setting s.registered a event (s.modules a) answer (s'.modules a) := by
  by_cases away : event.about setting ≠ a
  · obtain ⟨same, silent, idle⟩ := step_elsewhere next away
    rw [same]
    exact .elsewhere away silent idle
  cases event with
  | load address m =>
    obtain rfl : address = a := not_not.1 away
    simp only [step] at next
    split at next
    · cases next
    · rename_i unused
      cases next
      rw [unused, State.put_here]
      exact .load m
  | notify address =>
    obtain rfl : address = a := not_not.1 away
    simp only [step] at next
    split at next
    · rename_i m listed record
      cases next
      rw [record, State.put_here]
      exact .notify m listed
    · cases next
  | handle address =>
    obtain rfl : address = a := not_not.1 away
    simp only [step] at next
    split at next
    · rename_i m statement listed record
      rw [record]
      cases statement with
      | switch =>
        simp only [State.handle] at next
        split at next
        · rename_i state
          cases next
          rw [State.put_here]
          exact .coming m listed state
        · rename_i state
          rw [if_neg foreign] at next
          cases next
          rw [State.put_here]
          exact .live m listed state
        · rename_i state
          cases next
          rw [State.put_here]
          exact .going m listed state
        · rename_i state
          cases next
          rw [State.put_here]
          exact .unknown m listed state
      | storeInit =>
        cases next
        rw [State.put_here]
        exact .storeInit m listed
      | disabled =>
        cases next
        rw [State.put_here]
        exact .disabled m listed
    · cases next
  | initcall address ret =>
    obtain rfl : address = a := not_not.1 away
    simp only [step] at next
    split at next
    · rename_i m listed record
      rw [record]
      split at next
      · rename_i due
        simp only [State.initcall] at next
        split at next
        · rename_i init
          cases next
          rw [State.put_here]
          exact .initNull m listed ret due.1 init
        · rename_i own init
          cases next
          rw [State.put_here]
          exact .initOwn m listed ret own due.1 init
        · rename_i init
          cases next
          rw [State.put_here]
          exact .initFail m listed ret due.1 init
      · cases next
    · cases next
  | delete address =>
    obtain rfl : address = a := not_not.1 away
    simp only [step] at next
    split at next
    · rename_i m record
      rw [record]
      split at next
      · rename_i state
        cases next
        rw [State.put_here]
        exact .delete m state
      · cases next
    · cases next
  | free address =>
    obtain rfl : address = a := not_not.1 away
    simp only [step] at next
    split at next
    · rename_i m listed record
      rw [record]
      split at next
      · rename_i state
        cases next
        simp only [Function.update_self]
        exact .free m listed state
      · cases next
    · cases next
  | engage => exact absurd (not_not.1 away).symm foreign

/-! ## dresden itself -/

/-- Only `dresden_engage` changes what is registered. -/
theorem step_rest {setting : Setting} {s s' : State} {event : Event} {answer : Answer}
    (next : step setting s event = .ok (answer, s')) (notEngage : event ≠ .engage) :
    s'.registered = s.registered ∧ s'.engaging = s.engaging := by
  cases event with
  | engage => exact absurd rfl notEngage
  | handle address =>
    simp only [step] at next
    split at next
    · rename_i m statement listed record
      cases statement with
      | switch =>
        simp only [State.handle] at next
        split at next
        · cases next
          exact ⟨rfl, rfl⟩
        · split at next <;> (cases next; exact ⟨rfl, rfl⟩)
        · cases next
          exact ⟨rfl, rfl⟩
        · cases next
          exact ⟨rfl, rfl⟩
      | storeInit =>
        cases next
        exact ⟨rfl, rfl⟩
      | disabled =>
        cases next
        exact ⟨rfl, rfl⟩
    · cases next
  | initcall address ret =>
    simp only [step] at next
    split at next
    · split at next
      · simp only [State.initcall] at next
        split at next <;> (cases next; exact ⟨rfl, rfl⟩)
      · cases next
    · cases next
  | load address m =>
    simp only [step] at next
    split at next
    · cases next
    · cases next
      exact ⟨rfl, rfl⟩
  | notify address =>
    simp only [step] at next
    split at next
    · cases next
      exact ⟨rfl, rfl⟩
    · cases next
  | delete address | free address =>
    simp only [step] at next
    split at next
    · split at next
      · cases next
        exact ⟨rfl, rfl⟩
      · cases next
    · cases next

/-- The record of dresden from its first statement on: it leaves the list before it can be deleted. -/
inductive Engaged : EngageStatement → Loaded → Prop where
  | listDel (m : Module) (listed : Bool) (state : m.state = .coming) : Engaged .listDel ⟨m, .notified, listed⟩
  | banner (m : Module) (state : m.state = .coming) : Engaged .banner ⟨m, .notified, false⟩
  | procEntry (m : Module) (state : m.state = .coming) : Engaged .procEntry ⟨m, .notified, false⟩
  | returned (m : Module) (phase : Phase) (state : m.state = .live) : Engaged .returned ⟨m, phase, false⟩

/-- The notifier is registered and dresden is there to stay. -/
def Engaging (setting : Setting) (s : State) : Prop :=
  s.registered = true ∧ ∃ loaded, s.modules setting.thisModule = some loaded ∧ Engaged s.engaging loaded

theorem engaging_handle {setting : Setting} {s s' : State} {m : Module} {statement : HandlerStatement} {answer : Answer}
    (live : m.state = .live)
    (next : s.handle setting setting.thisModule ⟨m, .handler statement, false⟩ statement = (answer, s')) :
    ∃ loaded, s'.modules setting.thisModule = some loaded ∧ Engaged .returned loaded := by
  cases statement with
  | switch =>
    simp only [State.handle, live, if_true] at next
    cases next
    exact ⟨_, State.put_here, .returned m .notified live⟩
  | storeInit =>
    cases next
    exact ⟨_, State.put_here, .returned { m with init := .fail } (.handler .disabled) live⟩
  | disabled =>
    cases next
    exact ⟨_, State.put_here, .returned m .notified live⟩

theorem engaging_engage {setting : Setting} {s s' : State} {loaded : Loaded} {answer : Answer}
    (registered : s.registered = true) (here : s.modules setting.thisModule = some loaded) (engaged : Engaged s.engaging loaded)
    (next : s.engage setting loaded = .ok (answer, s')) : Engaging setting s' := by
  generalize at_ : s.engaging = statement at engaged
  cases engaged with
  | listDel m listed state =>
    simp only [State.engage, at_] at next
    cases next
    exact ⟨registered, _, State.put_here, .banner m state⟩
  | banner m state =>
    simp only [State.engage, at_] at next
    cases next
    exact ⟨registered, _, here, .procEntry m state⟩
  | procEntry m state =>
    simp only [State.engage, at_] at next
    cases next
    refine ⟨?_, _, State.put_here, .returned _ .notify rfl⟩
    simp only [State.put_registered]
    split
    · exact registered
    · exact initProcEntry_registered.trans registered
  | returned m phase state =>
    simp only [State.engage, at_] at next
    cases next

/-- Dresden stays from its first statement on, and no step takes it away. -/
theorem engaging_step {setting : Setting} {s s' : State} {event : Event} {answer : Answer} (engaging : Engaging setting s)
    (next : step setting s event = .ok (answer, s')) :
    Engaging setting s' ∧ event ≠ .delete setting.thisModule ∧ event ≠ .free setting.thisModule := by
  obtain ⟨registered, loaded, here, engaged⟩ := engaging
  by_cases away : event.about setting ≠ setting.thisModule
  · have notEngage : event ≠ .engage := by
      rintro rfl
      exact away rfl
    obtain ⟨same, -⟩ := step_elsewhere next away
    obtain ⟨kept, at_⟩ := step_rest next notEngage
    refine ⟨⟨kept.trans registered, loaded, same.trans here, at_ ▸ engaged⟩, ?_, ?_⟩
    · rintro rfl
      exact away rfl
    · rintro rfl
      exact away rfl
  cases event with
  | load address m =>
    obtain rfl : address = setting.thisModule := not_not.1 away
    simp [step, here] at next
  | notify address =>
    obtain rfl : address = setting.thisModule := not_not.1 away
    refine ⟨?_, nofun, nofun⟩
    generalize at_ : s.engaging = statement at engaged
    cases engaged with
    | listDel m listed state | banner m state | procEntry m state => simp [step, here] at next
    | returned m phase state =>
      obtain ⟨kept, same⟩ := step_rest next nofun
      simp only [step, here] at next
      split at next
      · rename_i record
        cases record
        cases next
        exact ⟨registered, _, State.put_here, by rw [State.put_engaging, at_]; exact .returned m _ state⟩
      · cases next
  | handle address =>
    obtain rfl : address = setting.thisModule := not_not.1 away
    refine ⟨?_, nofun, nofun⟩
    generalize at_ : s.engaging = statement at engaged
    cases engaged with
    | listDel m listed state | banner m state | procEntry m state => simp [step, here] at next
    | returned m phase state =>
      obtain ⟨kept, same⟩ := step_rest next nofun
      simp only [step, here] at next
      split at next
      · rename_i record
        cases record
        obtain ⟨loaded', here', engaged'⟩ := engaging_handle state (Except.ok.inj next)
        exact ⟨kept.trans registered, loaded', here', by rw [same, at_]; exact engaged'⟩
      · cases next
  | initcall address ret =>
    obtain rfl : address = setting.thisModule := not_not.1 away
    simp only [step] at next
    split at next
    · simp at next
    · cases next
  | delete address =>
    obtain rfl : address = setting.thisModule := not_not.1 away
    generalize at_ : s.engaging = statement at engaged
    cases engaged with
    | listDel m listed state =>
      cases listed <;> simp [step, here, state] at next
    | banner m state | procEntry m state | returned m phase state => simp [step, here] at next
  | free address =>
    obtain rfl : address = setting.thisModule := not_not.1 away
    generalize at_ : s.engaging = statement at engaged
    cases engaged with
    | listDel m listed state | banner m state | procEntry m state => simp [step, here, state] at next
    | returned m phase state =>
      cases phase <;> simp [step, here, state] at next
  | engage =>
    refine ⟨?_, nofun, nofun⟩
    simp only [step, here] at next
    split at next
    · rename_i record
      split at next
      · obtain rfl := Option.some.inj record
        exact engaging_engage registered here engaged next
      · cases next
    · cases next

theorem engaging_run {setting : Setting} {s s' : State} {events : List Event} {answers : List Answer}
    (engaging : Engaging setting s) (ran : run (step setting) events s = .ok (answers, s')) :
    Engaging setting s' ∧ .delete setting.thisModule ∉ events ∧ .free setting.thisModule ∉ events := by
  induction events generalizing s answers with
  | nil =>
    cases ran
    exact ⟨engaging, List.not_mem_nil, List.not_mem_nil⟩
  | cons event events ih =>
    obtain ⟨answer, s₁, answers, first, rest, rfl⟩ := run_cons.1 ran
    obtain ⟨kept, notDelete, notFree⟩ := engaging_step engaging first
    obtain ⟨last, noDelete, noFree⟩ := ih kept rest
    exact ⟨last, by simp [notDelete.symm, noDelete], by simp [notFree.symm, noFree]⟩

/-- `dresden_engage` has not been called. -/
def Asleep (s : State) : Prop :=
  s.registered = false ∧ s.engaging = .registerNotifier

theorem asleep_engage {setting : Setting} {s s' : State} {answer : Answer} (asleep : Asleep s)
    (next : step setting s .engage = .ok (answer, s')) : Engaging setting s' := by
  simp only [step] at next
  split at next
  · rename_i m listed record
    split at next
    · rename_i state
      simp only [State.engage, asleep.2] at next
      cases next
      exact ⟨rfl, _, record, .listDel m listed state⟩
    · cases next
  · cases next

/-- The notifier is registered from the first statement of `dresden_engage` on. -/
theorem asleep_run {setting : Setting} {s s' : State} {events : List Event} {answers : List Answer}
    (asleep : Asleep s) (ran : run (step setting) events s = .ok (answers, s')) :
    if .engage ∈ events then Engaging setting s' else Asleep s' := by
  induction events generalizing s answers with
  | nil =>
    cases ran
    simpa using asleep
  | cons event events ih =>
    obtain ⟨answer, s₁, answers, first, rest, rfl⟩ := run_cons.1 ran
    by_cases engage : event = .engage
    · subst engage
      rw [if_pos List.mem_cons_self]
      exact (engaging_run (asleep_engage asleep first) rest).1
    · obtain ⟨registered, at_⟩ := step_rest first engage
      simp only [List.mem_cons, Ne.symm engage, false_or]
      exact ih ⟨registered.trans asleep.1, at_.trans asleep.2⟩ rest

/-! ## Modules that are announced to the notifier -/

/-- All that dresden prints about a module. -/
def Module.told (setting : Setting) (m : Module) : List (List Byte) :=
  [m.comingLine setting, m.disabledLine, blockedLine, m.goingLine]

/-- The record of a module that was announced to the notifier as `m`, and the lines about it. -/
inductive Blocked (setting : Setting) (m : Module) : List (List Byte) → Loaded → Prop where
  | announced (listed : Bool) : Blocked setting m [] ⟨{ m with state := .coming }, .handler .switch, listed⟩
  | coming (listed : Bool) :
      Blocked setting m [m.comingLine setting] ⟨{ m with state := .coming }, .handler .storeInit, listed⟩
  | replaced (listed : Bool) :
      Blocked setting m [m.comingLine setting] ⟨{ m with state := .coming, init := .fail }, .handler .disabled, listed⟩
  | disabled (listed : Bool) :
      Blocked setting m [m.comingLine setting, m.disabledLine] ⟨{ m with state := .coming, init := .fail }, .notified, listed⟩
  | failed (listed : Bool) : Blocked setting m [m.comingLine setting, m.disabledLine, blockedLine]
      ⟨{ m with state := .going, init := .fail }, .notify, listed⟩
  | leaving (listed : Bool) : Blocked setting m [m.comingLine setting, m.disabledLine, blockedLine]
      ⟨{ m with state := .going, init := .fail }, .handler .switch, listed⟩
  | gone (listed : Bool) : Blocked setting m (m.told setting) ⟨{ m with state := .going, init := .fail }, .notified, listed⟩

/-- No row leads out of it, and none runs the module's own init function. -/
theorem Row.blocked {setting : Setting} {m : Module} {a : UInt64} {event : Event} {answer : Answer} {lines : List (List Byte)}
    {loaded : Loaded} {record : Option Loaded} (row : Row setting true a event (some loaded) answer record)
    (blocked : Blocked setting m lines loaded) (kept : event ≠ .free a) :
    answer.ran ≠ some a ∧ ∃ loaded', record = some loaded' ∧ Blocked setting m (lines ++ answer.linesAbout a) loaded' := by
  cases row with
  | elsewhere away silent idle =>
    rw [silent, List.append_nil]
    exact ⟨idle, _, rfl, blocked⟩
  | notify m' listed =>
    refine ⟨nofun, _, rfl, ?_⟩
    cases blocked with
    | failed => exact .leaving listed
  | coming m' listed state =>
    refine ⟨nofun, _, rfl, ?_⟩
    rw [Answer.linesAbout_singleton]
    cases blocked with
    | announced => exact .coming listed
    | leaving => cases state
  | storeInit m' listed =>
    refine ⟨nofun, _, rfl, ?_⟩
    cases blocked with
    | coming => exact .replaced listed
  | disabled m' listed =>
    refine ⟨nofun, _, rfl, ?_⟩
    rw [Answer.linesAbout_singleton]
    cases blocked with
    | replaced => exact .disabled listed
  | live m' listed state =>
    cases blocked with
    | announced | leaving => cases state
  | going m' listed state =>
    refine ⟨nofun, _, rfl, ?_⟩
    rw [Answer.linesAbout_singleton]
    cases blocked with
    | announced => cases state
    | leaving => exact .gone listed
  | unknown m' listed state =>
    cases blocked with
    | announced | leaving => cases state
  | initNull m' listed ret state init =>
    cases blocked with
    | disabled => cases init
    | gone => cases state
  | initOwn m' listed ret address state init =>
    cases blocked with
    | disabled => cases init
    | gone => cases state
  | initFail m' listed ret state init =>
    refine ⟨nofun, _, rfl, ?_⟩
    rw [Answer.linesAbout_singleton]
    cases blocked with
    | disabled => exact .failed listed
    | gone => cases state
  | delete m' state =>
    cases blocked with
    | disabled | gone => cases state
  | free m' listed state => exact absurd rfl kept

theorem blocked_run {setting : Setting} {s s' : State} {m : Module} {a : UInt64} {events : List Event} {answers : List Answer}
    {lines : List (List Byte)} {loaded : Loaded} (foreign : a ≠ setting.thisModule) (engaging : Engaging setting s)
    (record : s.modules a = some loaded) (blocked : Blocked setting m lines loaded) (stays : .free a ∉ events)
    (ran : run (step setting) events s = .ok (answers, s')) :
    (∀ answer ∈ answers, answer.ran ≠ some a) ∧
      ∃ loaded', s'.modules a = some loaded' ∧ Blocked setting m (lines ++ answers.flatMap (·.linesAbout a)) loaded' := by
  induction events generalizing s answers lines loaded with
  | nil =>
    cases ran
    exact ⟨by simp, loaded, record, by simpa using blocked⟩
  | cons event events ih =>
    obtain ⟨answer, s₁, answers, first, rest, rfl⟩ := run_cons.1 ran
    obtain ⟨notFree, noFree⟩ := not_or.1 (mt List.mem_cons.2 stays)
    have row := step_row foreign first
    rw [engaging.1, record] at row
    obtain ⟨idle, loaded₁, record₁, blocked₁⟩ := row.blocked blocked (Ne.symm notFree)
    obtain ⟨idles, loaded', record', blocked'⟩ := ih (engaging_step engaging first).1 record₁ blocked₁ noFree rest
    refine ⟨List.forall_mem_cons.2 ⟨idle, idles⟩, loaded', record', ?_⟩
    rw [List.flatMap_cons, ← List.append_assoc]
    exact blocked'

theorem Blocked.told {setting : Setting} {m : Module} {lines : List (List Byte)} {loaded : Loaded}
    (blocked : Blocked setting m lines loaded) : loaded.module.state ≠ .live ∧ lines <+: m.told setting ∧
      (loaded.module.state = .going → loaded.phase = .notified → lines = m.told setting) := by
  cases blocked with
  | announced | coming | replaced => exact ⟨nofun, by simp [Module.told], nofun⟩
  | disabled => exact ⟨nofun, by simp [Module.told], nofun⟩
  | failed | leaving => exact ⟨nofun, by simp [Module.told], nofun⟩
  | gone => exact ⟨nofun, List.prefix_rfl, fun _ _ => rfl⟩

/-! ## Modules that are not -/

theorem Row.waiting {setting : Setting} {registered listed : Bool} {m : Module} {a : UInt64} {event : Event} {answer : Answer}
    {record : Option Loaded} (row : Row setting registered a event (some ⟨m, .notify, listed⟩) answer record)
    (notNotify : event ≠ .notify a) :
    record = some ⟨m, .notify, listed⟩ ∧ answer.linesAbout a = [] ∧ answer.ran ≠ some a := by
  cases row with
  | elsewhere away silent idle => exact ⟨rfl, silent, idle⟩
  | notify => exact absurd rfl notNotify

/-- Nothing happens to a module before it is announced. -/
theorem waiting_run {setting : Setting} {s s' : State} {m : Module} {listed : Bool} {a : UInt64} {events : List Event}
    {answers : List Answer} (foreign : a ≠ setting.thisModule) (record : s.modules a = some ⟨m, .notify, listed⟩)
    (unannounced : .notify a ∉ events) (ran : run (step setting) events s = .ok (answers, s')) :
    s'.modules a = some ⟨m, .notify, listed⟩ ∧ answers.flatMap (·.linesAbout a) = [] ∧ ∀ answer ∈ answers, answer.ran ≠ some a := by
  induction events generalizing s answers with
  | nil =>
    cases ran
    exact ⟨record, rfl, by simp⟩
  | cons event events ih =>
    obtain ⟨answer, s₁, answers, first, rest, rfl⟩ := run_cons.1 ran
    obtain ⟨here, later⟩ := not_or.1 (mt List.mem_cons.2 unannounced)
    have row := step_row foreign first
    rw [record] at row
    obtain ⟨record₁, silent, idle⟩ := row.waiting (Ne.symm here)
    obtain ⟨record', silents, idles⟩ := ih record₁ later rest
    exact ⟨record', by rw [List.flatMap_cons, silent, silents]; rfl, List.forall_mem_cons.2 ⟨idle, idles⟩⟩

theorem Row.ran {setting : Setting} {registered : Bool} {a : UInt64} {event : Event} {answer : Answer}
    {record record' : Option Loaded} (row : Row setting registered a event record answer record')
    (ran : answer.ran = some a) : ∃ ret, event = .initcall a ret := by
  cases row with
  | elsewhere away silent idle => exact absurd ran idle
  | initOwn m listed ret => exact ⟨ret, rfl⟩
  | _ => cases ran

/-- A module whose init function is not its own does not get it back. -/
theorem Row.powerless {setting : Setting} {registered : Bool} {a : UInt64} {event : Event} {answer : Answer} {loaded : Loaded}
    {record : Option Loaded} (row : Row setting registered a event (some loaded) answer record)
    (powerless : ∀ address, loaded.module.init ≠ .own address) (kept : event ≠ .free a) :
    answer.ran ≠ some a ∧ ∃ loaded', record = some loaded' ∧ ∀ address, loaded'.module.init ≠ .own address := by
  cases row with
  | elsewhere away silent idle => exact ⟨idle, _, rfl, powerless⟩
  | storeInit => exact ⟨nofun, _, rfl, nofun⟩
  | initOwn m listed ret address state init => exact absurd init (powerless address)
  | free => exact absurd rfl kept
  | _ => exact ⟨nofun, _, rfl, powerless⟩

theorem powerless_run {setting : Setting} {s s' : State} {a : UInt64} {events : List Event} {answers : List Answer}
    {loaded : Loaded} (foreign : a ≠ setting.thisModule) (record : s.modules a = some loaded)
    (powerless : ∀ address, loaded.module.init ≠ .own address) (stays : .free a ∉ events)
    (ran : run (step setting) events s = .ok (answers, s')) : ∀ answer ∈ answers, answer.ran ≠ some a := by
  induction events generalizing s answers loaded with
  | nil =>
    cases ran
    simp
  | cons event events ih =>
    obtain ⟨answer, s₁, answers, first, rest, rfl⟩ := run_cons.1 ran
    obtain ⟨notFree, noFree⟩ := not_or.1 (mt List.mem_cons.2 stays)
    have row := step_row foreign first
    rw [record] at row
    obtain ⟨idle, loaded₁, record₁, powerless₁⟩ := row.powerless powerless (Ne.symm notFree)
    exact List.forall_mem_cons.2 ⟨idle, ih record₁ powerless₁ noFree rest⟩

/-- Past the notifiers, its own init function is all that can come next for a module. -/
theorem Row.escaped {setting : Setting} {registered listed : Bool} {m : Module} {a address : UInt64} {event : Event}
    {answer : Answer} {record : Option Loaded}
    (row : Row setting registered a event (some ⟨m, .notified, listed⟩) answer record) (state : m.state = .coming)
    (init : m.init = .own address) :
    record = some ⟨m, .notified, listed⟩ ∧ (∀ ret, event ≠ .initcall a ret) ∨ answer.ran = some a := by
  cases row with
  | elsewhere away silent idle =>
    refine .inl ⟨rfl, ?_⟩
    rintro ret rfl
    exact away rfl
  | initNull _ _ _ _ null => simp [init] at null
  | initOwn => exact .inr rfl
  | initFail _ _ _ _ fail => simp [init] at fail
  | delete _ live => simp [state] at live
  | free _ _ going => simp [state] at going

theorem escaped_run {setting : Setting} {s s' : State} {m : Module} {listed : Bool} {a address : UInt64} {ret : Int}
    {events : List Event} {answers : List Answer} (foreign : a ≠ setting.thisModule)
    (record : s.modules a = some ⟨m, .notified, listed⟩) (state : m.state = .coming) (init : m.init = .own address)
    (called : .initcall a ret ∈ events) (ran : run (step setting) events s = .ok (answers, s')) :
    ∃ answer ∈ answers, answer.ran = some a := by
  induction events generalizing s answers with
  | nil => cases called
  | cons event events ih =>
    obtain ⟨answer, s₁, answers, first, rest, rfl⟩ := run_cons.1 ran
    have row := step_row foreign first
    rw [record] at row
    cases row.escaped state init with
    | inl waiting =>
      have later : .initcall a ret ∈ events := (List.mem_cons.1 called).resolve_left (waiting.2 ret).symm
      obtain ⟨hit, among, here⟩ := ih waiting.1 later rest
      exact ⟨hit, List.mem_cons_of_mem _ among, here⟩
    | inr here => exact ⟨answer, List.mem_cons_self, here⟩

theorem ran_of_run {setting : Setting} {s s' : State} {a : UInt64} {events : List Event} {answers : List Answer}
    (foreign : a ≠ setting.thisModule) (ran : run (step setting) events s = .ok (answers, s'))
    (hit : ∃ answer ∈ answers, answer.ran = some a) : ∃ ret, .initcall a ret ∈ events := by
  induction events generalizing s answers with
  | nil =>
    cases ran
    simp at hit
  | cons event events ih =>
    obtain ⟨answer, s₁, answers, first, rest, rfl⟩ := run_cons.1 ran
    obtain ⟨answer', among, here⟩ := hit
    cases List.mem_cons.1 among with
    | inl same =>
      obtain ⟨ret, rfl⟩ := (step_row foreign first).ran (same ▸ here)
      exact ⟨ret, List.mem_cons_self⟩
    | inr later =>
      obtain ⟨ret, called⟩ := ih rest ⟨answer', later, here⟩
      exact ⟨ret, List.mem_cons_of_mem _ called⟩

/-! ## The gate -/

theorem asleep_boot (modules : UInt64 → Option Loaded) : Asleep (.boot modules) := ⟨rfl, rfl⟩

/-- From loading a module until its announcement, nothing is printed about it and it does not run. -/
theorem announced_run {setting : Setting} {s s' : State} {mid : List Event} {a : UInt64} {m : Module} {answers : List Answer}
    (foreign : a ≠ setting.thisModule) (first : .notify a ∉ mid)
    (ran : run (step setting) (.load a m :: (mid ++ [.notify a])) s = .ok (answers, s')) :
    s'.modules a =
        some ⟨{ m with state := .coming }, if s'.registered then .handler .switch else .notified, true⟩ ∧
      answers.flatMap (·.linesAbout a) = [] ∧ ∀ answer ∈ answers, answer.ran ≠ some a := by
  obtain ⟨loading, s₁, _, load, rest, rfl⟩ := run_cons.1 ran
  obtain ⟨waiting, s₂, announcing, between, notify, rfl⟩ := run_snoc.1 rest
  have loaded : s₁.modules a = some ⟨{ m with state := .coming }, .notify, true⟩ ∧ loading = .nothing := by
    have row := step_row foreign load
    generalize s.modules a = record, s₁.modules a = record' at row
    cases row with
    | elsewhere away => exact absurd rfl away
    | load => exact ⟨rfl, rfl⟩
  obtain ⟨record₂, silent, idle⟩ := waiting_run foreign loaded.1 first between
  have row := step_row foreign notify
  rw [record₂, ← (step_rest notify nofun).1] at row
  generalize s'.modules a = record' at row
  cases row with
  | elsewhere away => exact absurd rfl away
  | notify =>
    refine ⟨rfl, by simp [loaded.2, silent], ?_⟩
    intro answer among
    rw [loaded.2, List.mem_cons, List.mem_append, List.mem_singleton] at among
    obtain rfl | among | rfl := among
    · exact nofun
    · exact idle answer among
    · exact nofun

/-- **Whose init function is called.** The module `m` is loaded at `a`, where dresden is not; after `mid` it is announced as
coming for the first time, and it is not freed in the run (`stays`). Its init function is called if and only if that is
due and the notifier was not registered before the announcement. If it was, the module never gets live, it goes only
after the four lines about it, and dresden stays. -/
theorem starts_iff {setting : Setting} {modules : UInt64 → Option Loaded} {s s' : State} {before mid post : List Event}
    {a : UInt64} {m : Module} {answers : List Answer} (reaches : Reaches (step setting) (.boot modules) before s)
    (foreign : a ≠ setting.thisModule)
    (ran : run (step setting) (.load a m :: (mid ++ [.notify a]) ++ post) s = .ok (answers, s'))
    (first : .notify a ∉ mid) (stays : .free a ∉ post) :
    ((∃ answer ∈ answers, answer.ran = some a) ↔
      .engage ∉ before ++ mid ∧ (∃ address, m.init = .own address) ∧ ∃ ret, .initcall a ret ∈ post) ∧
    (.engage ∈ before ++ mid →
      (∃ loaded, s'.modules a = some loaded ∧ loaded.module.state ≠ .live ∧
        answers.flatMap (·.linesAbout a) <+: m.told setting ∧
        (loaded.module.state = .going → loaded.phase = .notified → answers.flatMap (·.linesAbout a) = m.told setting)) ∧
      s'.registered = true ∧ (s'.modules setting.thisModule).isSome ∧ .delete setting.thisModule ∉ post) := by
  obtain ⟨announcing, s₁, after, upTo, last, rfl⟩ := run_append.1 ran
  obtain ⟨earlier, reached⟩ := reaches
  obtain ⟨record, silent, idle⟩ := announced_run foreign first upTo
  have status := asleep_run (asleep_boot modules) (run_append.2 ⟨earlier, s, announcing, reached, upTo, rfl⟩)
  have same : .engage ∈ before ++ .load a m :: (mid ++ [.notify a]) ↔ .engage ∈ before ++ mid := by simp
  simp only [same] at status
  by_cases inTime : .engage ∈ before ++ mid
  · rw [if_pos inTime] at status
    rw [if_pos status.1] at record
    obtain ⟨idles, loaded, record', blocked⟩ := blocked_run foreign status record (.announced true) stays last
    obtain ⟨engaging, notDeleted, -⟩ := engaging_run status last
    obtain ⟨dresden, here, -⟩ := engaging.2
    obtain ⟨notLive, lines, all⟩ := blocked.told
    refine ⟨⟨?_, fun given => absurd inTime given.1⟩, fun _ => ⟨⟨loaded, record', notLive, ?_, ?_⟩, engaging.1, by simp [here], notDeleted⟩⟩
    · intro given
      obtain ⟨answer, among, hit⟩ := given
      exact absurd hit ((List.mem_append.1 among).elim (idle answer) (idles answer))
    · rw [List.flatMap_append, silent]
      exact lines
    · rw [List.flatMap_append, silent]
      exact all
  · rw [if_neg inTime] at status
    rw [status.1, if_neg Bool.false_ne_true] at record
    refine ⟨⟨?_, ?_⟩, fun given => absurd given inTime⟩
    · intro given
      obtain ⟨answer, among, hit⟩ := given
      have later : answer ∈ after := (List.mem_append.1 among).resolve_left fun among => idle answer among hit
      refine ⟨inTime, ?_, ran_of_run foreign last ⟨answer, later, hit⟩⟩
      by_contra powerless
      exact powerless_run foreign record (not_exists.1 powerless) stays last answer later hit
    · intro given
      obtain ⟨-, ⟨address, own⟩, ret, called⟩ := given
      obtain ⟨answer, later, hit⟩ := escaped_run foreign record rfl own called last
      exact ⟨answer, List.mem_append_right _ later, hit⟩

/-- Dresden lies at address 1. -/
def sampleSetting : Setting := ⟨1, 0, 1, true⟩

def sampleModule : Module := ⟨bytes "rootkit", .coming, .own 7, 16, 4096, 64⟩

/-- The module at 2 is announced before the notifier is registered, its init function is called later. -/
def sampleBefore : List Event := [.load 1 sampleModule, .notify 1, .load 2 sampleModule, .notify 2]

def samplePost : List Event :=
  [.handle 3, .engage, .handle 3, .initcall 2 0, .handle 3, .engage, .initcall 3 0, .engage, .notify 3, .handle 3]

theorem starts_iff_registered :
    ∃ s answers s', Reaches (step sampleSetting) (.boot fun _ => none) sampleBefore s ∧
      run (step sampleSetting) (.load 3 sampleModule :: ([.engage] ++ [.notify 3]) ++ samplePost) s = .ok (answers, s') ∧
      answers.flatMap (·.linesAbout 3) = sampleModule.told sampleSetting ∧ ¬ ∃ answer ∈ answers, answer.ran = some 3 := by
  obtain ⟨s, reaches, answers, s', ran, gone⟩ : ∃ s, Reaches (step sampleSetting) (.boot fun _ => none) sampleBefore s ∧
      ∃ answers s', run (step sampleSetting) (.load 3 sampleModule :: ([.engage] ++ [.notify 3]) ++ samplePost) s = .ok (answers, s') ∧
        (s'.modules 3).map (fun loaded => (loaded.module.state, loaded.phase)) = some (.going, .notified) :=
    ⟨_, ⟨_, rfl⟩, _, _, rfl, rfl⟩
  obtain ⟨starts, blocks⟩ := starts_iff reaches (by decide) ran (by decide) (by decide)
  obtain ⟨⟨loaded, record, -, -, all⟩, -⟩ := blocks (by decide)
  rw [record, Option.map_some, Option.some.injEq, Prod.mk.injEq] at gone
  refine ⟨s, answers, s', reaches, ran, all gone.1 gone.2, fun given => ?_⟩
  exact absurd (starts.1 given).1 (by decide)

end Dresden
