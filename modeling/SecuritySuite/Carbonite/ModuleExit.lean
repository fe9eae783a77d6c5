import SecuritySuite.Carbonite.CheckerTeardown
import SecuritySuite.Carbonite.DumpAllocation
import SecuritySuite.Carbonite.ModuleInit

/-!
# From `carbonite_init` to `carbonite_exit`

A module that is not hidden can be unloaded. In between, ticks, notifications and ioctls dump processes, messages are
logged and workers send them; what goes on while `carbonite_exit` runs comes between its statements, the statements of a
tick between those of the teardown of the checker. When it returns, nothing is registered any more, unless a tick has
overtaken it (`Overtakes`). The header of the dump list is never freed, and neither is a record that did not get a node.
-/

namespace Carbonite.Lifetime
set_option autoImplicit false
open CString Runs

/-! ## Objects -/

/-- The pointers to what the module has allocated, apart from the works of its logger. -/
structure Objects where
  procFileName : Option Nat
  dataToExpose : Option Nat
  /-- The header of `dump_list`. Its nodes are in `dumps`. -/
  dumpList : Option Nat
  dumps : DumpMemory

def Objects.start : Objects := ⟨none, none, none, ⟨none, .empty⟩⟩

/-- NULL is freed without effect. -/
def kfree (object : Option Nat) (heap : Ledger) : Except Ledger.BadFree Ledger :=
  match object with
  | none => .ok heap
  | some object => heap.free object

/-- The record of a node is freed before the node. -/
def nodeObjects (node : DumpNode) : List Nat := (node.record.map Prod.fst).toList ++ [node.object]

namespace Objects

def withHeap (s : Objects) (heap : Ledger) : Objects := { s with dumps := { s.dumps with heap } }

/-- `init_proc_entry`, while there is no entry. -/
def initProcEntry (answers : InitAnswers) (s : Objects) : Bool × Objects :=
  match kmalloc answers.kmallocName s.dumps.heap with
  | (none, heap) => (false, { s.withHeap heap with procFileName := none })
  | (some name, heap) =>
    let s := { s.withHeap heap with procFileName := some name }
    match kmalloc answers.kmallocData s.dumps.heap with
    | (none, heap) => (false, { s.withHeap heap with dataToExpose := none })
    | (some data, heap) => (answers.createCommandEntry, { s.withHeap heap with dataToExpose := some data })

/-- The pointers stay. -/
def destroyProcEntry (s : Objects) : Except Ledger.BadFree Objects := do
  let heap ← kfree s.procFileName s.dumps.heap
  let heap ← kfree s.dataToExpose heap
  return s.withHeap heap

def initCommandChrdev (answers : InitAnswers) (s : Objects) : Except Ledger.BadFree (Bool × Objects) :=
  if answers.registerChrdev < 0 then .ok (false, s)
  else
    let r := s.initProcEntry answers
    if r.1 then .ok (true, r.2) else do
      let s ← r.2.destroyProcEntry
      return (false, s)

/-- The nodes are freed, and the header is not. -/
def destroyTaskDumpList (s : Objects) : Except Ledger.BadFree Objects :=
  match s.dumps.dumpList with
  | none => .ok s
  | some nodes => do
    let heap ← Ledger.freeAll (nodes.flatMap nodeObjects) s.dumps.heap
    return s.withHeap heap

def initTaskDump (answers : InitAnswers) (s : Objects) : Except Ledger.BadFree (Bool × Objects) := do
  let s ← s.destroyTaskDumpList
  match kmalloc answers.kmallocList s.dumps.heap with
  | (none, heap) => return (false, { s with dumpList := none, dumps := ⟨none, heap⟩ })
  | (some header, heap) => return (answers.createDumpEntry, { s with dumpList := some header, dumps := ⟨some [], heap⟩ })

end Objects

/-! ## The module -/

/-- Where `carbonite_exit` stands. -/
inductive ExitStatement where
  | notCalled
  | commandChrdev
  | checker (destroying : Teardown.DestroyStatement)
  | dumpSeqFile
  | taskDumpList
  | logger
  | returned
deriving DecidableEq

structure Module where
  loading : Loading
  objects : Objects
  previousReason : Int
  ticking : Teardown.TickStatement
  exiting : ExitStatement

inductive Fault where
  | logger (fault : LoggerFault)
  | nullCall
  | badFree
  | useAfterFree
  /-- The event is not one that can come next. -/
  | outOfTurn
deriving DecidableEq

def ofLogger {α : Type} : Except LoggerFault α → Except Fault α
  | .ok a => .ok a
  | .error fault => .error (.logger fault)

def ofFree {α : Type} : Except Ledger.BadFree α → Except Fault α
  | .ok a => .ok a
  | .error _ => .error .badFree

/-- `carbonite_init` with its allocations. The checker and the logger do not allocate from this heap. -/
def init (around : Surroundings) (params : Parameters) (answers : InitAnswers) (memory : UInt64 → Byte) :
    Except Fault (Int × Module) := do
  let (code, loading) ← ofLogger (Loading.carboniteInit around params answers (Loading.start memory))
  let (attached, objects) ← ofFree (Objects.start.initCommandChrdev answers)
  if attached then
    let (_, objects) ← ofFree (objects.initTaskDump answers)
    return (code, ⟨loading, objects, noReason, .waiting, .notCalled⟩)
  return (code, ⟨loading, objects, noReason, .waiting, .notCalled⟩)

inductive Event where
  /-- The timer expires, or a tick makes its next statement. `processes` are those that a call of `carbonite` finds. -/
  | tick (processes : List (Task × Kmalloc))
  | moduleEvent (newModule : Carbonite.Module) (processes : List (Task × Kmalloc))
  | ioctl (ioctlNum : UInt32) (capable : Bool) (processes : List (Task × Kmalloc))
  | write (address : UInt64) (stored : List Byte)
  | printLog (around : LogSurroundings) (message : Message)
  /-- A worker takes the pending work at a place. -/
  | ksocketSend (place : Nat)
  /-- The next statement of `carbonite_exit`. -/
  | exit (around : LogSurroundings)

/-- A call that does not dump. -/
def Module.suppresses (m : Module) (why : Int) : Prop := m.previousReason = afterModuleInit ∧ why = afterIncident

instance (m : Module) (why : Int) : Decidable (m.suppresses why) := inferInstanceAs (Decidable (_ ∧ _))

/-- What an event dumped, and the works that were still pending when the logger was destroyed. -/
structure Effect where
  dumped : List (Task × Kmalloc)
  stranded : List RemoteLogWork

def Effect.nothing : Effect := ⟨[], []⟩

/-- The last node of the list has been freed. -/
def Objects.Dangles (s : Objects) : Prop := ∃ node ∈ (s.dumps.dumpList.getD []).getLast?, node.object ∉ s.dumps.heap.live

instance (s : Objects) : Decidable s.Dangles := inferInstanceAs (Decidable (∃ node ∈ (_ : Option DumpNode), _))

/-- `carbonite`, if it is called. A new node is linked behind the last one. -/
def Module.dispatch (m : Module) (call : Option (Call Handler)) (processes : List (Task × Kmalloc)) :
    Except Fault (Effect × Module) :=
  match call with
  | none => .ok (.nothing, m)
  | some (_, why) =>
    if m.suppresses why then .ok (.nothing, { m with previousReason := why })
    else if m.objects.Dangles ∧ processes.any (·.2.node) then .error .useAfterFree
    else
      let dumps := (m.objects.dumps.forEachProcess processes).2
      .ok (⟨processes, []⟩, { m with
        previousReason := why
        objects := { m.objects with dumps }
        loading := { m.loading with dumpList := dumps.records } })

/-- The checker makes a step, and `carbonite` is called if it says so. -/
def Module.check (around : Surroundings) (m : Module) (op : Op) (processes : List (Task × Kmalloc)) :
    Except Fault (Effect × Module) :=
  match Carbonite.step around.setup m.loading.checker op with
  | .error .nullCall => .error .nullCall
  | .ok (call, checker) => { m with loading := { m.loading with checker } }.dispatch call processes

/-- Where `destroy_sys_call_table_integrity_checker` stands. -/
def ExitStatement.destroying : ExitStatement → Teardown.DestroyStatement
  | .notCalled => .unregisterNotifier
  | .commandChrdev => .unregisterNotifier
  | .checker destroying => destroying
  | _ => .returned

/-- The checker beside its teardown. When a tick has returned, the timer may expire again. -/
def Module.teardown (m : Module) : Teardown.State Handler where
  checker := m.loading.checker
  destroying := m.exiting.destroying
  ticking := if m.ticking = .returned then .waiting else m.ticking

/-- The next statement of a tick, and `carbonite` if it is called there. -/
def Module.tick (m : Module) (processes : List (Task × Kmalloc)) : Except Fault (Effect × Module) :=
  let r := Teardown.tickStatement m.teardown
  { m with loading := { m.loading with checker := r.2.checker }, ticking := r.2.ticking }.dispatch r.1 processes

def Module.log (m : Module) (op : LoggerOp) : Except Fault Module := do
  let (_, logger) ← ofLogger (m.loading.logger.step op)
  return { m with loading := { m.loading with logger } }

def destroyDumpSeqFile (s : Loading) : Loading :=
  if s.dumpProcEntry then { s with procEntries := s.procEntries.erase dumpProcEntryName, dumpProcEntry := false } else s

def exitingMessage : List Byte := kernInfo ++ moduleName ++ bytes ":\t[+] Exiting\n"

/-- The next statement of `carbonite_exit`. A module that is hidden has no exit. -/
def Module.exit (params : Parameters) (around : LogSurroundings) (m : Module) : Except Fault (Effect × Module) :=
  match m.exiting with
  | .notCalled =>
    if m.loading.hidden then .error .outOfTurn
    else do
      let m ← m.log (.printLog around (some (.plain exitingMessage)))
      return (.nothing, { m with exiting := .commandChrdev })
  | .commandChrdev => do
    let objects ← ofFree m.objects.destroyProcEntry
    return (.nothing, { m with
      loading := m.loading.destroyCommandChrdev, objects, exiting := .checker .unregisterNotifier })
  | .checker _ =>
    if params.sysCallTableMonitoring = 0 then .ok (.nothing, { m with exiting := .dumpSeqFile })
    else
      let s := Teardown.destroyStatement m.teardown
      .ok (.nothing, { m with
        loading := { m.loading with checker := s.checker }
        exiting := if s.destroying = .returned then .dumpSeqFile else .checker s.destroying })
  | .dumpSeqFile => .ok (.nothing, { m with loading := destroyDumpSeqFile m.loading, exiting := .taskDumpList })
  | .taskDumpList => do
    let objects ← ofFree m.objects.destroyTaskDumpList
    return (.nothing, { m with objects, exiting := .logger })
  | .logger => do
    let stranded := m.loading.logger.pending.map Prod.snd
    let m ← m.log .destroyLogger
    return (⟨[], stranded⟩, { m with exiting := .returned })
  | .returned => .error .outOfTurn

/-- While a file of the device is open, the module is not unloaded. -/
def step (around : Surroundings) (params : Parameters) (m : Module) : Event → Except Fault (Effect × Module)
  | .tick processes => m.tick processes
  | .moduleEvent newModule processes => m.check around (.moduleEvent newModule) processes
  | .write address stored => m.check around (.write address stored) []
  | .ioctl ioctlNum capable processes =>
    if m.exiting = .notCalled then
      m.dispatch (commandIoctl m.loading.commandChrdev.command ioctlNum capable).2 processes
    else .error .outOfTurn
  | .printLog around message => do
    let m ← m.log (.printLog around (some message))
    return (.nothing, m)
  | .ksocketSend place => do
    let m ← m.log (.ksocketSend place)
    return (.nothing, m)
  | .exit around => m.exit params around

/-! ## What is to hold -/

/-- How many statements of `carbonite_exit` are done. -/
def ExitStatement.place : ExitStatement → Nat
  | .notCalled => 0
  | .commandChrdev => 1
  | .checker _ => 2
  | .dumpSeqFile => 3
  | .taskDumpList => 4
  | .logger => 5
  | .returned => 6

/-- A tick arms the timer after `del_timer`, or it calls `carbonite` when the dump list has been destroyed. -/
def Overtakes (m : Module) : Event → Prop
  | .tick _ => Teardown.Rearms m.teardown .tick ∨
      5 ≤ m.exiting.place ∧ m.ticking = .dispatch true ∧ m.loading.checker.incidentHandler.isSome
  | _ => False

instance (m : Module) : (event : Event) → Decidable (Overtakes m event)
  | .tick _ => inferInstanceAs (Decidable (_ ∨ _ ∧ _ ∧ _))
  | .moduleEvent _ _ => inferInstanceAs (Decidable False)
  | .ioctl _ _ _ => inferInstanceAs (Decidable False)
  | .write _ _ => inferInstanceAs (Decidable False)
  | .printLog _ _ => inferInstanceAs (Decidable False)
  | .ksocketSend _ => inferInstanceAs (Decidable False)
  | .exit _ => inferInstanceAs (Decidable False)

/-- The allocation of a record succeeded, and that of its node did not. -/
def Orphaned (process : Task × Kmalloc) : Bool := process.2.dump && !process.2.node

/-- What the module leaves when `carbonite_exit` has returned. -/
structure Leaves (effects : List Effect) (m : Module) : Prop where
  registered : m.loading.LeavesNothing
  /-- The header of the list stays allocated, -/
  header : ∃ header ∈ m.objects.dumps.heap.live, m.objects.dumpList = some header
  /-- and besides it the records that did not get a node. -/
  objects : m.objects.dumps.heap.live.length = 1 + (effects.flatMap Effect.dumped).countP Orphaned
  /-- A work and its buffer stay for each message that no worker has taken. -/
  works : m.loading.logger.heap.live.length = 2 * (effects.flatMap Effect.stranded).length

/-! ## Objects -/

theorem free_perm {object : Nat} {rest : List Nat} {heap : Ledger} (live : heap.live.Perm (object :: rest)) :
    ∃ heap', heap.free object = .ok heap' ∧ heap'.live.Perm rest := by
  obtain ⟨heap', freed, erased, -⟩ := Ledger.free_live (live.mem_iff.2 List.mem_cons_self)
  refine ⟨heap', freed, ?_⟩
  rw [erased]
  simpa using live.erase object

theorem freeAll_perm {objects rest : List Nat} {heap : Ledger} (live : heap.live.Perm (objects ++ rest)) :
    ∃ heap', Ledger.freeAll objects heap = .ok heap' ∧ heap'.live.Perm rest := by
  induction objects generalizing heap with
  | nil => exact ⟨heap, rfl, live⟩
  | cons object objects ih =>
    obtain ⟨heap₁, freed, rest₁⟩ := free_perm live
    obtain ⟨heap', all, rest'⟩ := ih rest₁
    exact ⟨heap', by rw [Ledger.freeAll, freed]; exact all, rest'⟩

/-- A list and what is allocated, behind another one: nodes with their records, and orphaned records. -/
def Grows (s s' : DumpMemory) (orphans : Nat) : Prop :=
  ∀ nodes, s.dumpList = some nodes → ∃ more lost, s'.dumpList = some (nodes ++ more) ∧
    s'.heap.live.Perm (s.heap.live ++ (more.flatMap nodeObjects ++ lost)) ∧ lost.length = orphans

theorem Grows.trans {s s' s'' : DumpMemory} {m n : Nat} (first : Grows s s' m) (second : Grows s' s'' n) :
    Grows s s'' (m + n) := by
  intro nodes list
  obtain ⟨more, lost, list', live, rfl⟩ := first nodes list
  obtain ⟨more', lost', list'', live', rfl⟩ := second _ list'
  refine ⟨more ++ more', lost ++ lost', by rw [list'', List.append_assoc], live'.trans ((live.append_right _).trans ?_),
    by simp⟩
  rw [List.perm_iff_count]
  intro object
  simp only [List.flatMap_append, List.count_append]
  omega

theorem dumpTask_grows (s : DumpMemory) (task : Task) (kmalloc : Kmalloc) :
    Grows s (s.dumpTask kmalloc task).2 (if Orphaned (task, kmalloc) then 1 else 0) := by
  intro nodes list
  obtain ⟨dump, node⟩ := kmalloc
  cases node with
  | false =>
    rw [DumpMemory.dumpTask_fails (by simp) task]
    refine ⟨[], if dump then [s.heap.next] else [], by simpa using list, ?_, ?_⟩
    · cases dump <;> simp [DumpMemory.withRecord]
    · cases dump <;> simp [Orphaned]
  | true =>
    rw [DumpMemory.dumpTask_node list rfl task]
    refine ⟨_, [], rfl, ?_, by simp [Orphaned]⟩
    cases dump <;> simp [DumpMemory.withRecord, nodeObjects]

/-- What a loop over processes adds. -/
theorem forEachProcess_grows (processes : List (Task × Kmalloc)) (s : DumpMemory) :
    Grows s (s.forEachProcess processes).2 (processes.countP Orphaned) := by
  induction processes generalizing s with
  | nil =>
    intro nodes list
    exact ⟨[], [], by simpa [DumpMemory.forEachProcess] using list, by simp [DumpMemory.forEachProcess], rfl⟩
  | cons process processes ih =>
    rw [List.countP_cons, Nat.add_comm]
    exact (dumpTask_grows s process.1 process.2).trans (ih _)

/-- What the module owns, as far as `carbonite_exit` has come, and what nobody owns. -/
structure Owns (place : Nat) (s : Objects) (orphans : Nat) : Prop where
  owned : ∃ name data header nodes lost, s.procFileName = some name ∧ s.dataToExpose = some data ∧
    s.dumpList = some header ∧ s.dumps.dumpList = some nodes ∧ lost.length = orphans ∧
    s.dumps.heap.live.Perm ((if place < 2 then [name, data] else []) ++
      ((if place < 5 then nodes.flatMap nodeObjects else []) ++ header :: lost))

theorem Owns.dump {place : Nat} {s : Objects} {orphans : Nat} (owns : Owns place s orphans) (early : place < 5)
    (processes : List (Task × Kmalloc)) :
    Owns place { s with dumps := (s.dumps.forEachProcess processes).2 } (orphans + processes.countP Orphaned) := by
  obtain ⟨name, data, header, nodes, lost, named, exposed, listed, list, count, live⟩ := owns.owned
  obtain ⟨more, lost', list', live', count'⟩ := forEachProcess_grows processes s.dumps nodes list
  refine ⟨name, data, header, nodes ++ more, lost ++ lost', named, exposed, listed, list', by simp [count, count'],
    live'.trans ((live.append_right _).trans ?_)⟩
  rw [List.perm_iff_count]
  intro object
  simp only [if_pos early, List.flatMap_append, List.count_append, List.count_cons]
  omega

/-- While the checker is torn down, nothing is freed. -/
theorem Owns.on {place : Nat} {s : Objects} {orphans : Nat} (owns : Owns 2 s orphans) (on : place = 2 ∨ place = 3) :
    Owns place s orphans := by
  rcases on with rfl | rfl
  · exact owns
  · exact ⟨owns.owned⟩

theorem Owns.destroyProcEntry {s : Objects} {orphans : Nat} (owns : Owns 1 s orphans) :
    ∃ s', s.destroyProcEntry = .ok s' ∧ Owns 2 s' orphans := by
  obtain ⟨name, data, header, nodes, lost, named, exposed, listed, list, count, live⟩ := owns.owned
  obtain ⟨heap₁, first, live₁⟩ := free_perm live
  obtain ⟨heap₂, second, live₂⟩ := free_perm live₁
  refine ⟨s.withHeap heap₂, ?_, name, data, header, nodes, lost, named, exposed, listed, list, count, live₂⟩
  simp only [Objects.destroyProcEntry, named, exposed, kfree, first, second, bind, Except.bind]
  rfl

theorem Owns.destroyTaskDumpList {s : Objects} {orphans : Nat} (owns : Owns 4 s orphans) :
    ∃ s', s.destroyTaskDumpList = .ok s' ∧ Owns 5 s' orphans := by
  obtain ⟨name, data, header, nodes, lost, named, exposed, listed, list, count, live⟩ := owns.owned
  obtain ⟨heap, freed, rest⟩ := freeAll_perm (show s.dumps.heap.live.Perm (nodes.flatMap nodeObjects ++ header :: lost) from live)
  refine ⟨s.withHeap heap, ?_, name, data, header, nodes, lost, named, exposed, listed, list, count, rest⟩
  rw [Objects.destroyTaskDumpList, list]
  simp only [freed]
  rfl

/-! ## Registrations -/

/-- What is registered apart from the checker, as far as `carbonite_exit` has come. -/
structure Registered (place : Nat) (s : Loading) : Prop where
  device : place < 2 → s.chrdevs = [(s.commandChrdev.commandMajor, s.commandChrdev.chrdevName)] ∧
    ∃ name, s.procEntry.procFileName = some name ∧ s.procEntry.procEntry = true ∧ s.procEntries = [dumpProcEntryName, name]
  removed : 2 ≤ place → s.chrdevs = [] ∧ s.procEntries = if place < 4 then [dumpProcEntryName] else []
  dumpProcEntry : s.dumpProcEntry = decide (place < 4)

variable {around : Surroundings} {params : Parameters} {s : Loading}

theorem Registered.destroyCommandChrdev (registered : Registered 1 s) :
    Registered 2 s.destroyCommandChrdev := by
  obtain ⟨chrdevs, name, named, created, entries⟩ := registered.device (by decide)
  have destroyed : s.destroyCommandChrdev =
      { s with chrdevs := [], procEntries := [dumpProcEntryName], commandChrdev := ⟨0, [], [], none⟩ } := by
    have left : [dumpProcEntryName, name].erase name = [dumpProcEntryName] := by
      by_cases same : dumpProcEntryName = name
      · simp [same]
      · rw [List.erase_cons_tail (by simpa using same), List.erase_cons_head]
    simp [Loading.destroyCommandChrdev, Loading.destroyProcEntry, named, created, entries, chrdevs, left]
  rw [destroyed]
  exact ⟨fun early => absurd early (by decide), fun _ => ⟨rfl, rfl⟩, registered.dumpProcEntry⟩

/-- The teardown of the checker touches none of it. -/
theorem Registered.checker {place : Nat} (registered : Registered 2 s) (on : place = 2 ∨ place = 3) (checker : Checker Handler) :
    Registered place { s with checker } where
  device early := by omega
  removed _ := by
    rw [if_pos (by omega)]
    exact registered.removed (by decide)
  dumpProcEntry := by
    rw [decide_eq_true (show place < 4 by omega)]
    exact registered.dumpProcEntry

theorem Registered.destroyDumpSeqFile (registered : Registered 3 s) :
    Registered 4 (destroyDumpSeqFile s) := by
  obtain ⟨chrdevs, entries⟩ := registered.removed (by decide)
  have there : s.dumpProcEntry = true := registered.dumpProcEntry
  rw [Lifetime.destroyDumpSeqFile, if_pos there]
  refine ⟨fun early => absurd early (by decide), fun _ => ⟨chrdevs, ?_⟩, rfl⟩
  rw [entries]
  simp

/-- The later statements register and remove nothing. -/
theorem Registered.later {place place' : Nat} (registered : Registered place s) (behind : 4 ≤ place)
    (on : place ≤ place') : Registered place' s where
  device early := by omega
  removed _ := by
    rw [if_neg (by omega)]
    simpa [Nat.not_lt.2 behind] using registered.removed (by omega)
  dumpProcEntry := by
    rw [registered.dumpProcEntry, decide_eq_decide]
    omega

/-- The first statement does not either. -/
theorem Registered.first (registered : Registered 0 s) : Registered 1 s where
  device _ := registered.device (by decide)
  removed late := absurd late (by decide)
  dumpProcEntry := registered.dumpProcEntry

/-! ## The checker -/

/-- The checker, as far as it has been torn down. Without monitoring it has never been started. -/
structure Stopped (params : Parameters) (s : Teardown.State Handler) : Prop where
  notifier : 1 ≤ s.destroying.place → s.checker.notifierRegistered = false
  timer : Teardown.Off s
  unmonitored : params.sysCallTableMonitoring = 0 →
    s.checker.timerPending = false ∧ s.checker.notifierRegistered = false ∧ s.ticking = .waiting

section Stopped

variable {c : Teardown.State Handler}

/-- What a step other than a tick can do to the timer and the notifier, and to call. -/
theorem step_keeps {setup : Setup Handler} {c c' : Checker Handler} {op : Op} {call : Option (Call Handler)} (notInit : op ≠ .init)
    (notTick : op ≠ .tick) (ok : Carbonite.step setup c op = .ok (call, c')) :
    c'.timerPending = c.timerPending ∧ c'.notifierRegistered = c.notifierRegistered ∧
      (c.notifierRegistered = false → call = none) := by
  cases step_move ok with
  | init => exact absurd rfl notInit
  | calm pending calm => exact absurd rfl notTick
  | alarm alarms => exact absurd rfl notTick
  | write address stored => exact ⟨rfl, rfl, fun _ => rfl⟩
  | quiet newModule quiet => exact ⟨rfl, rfl, fun _ => rfl⟩
  | live newModule handler announces set =>
    refine ⟨rfl, rfl, fun off => ?_⟩
    have on := announces.1
    rw [off] at on
    cases on

theorem Stopped.checker (stopped : Stopped params c) {checker : Checker Handler}
    (timer : checker.timerPending = c.checker.timerPending)
    (notifier : checker.notifierRegistered = c.checker.notifierRegistered) : Stopped params { c with checker } where
  notifier done := notifier.trans (stopped.notifier done)
  timer deleted := timer.trans (stopped.timer deleted)
  unmonitored off := by
    obtain ⟨timer', notifier', waits⟩ := stopped.unmonitored off
    exact ⟨timer.trans timer', notifier.trans notifier', waits⟩

/-- A tick that does not arm the timer again. -/
theorem Stopped.tick (stopped : Stopped params c) (once : ¬ Teardown.Rearms c .tick) :
    Stopped params (Teardown.tickStatement c).2 := by
  obtain ⟨pending, handler, same⟩ := Teardown.tickStatement_checker c
  refine ⟨?_, ?_, ?_⟩
  · rw [Teardown.tickStatement_destroying, same]
    exact stopped.notifier
  · have ran : Teardown.step c .tick = .ok (Teardown.tickStatement c) := rfl
    exact Teardown.step_off stopped.timer once ran
  · intro off
    obtain ⟨timer, notifier, waits⟩ := stopped.unmonitored off
    have nothing : Teardown.tickStatement c = (none, c) := by simp [Teardown.tickStatement, waits, timer]
    rw [nothing]
    exact ⟨timer, notifier, waits⟩

/-- A statement of the teardown. -/
theorem Stopped.destroy (stopped : Stopped params c) : Stopped params (Teardown.destroyStatement c) where
  notifier done := by
    unfold Teardown.destroyStatement at done ⊢
    cases at_statement : c.destroying with
    | unregisterNotifier => rfl
    | _ => simpa [at_statement] using stopped.notifier (by simp [at_statement, Teardown.DestroyStatement.place])
  timer := by
    have ran : Teardown.step c .destroy = .ok (none, Teardown.destroyStatement c) := rfl
    exact Teardown.step_off stopped.timer (by simp [Teardown.Rearms]) ran
  unmonitored off := by
    obtain ⟨timer, notifier, waits⟩ := stopped.unmonitored off
    unfold Teardown.destroyStatement
    split <;> simp [timer, notifier, waits]

/-- The timer may expire again. -/
theorem Stopped.again (stopped : Stopped params c) :
    Stopped params { c with ticking := if c.ticking = .returned then .waiting else c.ticking } where
  notifier := stopped.notifier
  timer := stopped.timer
  unmonitored off := by
    obtain ⟨timer, notifier, waits⟩ := stopped.unmonitored off
    exact ⟨timer, notifier, by simp [waits]⟩

/-- Only a tick that has found a difference calls the handler. -/
theorem tickStatement_call {call : Call Handler} (called : (Teardown.tickStatement c).1 = some call) :
    c.ticking = .dispatch true ∧ c.checker.incidentHandler.isSome := by
  unfold Teardown.tickStatement at called
  split at called
  case h_6 modified ticking =>
    cases modified with
    | false => cases called
    | true =>
      refine ⟨ticking, ?_⟩
      cases set : c.checker.incidentHandler with
      | none => simp [set] at called
      | some handler => rfl
  all_goals first | cases called | (split at called <;> cases called)

end Stopped

/-! ## Messages -/

/-- The logger, until it is destroyed and after. -/
structure Logs (place : Nat) (l : Logger) (stranded : Nat) : Prop where
  tracked : place < 6 → l.Tracked
  queue : place < 6 → l.sock = l.remoteLogWorkQueue.isSome
  none_yet : place < 6 → stranded = 0
  released : 6 ≤ place → l.sock = false ∧ l.pending = [] ∧ l.heap.live.length = 2 * stranded

section Statics

variable {l l' : Logger}

/-- The socket and the work queue stay. -/
def SameStatics (l l' : Logger) : Prop := l'.sock = l.sock ∧ l'.remoteLogWorkQueue = l.remoteLogWorkQueue

theorem kfree_statics {object : Nat} (ok : l.kfree object = .ok l') : SameStatics l l' := by
  unfold Logger.kfree at ok
  split at ok
  · cases ok
  · cases ok
    exact ⟨rfl, rfl⟩

theorem ksocketSend_statics {work : RemoteLogWork} (ok : l.ksocketSend work = .ok l') : SameStatics l l' := by
  unfold Logger.ksocketSend at ok
  split at ok
  · dsimp only at ok
    split at ok
    · cases ok
    · rename_i freed
      have first := kfree_statics freed
      have second := kfree_statics ok
      exact ⟨second.1.trans first.1, second.2.trans first.2⟩
  · cases ok
    exact ⟨rfl, rfl⟩

theorem queueWork_statics {work : RemoteLogWork} (ok : l.queueWork work = .ok l') : SameStatics l l' := by
  unfold Logger.queueWork at ok
  split at ok
  · cases ok
  · split at ok
    · cases ok
      exact ⟨rfl, rfl⟩
    · cases ok

theorem remoteUdpLog_statics {around : LogSurroundings} {message : List Byte} {answer : Int}
    (ok : l.remoteUdpLog around message = .ok (answer, l')) : SameStatics l l' := by
  unfold Logger.remoteUdpLog at ok
  split at ok
  · cases ok
    exact ⟨rfl, rfl⟩
  split at ok
  · cases ok
    exact ⟨rfl, rfl⟩
  split at ok
  · cases ok
    exact ⟨rfl, rfl⟩
  dsimp only at ok
  split at ok
  · split at ok
    · cases ok
    · rename_i freed
      cases ok
      obtain ⟨sock, queue⟩ := kfree_statics freed
      exact ⟨sock, queue⟩
  · split at ok
    · cases ok
    · rename_i queued
      cases ok
      obtain ⟨sock, queue⟩ := queueWork_statics queued
      exact ⟨sock, queue⟩

theorem printLog_statics {around : LogSurroundings} {message : Option Message} {answer : Int}
    (ok : l.printLog around message = .ok (answer, l')) : SameStatics l l' := by
  unfold Logger.printLog at ok
  split at ok
  · cases ok
    exact ⟨rfl, rfl⟩
  split at ok
  · split at ok
    · cases ok
    · rename_i logged
      cases ok
      exact remoteUdpLog_statics logged
  · cases ok
    exact ⟨rfl, rfl⟩

/-- Without a socket a message goes to the local log only. -/
theorem printLog_released {around : LogSurroundings} {message : Option Message} (released : l.sock = false) {answer : Int}
    (ok : l.printLog around message = .ok (answer, l')) : l' = l := by
  unfold Logger.printLog at ok
  split at ok
  · cases ok
    rfl
  split at ok
  · rw [Logger.remoteUdpLog, if_pos (by simp [released])] at ok
    cases ok
    rfl
  · cases ok
    rfl

end Statics

section Logs

variable {place stranded : Nat} {l l' : Logger}

/-- With a socket there is a work queue, so no message is lost on its way to it. -/
theorem Logs.calm (logs : Logs place l stranded) (running : place < 6) (around : LogSurroundings)
    (message : Option Message) : ¬ l.Loses (.printLog around message) := by
  rintro ⟨-, socket, absent, -⟩
  have there := logs.queue running
  rw [socket, absent] at there
  cases there

theorem Logs.printLog (logs : Logs place l stranded) {around : LogSurroundings} {message : Option Message} {answer : Int}
    (ok : l.step (.printLog around message) = .ok (answer, l')) : Logs place l' stranded where
  tracked running := Logger.step_tracked (logs.tracked running) (logs.calm running around message) ok
  queue running := by
    obtain ⟨sock, queue⟩ := printLog_statics ok
    rw [sock, queue]
    exact logs.queue running
  none_yet := logs.none_yet
  released gone := by
    obtain ⟨released, pending, count⟩ := logs.released gone
    rw [printLog_released released ok]
    exact ⟨released, pending, count⟩

theorem Logs.ksocketSend (logs : Logs place l stranded) {work : Nat} {answer : Int}
    (ok : l.step (.ksocketSend work) = .ok (answer, l')) : Logs place l' stranded where
  tracked running := Logger.step_tracked (logs.tracked running) (by simp [Logger.Loses]) ok
  queue running := by
    have statics : SameStatics l l' := by
      simp only [Logger.step] at ok
      split at ok
      · cases ok
      split at ok
      · cases ok
      · rename_i sent
        cases ok
        obtain ⟨sock, queue⟩ := ksocketSend_statics sent
        exact ⟨sock, queue⟩
    rw [statics.1, statics.2]
    exact logs.queue running
  none_yet := logs.none_yet
  released gone := by
    obtain ⟨-, pending, -⟩ := logs.released gone
    simp [Logger.step, pending] at ok

/-- Until it is destroyed, the logger does not depend on the place of the exit. -/
theorem Logs.running {place' : Nat} (logs : Logs place l stranded) (before : place < 6) (behind : place' < 6) :
    Logs place' l stranded where
  tracked _ := logs.tracked before
  queue _ := logs.queue before
  none_yet _ := logs.none_yet before
  released gone := by omega

/-- The works that are pending are never freed. -/
theorem Logs.destroyLogger (logs : Logs 5 l stranded) :
    ∃ l', l.step .destroyLogger = .ok (0, l') ∧ Logs 6 l' l.pending.length := by
  have tracked := logs.tracked (by decide)
  rcases Logger.destroyLogger_spec tracked with ⟨closed, faults⟩ | ⟨queues, ok⟩
  · have absent : l.remoteLogWorkQueue = none := by
      have there := logs.queue (by decide)
      rw [closed] at there
      exact Option.isSome_eq_false_iff.1 there.symm |> Option.isNone_iff_eq_none.1
    simp only [Logger.destroyLogger, absent] at faults
    cases faults
  · refine ⟨{ l with sock := false, queues, pending := [] }, by simp only [Logger.step, ok], ?_⟩
    refine ⟨fun early => absurd early (by decide), fun early => absurd early (by decide),
      fun early => absurd early (by decide), fun _ => ⟨rfl, rfl, ?_⟩⟩
    have each : ∀ works : List RemoteLogWork, (works.flatMap RemoteLogWork.objects).length = 2 * works.length := by
      intro works
      induction works with
      | nil => rfl
      | cons work works ih =>
        rw [List.flatMap_cons, List.length_append, ih, List.length_cons]
        simp only [RemoteLogWork.objects, List.length_cons, List.length_nil]
        omega
    have live := tracked.live.length_eq
    rw [each, List.length_map] at live
    exact live

end Logs

/-! ## The module -/

/-- The invariant: registrations, objects and messages agree with the place of the exit and with what was dumped and
stranded so far. -/
structure Consistent (params : Parameters) (effects : List Effect) (m : Module) : Prop where
  registered : Registered m.exiting.place m.loading
  stopped : Stopped params m.teardown
  owns : Owns m.exiting.place m.objects ((effects.flatMap Effect.dumped).countP Orphaned)
  logs : Logs m.exiting.place m.loading.logger (effects.flatMap Effect.stranded).length

section Step

variable {effects : List Effect} {effect : Effect} {m m' : Module}

theorem ofLogger_ok {α : Type} {x : Except LoggerFault α} {a : α} (ok : ofLogger x = .ok a) : x = .ok a := by
  cases x with
  | error fault => cases ok
  | ok b =>
    cases ok
    rfl

theorem ofFree_ok {α : Type} {x : Except Ledger.BadFree α} {a : α} (ok : ofFree x = .ok a) : x = .ok a := by
  cases x with
  | error fault => cases ok
  | ok b =>
    cases ok
    rfl

theorem log_ok {op : LoggerOp} (ok : m.log op = .ok m') :
    ∃ answer logger, m.loading.logger.step op = .ok (answer, logger) ∧
      m' = { m with loading := { m.loading with logger } } := by
  unfold Module.log at ok
  cases logged : m.loading.logger.step op with
  | error fault => simp [logged, ofLogger, bind, Except.bind] at ok
  | ok r =>
    rw [logged] at ok
    cases ok
    exact ⟨r.1, r.2, rfl, rfl⟩

theorem quietly {x : Except Fault Module} (ok : (do let m ← x; return (Effect.nothing, m) : Except Fault (Effect × Module)) =
    .ok (effect, m')) : ∃ m, x = .ok m ∧ effect = .nothing ∧ m' = m := by
  cases x with
  | error fault => cases ok
  | ok m =>
    cases ok
    exact ⟨_, rfl, rfl, rfl⟩

/-- An event without a dump. -/
theorem Consistent.quiet (consistent : Consistent params effects m) : Consistent params (effects ++ [.nothing]) m := by
  obtain ⟨registered, stopped, owns, logs⟩ := consistent
  refine ⟨registered, stopped, ?_, ?_⟩
  · simpa [Effect.nothing] using owns
  · simpa [Effect.nothing] using logs

/-- Until the list is destroyed, `carbonite` can be called. -/
theorem Consistent.dispatch (consistent : Consistent params effects m) {call : Option (Call Handler)}
    (early : call ≠ none → m.exiting.place < 5) {processes : List (Task × Kmalloc)}
    (ok : m.dispatch call processes = .ok (effect, m')) : Consistent params (effects ++ [effect]) m' := by
  cases call with
  | none =>
    cases ok
    exact consistent.quiet
  | some call =>
    obtain ⟨handler, why⟩ := call
    rw [Module.dispatch] at ok
    split at ok
    · cases ok
      exact Consistent.quiet ⟨consistent.registered, consistent.stopped, consistent.owns, consistent.logs⟩
    split at ok
    · cases ok
    · cases ok
      obtain ⟨registered, stopped, owns, logs⟩ := consistent
      refine ⟨⟨registered.device, registered.removed, registered.dumpProcEntry⟩, stopped, ?_, ?_⟩
      · have grown := owns.dump (early (by simp)) processes
        simpa using grown
      · simpa using logs

/-- When the dump list has been destroyed, the notifier has been unregistered. -/
theorem ExitStatement.late_destroying (exiting : ExitStatement) (late : 5 ≤ exiting.place) : 1 ≤ exiting.destroying.place := by
  cases exiting <;> simp [ExitStatement.place] at late <;> decide

/-- A notification, or a write. -/
theorem Consistent.check (consistent : Consistent params effects m) (around : Surroundings) (op : Op) (notInit : op ≠ .init)
    (notTick : op ≠ .tick) {processes : List (Task × Kmalloc)} (ok : m.check around op processes = .ok (effect, m')) :
    Consistent params (effects ++ [effect]) m' := by
  unfold Module.check at ok
  cases moved : Carbonite.step around.setup m.loading.checker op with
  | error fault =>
    cases fault
    simp [moved] at ok
  | ok r =>
    obtain ⟨call, checker⟩ := r
    rw [moved] at ok
    obtain ⟨timer, notifier, silent⟩ := step_keeps notInit notTick moved
    have checked : Consistent params effects { m with loading := { m.loading with checker } } :=
      ⟨⟨consistent.registered.device, consistent.registered.removed, consistent.registered.dumpProcEntry⟩,
        consistent.stopped.checker timer notifier, consistent.owns, consistent.logs⟩
    apply checked.dispatch _ ok
    intro called
    -- The notifier is registered, so its removal is still to come.
    by_contra late
    exact called (silent (consistent.stopped.notifier (m.exiting.late_destroying (Nat.not_lt.1 late))))

/-- A statement of a tick that does not overtake the exit. -/
theorem Consistent.tick (consistent : Consistent params effects m) {processes : List (Task × Kmalloc)}
    (calm : ¬ Overtakes m (.tick processes)) (ok : m.tick processes = .ok (effect, m')) :
    Consistent params (effects ++ [effect]) m' := by
  rw [Overtakes, not_or] at calm
  obtain ⟨once, dumps⟩ := calm
  have ticked : Consistent params effects { m with
      loading := { m.loading with checker := (Teardown.tickStatement m.teardown).2.checker }
      ticking := (Teardown.tickStatement m.teardown).2.ticking } := by
    refine ⟨⟨consistent.registered.device, consistent.registered.removed, consistent.registered.dumpProcEntry⟩, ?_,
      consistent.owns, consistent.logs⟩
    have next := (consistent.stopped.tick once).again
    rwa [Teardown.tickStatement_destroying] at next
  apply ticked.dispatch _ ok
  intro called
  by_contra late
  obtain ⟨call, called⟩ := Option.ne_none_iff_exists'.1 called
  obtain ⟨stands, set⟩ := tickStatement_call called
  apply dumps
  refine ⟨by simpa using late, ?_, set⟩
  unfold Module.teardown at stands
  dsimp only at stands
  split at stands
  · cases stands
  · exact stands

theorem destroyCommandChrdev_logger (s : Loading) : s.destroyCommandChrdev.logger = s.logger := by
  unfold Loading.destroyCommandChrdev Loading.destroyProcEntry
  dsimp only
  split
  · split
    · rfl
    · rfl
  · rfl

theorem destroyCommandChrdev_checker (s : Loading) : s.destroyCommandChrdev.checker = s.checker := by
  unfold Loading.destroyCommandChrdev Loading.destroyProcEntry
  dsimp only
  split
  · split
    · rfl
    · rfl
  · rfl

theorem destroyDumpSeqFile_checker (s : Loading) : (destroyDumpSeqFile s).checker = s.checker := by
  unfold destroyDumpSeqFile
  split
  · rfl
  · rfl

theorem destroyDumpSeqFile_logger (s : Loading) : (destroyDumpSeqFile s).logger = s.logger := by
  unfold destroyDumpSeqFile
  split
  · rfl
  · rfl

/-- A module that is not hidden, and whose exit has not returned. -/
def Module.Exitable (m : Module) : Prop := m.exiting ≠ .returned ∧ (m.exiting = .notCalled → m.loading.hidden = false)

/-- No statement of `carbonite_exit` faults. -/
theorem Consistent.exit_spec (consistent : Consistent params effects m) (exitable : m.Exitable) (around : LogSurroundings) :
    ∃ effect m', m.exit params around = .ok (effect, m') ∧ Consistent params (effects ++ [effect]) m' := by
  obtain ⟨registered, stopped, owns, logs⟩ := consistent
  unfold Module.exit
  cases exiting : m.exiting with
  | notCalled =>
    rw [exiting] at registered owns logs
    obtain ⟨answer, logger, logged, -⟩ :=
      Logger.printLog_tracked (logs.tracked (by decide)) (logs.calm (by decide) around (some (.plain exitingMessage)))
    have next : m.log (.printLog around (some (.plain exitingMessage))) = .ok { m with loading := { m.loading with logger } } := by
      simp only [Module.log, Logger.step, logged]
      rfl
    have logs' := logs.printLog (show m.loading.logger.step (.printLog around (some (.plain exitingMessage))) = _ from logged)
    refine ⟨.nothing, { m with loading := { m.loading with logger }, exiting := .commandChrdev }, ?_, ?_⟩
    · simp only [exitable.2 exiting, next]
      rfl
    · apply Consistent.quiet
      have first := registered.first
      refine ⟨⟨first.device, first.removed, first.dumpProcEntry⟩, ?_, ?_, ?_⟩
      · rw [Module.teardown, exiting] at stopped
        exact stopped
      · exact ⟨owns.owned⟩
      · exact logs'.running (by decide) (show 1 < 6 by decide)
  | commandChrdev =>
    rw [exiting] at registered owns logs
    obtain ⟨objects, destroyed, owns'⟩ := owns.destroyProcEntry
    refine ⟨.nothing, { m with
      loading := m.loading.destroyCommandChrdev, objects, exiting := .checker .unregisterNotifier }, ?_, ?_⟩
    · simp only [destroyed]
      rfl
    · apply Consistent.quiet
      refine ⟨registered.destroyCommandChrdev, ?_, owns', ?_⟩
      · rw [Module.teardown, destroyCommandChrdev_checker]
        rw [Module.teardown, exiting] at stopped
        exact stopped
      · rw [destroyCommandChrdev_logger]
        exact logs.running (by decide) (show 2 < 6 by decide)
  | checker destroying =>
    rw [exiting] at registered owns logs
    dsimp only
    split
    case isTrue off =>
      refine ⟨.nothing, _, rfl, Consistent.quiet ⟨registered.checker (.inr rfl) _, ?_, ⟨owns.owned⟩,
        logs.running (show 2 < 6 by decide) (show 3 < 6 by decide)⟩⟩
      obtain ⟨timer, notifier, waits⟩ := stopped.unmonitored off
      exact ⟨fun _ => notifier, fun _ => timer, fun _ => ⟨timer, notifier, waits⟩⟩
    case isFalse =>
      refine ⟨.nothing, _, rfl, ?_⟩
      generalize next : (if (Teardown.destroyStatement m.teardown).destroying = .returned then .dumpSeqFile
        else .checker (Teardown.destroyStatement m.teardown).destroying : ExitStatement) = behind
      have stands : behind.destroying = (Teardown.destroyStatement m.teardown).destroying := by
        rw [← next]
        split <;> simp [ExitStatement.destroying, *]
      have place : behind.place = 2 ∨ behind.place = 3 := by
        rw [← next]
        split <;> simp [ExitStatement.place]
      have before : behind.place < 6 := by omega
      apply Consistent.quiet
      refine ⟨registered.checker place _, ?_, owns.on place, logs.running (show 2 < 6 by decide) before⟩
      rw [Module.teardown, stands]
      have torn := stopped.destroy
      refine ⟨torn.notifier, torn.timer, fun off => ?_⟩
      obtain ⟨timer, notifier, waits⟩ := torn.unmonitored off
      rw [Teardown.destroyStatement_ticking] at waits
      exact ⟨timer, notifier, waits⟩
  | dumpSeqFile =>
    rw [exiting] at registered owns logs
    refine ⟨.nothing, _, rfl, Consistent.quiet ⟨registered.destroyDumpSeqFile, ?_, ⟨owns.owned⟩, ?_⟩⟩
    · rw [Module.teardown, destroyDumpSeqFile_checker]
      rw [Module.teardown, exiting] at stopped
      exact stopped
    · rw [destroyDumpSeqFile_logger]
      exact logs.running (by decide) (show 4 < 6 by decide)
  | taskDumpList =>
    rw [exiting] at registered owns logs
    obtain ⟨objects, destroyed, owns'⟩ := owns.destroyTaskDumpList
    refine ⟨.nothing, { m with objects, exiting := .logger }, ?_, ?_⟩
    · simp only [destroyed]
      rfl
    · rw [Module.teardown, exiting] at stopped
      exact Consistent.quiet ⟨registered.later (by decide) (by simp [ExitStatement.place]), stopped, owns',
        logs.running (by decide) (show 5 < 6 by decide)⟩
  | logger =>
    rw [exiting] at registered owns logs
    obtain ⟨logger, destroyed, logs'⟩ := logs.destroyLogger
    have next : m.log .destroyLogger = .ok { m with loading := { m.loading with logger } } := by
      simp only [Module.log, destroyed]
      rfl
    have nothing := logs.none_yet (by decide)
    have last : Registered 6 m.loading := registered.later (by decide) (by decide)
    have same : Owns 6 m.objects ((effects.flatMap Effect.dumped).countP Orphaned) := ⟨owns.owned⟩
    refine ⟨⟨[], m.loading.logger.pending.map Prod.snd⟩,
      { m with loading := { m.loading with logger }, exiting := .returned }, ?_, ?_, ?_, ?_, ?_⟩
    · simp only [next]
      rfl
    · exact ⟨last.device, last.removed, last.dumpProcEntry⟩
    · rw [Module.teardown, exiting] at stopped
      exact stopped
    · simpa [ExitStatement.place] using same
    · simpa [nothing, ExitStatement.place] using logs'
  | returned => exact absurd exiting exitable.1

theorem Consistent.exit (consistent : Consistent params effects m) {around : LogSurroundings}
    (ok : m.exit params around = .ok (effect, m')) : Consistent params (effects ++ [effect]) m' := by
  have exitable : m.Exitable := by
    constructor
    · intro returned
      simp [Module.exit, returned] at ok
    · intro notCalled
      cases hidden : m.loading.hidden with
      | false => rfl
      | true => simp [Module.exit, notCalled, hidden] at ok
  obtain ⟨effect', m'', next, kept⟩ := consistent.exit_spec exitable around
  rw [next] at ok
  cases ok
  exact kept

theorem Consistent.step (consistent : Consistent params effects m) {event : Event} (calm : ¬ Overtakes m event)
    (ok : step around params m event = .ok (effect, m')) : Consistent params (effects ++ [effect]) m' := by
  cases event with
  | tick processes => exact consistent.tick calm ok
  | moduleEvent newModule processes => exact consistent.check around (.moduleEvent newModule) (by simp) (by simp) ok
  | write address stored =>
    have ok : m.check around (.write address stored) [] = .ok (effect, m') := ok
    exact consistent.check around (.write address stored) (by simp) (by simp) ok
  | ioctl ioctlNum capable processes =>
    simp only [Lifetime.step] at ok
    split at ok
    · next notCalled => exact consistent.dispatch (fun _ => by rw [notCalled]; decide) ok
    · cases ok
  | printLog around message =>
    obtain ⟨m₁, logged, rfl, rfl⟩ := quietly ok
    obtain ⟨answer, logger, next, rfl⟩ := log_ok logged
    exact Consistent.quiet ⟨⟨consistent.registered.device, consistent.registered.removed,
      consistent.registered.dumpProcEntry⟩, consistent.stopped, consistent.owns, consistent.logs.printLog next⟩
  | ksocketSend place =>
    obtain ⟨m₁, logged, rfl, rfl⟩ := quietly ok
    obtain ⟨answer, logger, next, rfl⟩ := log_ok logged
    exact Consistent.quiet ⟨⟨consistent.registered.device, consistent.registered.removed,
      consistent.registered.dumpProcEntry⟩, consistent.stopped, consistent.owns, consistent.logs.ksocketSend next⟩
  | exit around => exact consistent.exit ok

end Step

/-! ## Initialization -/

def chrdevName : List Byte := bytes "command-" ++ text (strncpy moduleNameLen moduleName)

/-- The module when its first two components have been initialized. -/
def dumping (answers : InitAnswers) (memory : UInt64 → Byte) : Loading :=
  { Loading.start memory with
    chrdevs := [(answers.registerChrdev, chrdevName)]
    procEntries := [dumpProcEntryName, chrdevName ++ bytes "-major"]
    commandChrdev := ⟨answers.registerChrdev, text (strncpy moduleNameLen moduleName), chrdevName, some carbonite⟩
    procEntry := ⟨some (chrdevName ++ bytes "-major"), some (signedDecimal answers.registerChrdev.toInt), true⟩
    dumpList := some []
    dumpProcEntry := true }

theorem dumping_eq {answers : InitAnswers} (memory : UInt64 → Byte) (attaches : ¬ Loading.ChrdevFails answers)
    (starts : Loading.TaskDumpStarts answers) : ∃ s, Loading.Dumping answers memory s (dumping answers memory) := by
  simp only [Loading.ChrdevFails, not_or, Bool.not_eq_false] at attaches
  obtain ⟨major, named, filled, created⟩ := attaches
  obtain ⟨listed, entry⟩ := starts
  have device : (Loading.start memory).initCommandChrdev answers (some moduleName) (some carbonite) =
      (true, { dumping answers memory with procEntries := [chrdevName ++ bytes "-major"], dumpList := none, dumpProcEntry := false }) := by
    simp only [Loading.initCommandChrdev, if_neg major, Loading.initProcEntry, Loading.start, named, filled, created]
    rfl
  refine ⟨_, device, ?_, by simp [dumping], rfl, rfl, rfl⟩
  simp only [Loading.initTaskDump, listed, entry]
  rfl

/-- The objects of the first two components. -/
theorem init_objects {answers : InitAnswers} (attaches : ¬ Loading.ChrdevFails answers)
    (starts : Loading.TaskDumpStarts answers) : ∃ s s', Objects.start.initCommandChrdev answers = .ok (true, s) ∧
      s.initTaskDump answers = .ok (true, s') ∧ Owns 0 s' 0 := by
  simp only [Loading.ChrdevFails, not_or, Bool.not_eq_false] at attaches
  obtain ⟨major, named, filled, created⟩ := attaches
  obtain ⟨listed, entry⟩ := starts
  refine ⟨⟨some 0, some 1, none, ⟨none, Ledger.empty.alloc.2.alloc.2⟩⟩,
    ⟨some 0, some 1, some 2, ⟨some [], Ledger.empty.alloc.2.alloc.2.alloc.2⟩⟩, ?_, ?_,
    0, 1, 2, [], [], rfl, rfl, rfl, rfl, rfl, .refl _⟩
  · simp only [Objects.initCommandChrdev, if_neg major, Objects.initProcEntry, Objects.start, Carbonite.kmalloc, named,
      filled, created]
    rfl
  · simp only [Objects.initTaskDump, Objects.destroyTaskDumpList, Carbonite.kmalloc, listed, entry]
    rfl

/-- With the device and the dump file, nothing of the exit is done. -/
theorem dumping_registered (answers : InitAnswers) (memory : UInt64 → Byte) : Registered 0 (dumping answers memory) where
  device _ := ⟨rfl, _, rfl, rfl, rfl⟩
  removed late := absurd late (by decide)
  dumpProcEntry := rfl

theorem loaded_logs : Logs 0 .loaded 0 where
  tracked _ := Logger.loaded_tracked
  queue _ := rfl
  none_yet _ := rfl
  released late := absurd late (by decide)

theorem printLog_ok {answers : InitAnswers} {message : Message} {s s' : Loading} (ok : s.printLog answers message = .ok s') :
    ∃ answer logger, s.logger.step (.printLog (answers.logged message.printed) (some message)) = .ok (answer, logger) ∧
      s' = { s with logger } := by
  unfold Loading.printLog at ok
  split at ok
  · cases ok
  · next r logged =>
      cases ok
      exact ⟨r.1, r.2, logged, rfl⟩

/-- A logger that is initialized has a work queue if it has a socket. -/
theorem initLogger_logs {ip : Option (List Byte)} {socket workqueue : Bool}
    (starts : (Logger.loaded.initLogger ip socket workqueue).1 ≠ 0) :
    Logs 0 (Logger.loaded.initLogger ip socket workqueue).2 0 where
  tracked _ := Logger.initLogger_tracked Logger.loaded_tracked ip socket workqueue
  queue _ := by
    unfold Logger.initLogger at starts ⊢
    cases ip with
    | none => rfl
    | some ip =>
      cases socket with
      | false => exact absurd rfl starts
      | true =>
        cases workqueue with
        | false => exact absurd rfl starts
        | true => rfl
  none_yet _ := rfl
  released late := absurd late (by decide)

theorem bind_ok {α β ε : Type} {x : Except ε α} {next : α → Except ε β} {b : β} (ok : (x >>= next) = .ok b) :
    ∃ a, x = .ok a ∧ next a = .ok b := by
  cases x with
  | error fault => cases ok
  | ok a => exact ⟨a, rfl, ok⟩

/-- The last part of a successful initialization. -/
theorem startLogger_logs {answers : InitAnswers} {s s' : Loading} (quiet : s.logger = .loaded)
    (starts : s.startLogger params answers = .ok (0, s')) :
    Logs 0 s'.logger 0 ∧ ∃ logger hidden, s' = { s with logger, hidden } := by
  unfold Loading.startLogger at starts
  rw [quiet] at starts
  dsimp only at starts
  split at starts
  · obtain ⟨s₁, -, failed⟩ := bind_ok starts
    cases failed
  · next works =>
      obtain ⟨s₁, logged, starts⟩ := bind_ok starts
      obtain ⟨answer, logger, next, rfl⟩ := printLog_ok logged
      have logs := (initLogger_logs works).printLog next
      split at starts
      · obtain ⟨s₂, logged', done⟩ := bind_ok starts
        obtain ⟨answer', logger', next', rfl⟩ := printLog_ok logged'
        cases done
        exact ⟨logs.printLog next', logger', true, rfl⟩
      · obtain ⟨s₂, logged', done⟩ := bind_ok starts
        obtain ⟨answer', logger', next', rfl⟩ := printLog_ok logged'
        cases done
        exact ⟨logs.printLog next', logger', s.hidden, rfl⟩

/-- What succeeds when `carbonite_init` does. -/
theorem carboniteInit_zero {answers : InitAnswers} {memory : UInt64 → Byte} {s : Loading}
    (succeeds : Loading.carboniteInit around params answers (.start memory) = .ok (0, s)) :
    ¬ Loading.ChrdevFails answers ∧ Loading.TaskDumpStarts answers ∧
      (params.sysCallTableMonitoring ≠ 0 → Loading.CheckerStarts around) := by
  have abandoned (abandons : Loading.Abandons around params answers memory) : False := by
    obtain ⟨code, s', returned, negative, -⟩ := abandons
    rw [succeeds] at returned
    cases returned
    cases negative
  have attaches : ¬ Loading.ChrdevFails answers := by
    intro fails
    rcases Loading.initCommandChrdev_spec answers memory with ⟨-, s₁, failed, -, quiet⟩ | ⟨starts, -⟩
    · simp only [Loading.carboniteInit, bind, Except.bind, Loading.printLog_local Loading.start_logger, failed,
        Loading.printLog_local quiet] at succeeds
      cases succeeds
    · exact starts fails
  have dumps : Loading.TaskDumpStarts answers := by
    by_contra fails
    exact abandoned (Loading.carboniteInit_taskDump attaches fails)
  refine ⟨attaches, dumps, fun on => ?_⟩
  by_contra fails
  obtain ⟨s₁, d⟩ := dumping_eq memory attaches dumps
  exact abandoned (Loading.carboniteInit_checker d on fails)

/-- A successful initialization leaves the module registered, with a logger that works, and with a checker if it is to
monitor. -/
theorem carboniteInit_registered {answers : InitAnswers} {memory : UInt64 → Byte} {s : Loading}
    (succeeds : Loading.carboniteInit around params answers (.start memory) = .ok (0, s)) :
    Registered 0 s ∧ Logs 0 s.logger 0 ∧
      (params.sysCallTableMonitoring = 0 → s.checker.timerPending = false ∧ s.checker.notifierRegistered = false) := by
  obtain ⟨attaches, dumps, starts⟩ := carboniteInit_zero succeeds
  obtain ⟨s₁, d⟩ := dumping_eq memory attaches dumps
  have registered : Registered 0 (dumping answers memory) := dumping_registered answers memory
  by_cases off : params.sysCallTableMonitoring = 0
  · rw [Loading.carboniteInit_unmonitored d off] at succeeds
    cases succeeds
    exact ⟨registered, loaded_logs, fun _ => ⟨rfl, rfl⟩⟩
  · have begins := (initSysCallTableIntegrityChecker_starts around memory).2 (starts off)
    have comes : Loading.carboniteInit around params answers (.start memory) = Loading.startLogger params answers
        { dumping answers memory with checker := (initSysCallTableIntegrityChecker around.setup (firstLoad memory)).2 } := by
      have quiet (checker : Checker Handler) : ({ dumping answers memory with checker } : Loading).logger = .loaded := rfl
      simp only [Loading.carboniteInit, bind, Except.bind, Loading.printLog_local Loading.start_logger, d.device,
        Loading.printLog_local d.quiet, d.dump, Loading.printLog_local d.logger, if_neg off, d.checker, begins,
        Loading.printLog_local (quiet _)]
      rfl
    rw [comes] at succeeds
    obtain ⟨logs, logger, hidden, rfl⟩ := startLogger_logs rfl succeeds
    exact ⟨⟨registered.device, registered.removed, registered.dumpProcEntry⟩, logs, fun on => absurd on off⟩

theorem init_consistent {answers : InitAnswers} {memory : UInt64 → Byte} {m : Module}
    (succeeds : init around params answers memory = .ok (0, m)) : Consistent params [] m := by
  unfold init at succeeds
  obtain ⟨⟨code, loading⟩, loaded, succeeds⟩ := bind_ok succeeds
  have loaded := ofLogger_ok loaded
  obtain ⟨⟨attached, objects⟩, allocated, succeeds⟩ := bind_ok succeeds
  have allocated := ofFree_ok allocated
  have zero : code = 0 := by
    dsimp only at succeeds
    split at succeeds
    · obtain ⟨r, -, done⟩ := bind_ok succeeds
      cases done
      rfl
    · cases succeeds
      rfl
  subst zero
  obtain ⟨attaches, dumps, -⟩ := carboniteInit_zero loaded
  obtain ⟨registered, logs, unmonitored⟩ := carboniteInit_registered loaded
  obtain ⟨s, s', first, second, owns⟩ := init_objects attaches dumps
  rw [first] at allocated
  cases allocated
  dsimp only at succeeds
  rw [if_pos rfl, second] at succeeds
  cases succeeds
  refine ⟨registered, ⟨fun begun => absurd (show 1 ≤ 0 from begun) (by decide),
    fun deleted => absurd (show 2 ≤ 0 from deleted) (by decide), fun off => ?_⟩, owns, logs⟩
  obtain ⟨timer, notifier⟩ := unmonitored off
  exact ⟨timer, notifier, rfl⟩

/-- **How the module is unloaded**, in a run in which no tick overtakes the exit: no statement of the exit of a module that
is not hidden faults. When it has returned, nothing is registered; the header of the dump list is still allocated, with
every record that did not get a node and two objects for each message that no worker had taken when the logger was
destroyed; nothing else is. -/
theorem unloads {answers : InitAnswers} {memory : UInt64 → Byte} {m₀ m : Module}
    (succeeds : init around params answers memory = .ok (0, m₀)) {events : List Event} {effects : List Effect}
    (ran : run (step around params) events m₀ = .ok (effects, m))
    (calm : Along (step around params) (fun m event => ¬ Overtakes m event) events m₀) :
    (m.Exitable → ∀ found, ∃ effect m', step around params m (.exit found) = .ok (effect, m')) ∧
      (m.exiting = .returned → Leaves effects m) := by
  have consistent : Consistent params effects m := by
    refine history_of_run (fun events effects m => Along (step around params) (fun m event => ¬ Overtakes m event) events m₀ →
      Consistent params effects m) (fun _ => init_consistent succeeds) ?_ ran calm
    intro events effects m event effect m' before kept next calm
    obtain ⟨calm, here⟩ := (along_snoc ⟨effects, before⟩).1 calm
    exact (kept calm).step here next
  constructor
  · intro exitable found
    obtain ⟨effect, m', next, -⟩ := consistent.exit_spec exitable found
    exact ⟨effect, m', next⟩
  intro gone
  obtain ⟨registered, stopped, owns, logs⟩ := consistent
  rw [gone] at registered owns logs
  obtain ⟨chrdevs, entries⟩ := registered.removed (by decide)
  have torn : m.teardown.destroying = .returned := by rw [Module.teardown, gone]; rfl
  have notifier := stopped.notifier (by rw [torn]; decide)
  have timer := stopped.timer (show 2 ≤ m.teardown.destroying.place by rw [torn]; decide)
  obtain ⟨socket, -, works⟩ := logs.released (by decide)
  obtain ⟨name, data, header, nodes, lost, -, -, listed, -, count, live⟩ := owns.owned
  have live : m.objects.dumps.heap.live.Perm (header :: lost) := live
  refine ⟨⟨chrdevs, entries, timer, notifier, socket⟩, ⟨header, live.mem_iff.2 List.mem_cons_self, listed⟩, ?_, works⟩
  rw [live.length_eq, List.length_cons, count, Nat.add_comm]

/-- A dump on demand, whose node cannot be allocated, and the exit of a module that does not hide. The timer expires in front
of `del_timer`, and the tick goes on when the teardown of the checker is at its end. -/
def demandAndExit : List Event :=
  [.ioctl ioctlCarboniteCommand true [(DumpMemory.initTask, ⟨true, false⟩)], .exit Logger.noonSurroundings, .tick []] ++
    List.replicate 8 (.exit Logger.noonSurroundings) ++ List.replicate 6 (.tick []) ++
      List.replicate 3 (.exit Logger.noonSurroundings)

theorem demandAndExit_runs : ∃ m₀ effects m, init smallSurroundings ⟨1, none, 0⟩ Loading.allAnswers (fun _ => 0) = .ok (0, m₀) ∧
    run (step smallSurroundings ⟨1, none, 0⟩) demandAndExit m₀ = .ok (effects, m) ∧ m.exiting = .returned ∧
      m.ticking = .returned ∧ m.objects.dumps.heap.live.length = 2 ∧
        Along (step smallSurroundings ⟨1, none, 0⟩) (fun m event => ¬ Overtakes m event) demandAndExit m₀ :=
  ⟨_, _, _, rfl, rfl, rfl, rfl, rfl, by decide +kernel⟩

/-- It leaves the header and one record. -/
theorem unloads_demandAndExit : ∃ effects m, Leaves effects m ∧ m.ticking = .returned ∧
    m.objects.dumps.heap.live.length = 2 := by
  obtain ⟨m₀, effects, m, succeeds, ran, gone, ticked, two, calm⟩ := demandAndExit_runs
  exact ⟨effects, m, (unloads succeeds ran calm).2 gone, ticked, two⟩

/-- The tick has tested the interval when the teardown begins. -/
def overtakenExit : List Event :=
  .exit Logger.noonSurroundings :: (List.replicate 7 (.tick []) ++ List.replicate 8 (.exit Logger.noonSurroundings)) ++
    .tick [] :: List.replicate 3 (.exit Logger.noonSurroundings)

/-- It arms the timer again, which is pending when the module is gone. -/
theorem overtakenExit_runs : ∃ m₀ effects m, init smallSurroundings ⟨1, none, 0⟩ Loading.allAnswers (fun _ => 0) = .ok (0, m₀) ∧
    run (step smallSurroundings ⟨1, none, 0⟩) overtakenExit m₀ = .ok (effects, m) ∧ m.exiting = .returned ∧
      m.loading.checker.timerPending = true :=
  ⟨_, _, _, rfl, rfl, rfl, rfl⟩

end Carbonite.Lifetime
