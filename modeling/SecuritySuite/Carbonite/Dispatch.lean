import SecuritySuite.Carbonite.IntegrityCheck
import SecuritySuite.Carbonite.TaskDump

/-!
# `carbonite.c` and `command-chrdev.c`

`carbonite` dumps every process, and `previous_reason` decides whether an incident is left out. It
is the handler that `carbonite_init` gives the integrity checker and the command that it gives the
character device; the whole system is the checker, the command and what `carbonite` keeps.
-/

namespace Carbonite
set_option autoImplicit false
open CString

def moduleName : List Byte := bytes "the-drip-dry-carbonite"

/-- `_IO('c', 0)`. -/
def ioctlCarboniteCommand : UInt32 := 0x6300

def eperm : Int := 1

def enotty : Int := 25

/-- What `carbonite` keeps. -/
structure Snapshots where
  previousReason : Int
  dumpList : Option DumpList

/-- What a call of `carbonite` does. -/
inductive Outcome where
  | suppressed
  /-- The processes that were walked, and those that were reported as not dumped. -/
  | dumped (processes failed : List Task)

/-- `for_each_process(task)`. -/
def forEachProcess : List (Task × Kmalloc) → Option DumpList → List Task × Option DumpList
  | [], dumpList => ([], dumpList)
  | (task, kmalloc) :: processes, dumpList =>
    let ret := dumpTask kmalloc task dumpList
    let rest := forEachProcess processes ret.2
    (if ret.1 then rest.1 else task :: rest.1, rest.2)

/-- `void carbonite(int why)`, with the processes at the call. -/
def carbonite (why : Int) (processes : List (Task × Kmalloc)) (kept : Snapshots) : Outcome × Snapshots :=
  if kept.previousReason = afterModuleInit ∧ why = afterIncident then
    (.suppressed, { kept with previousReason := why })
  else
    let walked := forEachProcess processes kept.dumpList
    (.dumped (processes.map Prod.fst) walked.1, ⟨why, walked.2⟩)

/-- A `void (*) (int)`. -/
abbrev Handler := Int → List (Task × Kmalloc) → Snapshots → Outcome × Snapshots

/-- The result and the call it makes. -/
def commandIoctl (command : Option Handler) (ioctlNum : UInt32) (capable : Bool) : Int × Option (Call Handler) :=
  if ioctlNum = ioctlCarboniteCommand then
    if !capable then (-eperm, none)
    else (0, command.map fun handler => (handler, onDemand))
  else (-enotty, none)

/-! ## The system -/

/-- The module parameter and the kernel around the module. -/
structure Surroundings where
  sysCallTableCheckInterval : UInt32
  kernel : Kernel
  thisModule : UInt64

/-- The call of `init_sys_call_table_integrity_checker` in `carbonite_init`. -/
def Surroundings.setup (around : Surroundings) : Setup Handler where
  moduleName := some moduleName
  every := around.sysCallTableCheckInterval.toUInt64
  handler := some carbonite
  kernel := around.kernel
  thisModule := around.thisModule

structure System where
  checker : Checker Handler
  command : Option Handler
  kept : Snapshots

/-- The system when `carbonite_init` comes to the integrity checker: `init_command_chrdev` and
`init_task_dump` have succeeded. -/
def System.load (memory : UInt64 → Byte) : System where
  checker := firstLoad memory
  command := some carbonite
  kept := ⟨noReason, some []⟩

/-- An operation, with the processes that a call of `carbonite` finds. -/
inductive Event where
  | checker (op : Op) (processes : List Task)
  | ioctl (ioctlNum : UInt32) (capable : Bool) (processes : List Task)

/-- Make the call, if there is one. Every dump succeeds. -/
def perform (call : Option (Call Handler)) (processes : List Task) (kept : Snapshots) : Option Outcome × Snapshots :=
  match call with
  | none => (none, kept)
  | some (handler, why) =>
    let r := handler why (processes.map fun task => (task, .succeeds)) kept
    (some r.1, r.2)

/-- The answer is the outcome of the call that the event made. -/
def System.step (around : Surroundings) (s : System) : Event → Except Fault (Option Outcome × System)
  | .checker op processes =>
    match Carbonite.step around.setup s.checker op with
    | .error fault => .error fault
    | .ok (call, checker) =>
      let r := perform call processes s.kept
      .ok (r.1, { s with checker := checker, kept := r.2 })
  | .ioctl ioctlNum capable processes =>
    let r := perform (commandIoctl s.command ioctlNum capable).2 processes s.kept
    .ok (r.1, { s with kept := r.2 })

theorem System.step_checker {around : Surroundings} {s s' : System} {op : Op} {processes : List Task}
    {answer : Option Outcome} (ok : s.step around (.checker op processes) = .ok (answer, s')) :
    ∃ call checker, Carbonite.step around.setup s.checker op = .ok (call, checker) ∧
      answer = (perform call processes s.kept).1 ∧
      s' = { s with checker := checker, kept := (perform call processes s.kept).2 } := by
  rw [System.step] at ok
  cases outcome : Carbonite.step around.setup s.checker op with
  | error fault => simp [outcome] at ok
  | ok r =>
    rw [outcome] at ok
    cases ok
    exact ⟨r.1, r.2, rfl, rfl, rfl⟩

theorem commandIoctl_call (handler : Handler) (ioctlNum : UInt32) (capable : Bool) :
    (commandIoctl (some handler) ioctlNum capable).2 =
      if ioctlNum = ioctlCarboniteCommand ∧ capable then some (handler, onDemand) else none := by
  unfold commandIoctl
  by_cases known : ioctlNum = ioctlCarboniteCommand
  · cases capable <;> simp [known]
  · simp [known]

/-! ## What a dispatch does -/

/-- The records of a snapshot. -/
def records (processes : List Task) : DumpList := processes.map fun task => some task.record

theorem forEachProcess_succeeds (processes : List Task) (dumps : DumpList) :
    forEachProcess (processes.map fun task => (task, .succeeds)) (some dumps) =
      ([], some (dumps ++ records processes)) := by
  induction processes generalizing dumps with
  | nil => simp [forEachProcess, records]
  | cons task processes ih =>
    rw [List.map_cons, forEachProcess, dumpTask_succeeds, ih]
    simp [records]

/-- A call that is not suppressed appends a record of every process. -/
theorem perform_dumps (why previous : Int) (processes : List Task) (dumps : DumpList)
    (allowed : ¬ (previous = afterModuleInit ∧ why = afterIncident)) :
    perform (some (carbonite, why)) processes ⟨previous, some dumps⟩ =
      (some (.dumped processes []), ⟨why, some (dumps ++ records processes)⟩) := by
  simp [perform, carbonite, if_neg allowed, forEachProcess_succeeds, Function.comp_def]

/-- A call keeps a list that there is. -/
theorem perform_list {why : Int} {processes : List Task} {kept : Snapshots} (list : kept.dumpList.isSome) :
    (perform (some (carbonite, why)) processes kept).2.dumpList.isSome := by
  obtain ⟨dumps, is⟩ := Option.isSome_iff_exists.1 list
  simp only [perform, carbonite]
  split
  · exact list
  · rw [is, forEachProcess_succeeds]
    rfl

theorem perform_suppressed (processes : List Task) (dumps : DumpList) :
    perform (some (carbonite, afterIncident)) processes ⟨afterModuleInit, some dumps⟩ =
      (some .suppressed, ⟨afterIncident, some dumps⟩) := by
  simp [perform, carbonite]

end Carbonite
