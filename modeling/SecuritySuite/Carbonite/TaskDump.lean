import SecuritySuite.Foundation.CString

/-!
# `task-utils.c`, `task-dump-list.c` and `task-dump.c`

A record of one process and the list the records are appended to. A node can hold NULL: a
record that could not be allocated still gets one.
-/

namespace Carbonite
set_option autoImplicit false
open CString

def taskCommLen : Nat := 16

def maxStateLen : Nat := 2

/-- `TASK_REPORT`, the state bits of the kernel that are shown. -/
def taskReport : UInt64 := 15

/-- What a dump reads of a `struct task_struct`. -/
structure Task where
  pid : Int32
  uid : UInt32
  gid : UInt32
  state : UInt64
  comm : Memory
  /-- `start_time.tv_sec` and `start_time.tv_nsec`. -/
  startSeconds : Int64
  startNanoseconds : Int64

structure TaskDump where
  pid : Int32
  uid : UInt32
  gid : UInt32
  state : List Byte
  comm : List Byte
  startTime : Int64
deriving DecidableEq

/-! ## Task states -/

def taskStateArray : List String := ["R", "S", "D", "Z", "T", "W"]

/-- The index that the `while (state)` loop has reached when no bit is left. -/
def stateIndex (state : Nat) : Nat :=
  if state = 0 then 0 else stateIndex (state / 2) + 1

/-- `_get_task_state`. -/
def taskState (task : Task) : List Byte :=
  bytes (taskStateArray.getD (stateIndex (task.state &&& taskReport).toNat) "")

def getTaskState (task : Task) : List Byte := strncpy maxStateLen (taskState task)

/-! ## Records and their list -/

/-- Which allocations of one dump succeed. -/
structure Kmalloc where
  dump : Bool
  node : Bool

def Kmalloc.succeeds : Kmalloc := ⟨true, true⟩

/-- The record of a process. -/
def Task.record (task : Task) : TaskDump where
  pid := task.pid
  uid := task.uid
  gid := task.gid
  state := getTaskState task
  comm := strncpy taskCommLen task.comm
  startTime := task.startSeconds * 1000000000 + task.startNanoseconds

def initTaskDumpFromTask (kmalloc : Kmalloc) (task : Option Task) : Option TaskDump :=
  match task with
  | none => none
  | some task => if kmalloc.dump then some task.record else none

/-- The pointers of the nodes from `head` to `tail`. -/
abbrev DumpList := List (Option TaskDump)

def addTaskDumpToList (kmalloc : Kmalloc) (list : Option DumpList) (dump : Option TaskDump) : Bool × Option DumpList :=
  match list with
  | none => (false, none)
  | some list => if kmalloc.node then (true, some (list ++ [dump])) else (false, some list)

def getSize (list : Option DumpList) : Int :=
  match list with
  | none => 0
  | some list => list.length

/-- The record at an index; `none` is NULL, in the list or outside of it. -/
def getTaskDump (list : DumpList) (n : Int) : Option TaskDump :=
  if 0 ≤ n then list[n.toNat]?.join else none

def dumpTask (kmalloc : Kmalloc) (task : Task) (dumpList : Option DumpList) : Bool × Option DumpList :=
  addTaskDumpToList kmalloc dumpList (initTaskDumpFromTask kmalloc (some task))

theorem dumpTask_succeeds (task : Task) (dumps : DumpList) :
    dumpTask .succeeds task (some dumps) = (true, some (dumps ++ [some task.record])) := rfl

end Carbonite
