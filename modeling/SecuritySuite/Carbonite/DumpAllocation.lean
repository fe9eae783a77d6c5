import SecuritySuite.Carbonite.Dispatch
import SecuritySuite.Foundation.Ledger

/-!
# Records and nodes as allocations

`dump_task` with the objects that it allocates. The record and its node are allocated in two functions, and the
second is called with whatever the first returned. What is on the list and what `carbonite` reports is as in
`Dispatch`; the ledger says what stays allocated.
-/

namespace Carbonite
set_option autoImplicit false
open CString

/-- A node and its record, with the objects that hold them. -/
structure DumpNode where
  object : Nat
  record : Option (Nat × TaskDump)
deriving DecidableEq

/-- `dump_list`, and what is allocated. -/
structure DumpMemory where
  dumpList : Option (List DumpNode)
  heap : Ledger

/-- The pointer to a new object, unless the allocation fails. -/
def kmalloc (succeeds : Bool) (heap : Ledger) : Option Nat × Ledger :=
  if succeeds then (some heap.alloc.1, heap.alloc.2) else (none, heap)

namespace DumpMemory

def initTaskDumpFromTask (kmallocDump : Bool) (task : Option Task) (heap : Ledger) : Option (Nat × TaskDump) × Ledger :=
  match task with
  | none => (none, heap)
  | some task =>
    match kmalloc kmallocDump heap with
    | (none, heap) => (none, heap)
    | (some object, heap) => (some (object, task.record), heap)

def initTaskDumpNode (kmallocNode : Bool) (taskDump : Option (Nat × TaskDump)) (heap : Ledger) : Option DumpNode × Ledger :=
  match kmalloc kmallocNode heap with
  | (none, heap) => (none, heap)
  | (some object, heap) => (some ⟨object, taskDump⟩, heap)

def addTaskDumpToList (kmallocNode : Bool) (list : Option (List DumpNode)) (dump : Option (Nat × TaskDump))
    (heap : Ledger) : Bool × DumpMemory :=
  match list with
  | none => (false, ⟨none, heap⟩)
  | some nodes =>
    match initTaskDumpNode kmallocNode dump heap with
    | (none, heap) => (false, ⟨some nodes, heap⟩)
    | (some node, heap) => (true, ⟨some (nodes ++ [node]), heap⟩)

def dumpTask (kmalloc : Kmalloc) (task : Task) (s : DumpMemory) : Bool × DumpMemory :=
  let dump := initTaskDumpFromTask kmalloc.dump (some task) s.heap
  addTaskDumpToList kmalloc.node s.dumpList dump.1 dump.2

/-- `for_each_process(task)`. -/
def forEachProcess : List (Task × Kmalloc) → DumpMemory → List Task × DumpMemory
  | [], s => ([], s)
  | (task, kmalloc) :: processes, s =>
    let ret := dumpTask kmalloc task s
    let rest := forEachProcess processes ret.2
    (if ret.1 then rest.1 else task :: rest.1, rest.2)

/-- The records, without the objects. -/
def records (s : DumpMemory) : Option DumpList := s.dumpList.map fun nodes => nodes.map fun node => node.record.map Prod.snd

end DumpMemory

/-- What the record has of the task. -/
structure TaskDump.Holds (dump : TaskDump) (task : Task) : Prop where
  pid : dump.pid = task.pid
  uid : dump.uid = task.uid
  gid : dump.gid = task.gid
  comm : text dump.comm = (text task.comm).take taskCommLen

/-- The list has one node more, at its end, with a record of the task. -/
def DumpMemory.Captured (s s' : DumpMemory) (task : Task) : Prop :=
  ∃ nodes node object dump, s.dumpList = some nodes ∧ s'.dumpList = some (nodes ++ [node]) ∧
    node.record = some (object, dump) ∧ dump.Holds task

/-- The result says whether the task was captured, and a failing call leaves nothing behind. -/
structure DumpMemory.Honest (s : DumpMemory) (task : Task) (kmalloc : Kmalloc) : Prop where
  captured : (s.dumpTask kmalloc task).1 = true ↔ s.Captured (s.dumpTask kmalloc task).2 task
  unchanged : (s.dumpTask kmalloc task).1 = false → (s.dumpTask kmalloc task).2.dumpList = s.dumpList
  released : (s.dumpTask kmalloc task).1 = false → ∀ object ∈ (s.dumpTask kmalloc task).2.heap.live, object ∈ s.heap.live

/-- A record of the task is on the list. -/
def DumpMemory.Recorded (s : DumpMemory) (task : Task) : Prop :=
  ∃ nodes node object dump, s.dumpList = some nodes ∧ node ∈ nodes ∧ node.record = some (object, dump) ∧ dump.Holds task

/-- Every call of the loop is honest, and in the end every process is on the list or was reported. -/
structure DumpMemory.Accounts (s : DumpMemory) (processes : List (Task × Kmalloc)) : Prop where
  honest : ∀ pre process post, processes = pre ++ process :: post → (forEachProcess pre s).2.Honest process.1 process.2
  accounted : ∀ process ∈ processes, process.1 ∈ (forEachProcess processes s).1 ∨
    (forEachProcess processes s).2.Recorded process.1

/-- The record is allocated exactly if there is a list and the node is allocated. -/
def Kmalloc.Agrees (kmalloc : Kmalloc) (s : DumpMemory) : Prop := kmalloc.dump = (s.dumpList.isSome && kmalloc.node)

/-! ## One process -/

theorem Task.record_holds (task : Task) : task.record.Holds task where
  pid := rfl
  uid := rfl
  gid := rfl
  comm := text_strncpy taskCommLen task.comm

namespace DumpMemory

variable {s : DumpMemory} {task : Task} {kmalloc : Kmalloc}

/-- What is allocated for the record. -/
def withRecord (s : DumpMemory) (kmalloc : Kmalloc) : Ledger := if kmalloc.dump then s.heap.alloc.2 else s.heap

/-- Without a list, or without a node, the record stays where nobody finds it. -/
theorem dumpTask_fails (fails : (s.dumpList.isSome && kmalloc.node) = false) (task : Task) :
    dumpTask kmalloc task s = (false, ⟨s.dumpList, s.withRecord kmalloc⟩) := by
  rw [dumpTask]
  cases list : s.dumpList with
  | none =>
    cases dump : kmalloc.dump <;> simp [addTaskDumpToList, initTaskDumpFromTask, Carbonite.kmalloc, withRecord, dump]
  | some nodes =>
    have node : kmalloc.node = false := by simpa [list] using fails
    cases dump : kmalloc.dump <;>
      simp [addTaskDumpToList, initTaskDumpFromTask, initTaskDumpNode, Carbonite.kmalloc, withRecord, dump, node]

/-- A node is appended with or without a record. -/
theorem dumpTask_node {nodes : List DumpNode} (list : s.dumpList = some nodes) (succeeds : kmalloc.node = true)
    (task : Task) : dumpTask kmalloc task s = (true,
      ⟨some (nodes ++ [⟨(s.withRecord kmalloc).next, if kmalloc.dump then some (s.heap.next, task.record) else none⟩]),
        (s.withRecord kmalloc).alloc.2⟩) := by
  rw [dumpTask, list]
  cases dump : kmalloc.dump
  · simp only [addTaskDumpToList, initTaskDumpFromTask, initTaskDumpNode, Carbonite.kmalloc, withRecord, dump, succeeds]
    rfl
  · simp only [addTaskDumpToList, initTaskDumpFromTask, initTaskDumpNode, Carbonite.kmalloc, withRecord, dump, succeeds]
    rfl

theorem withRecord_kept_iff : (∀ object ∈ (s.withRecord kmalloc).live, object ∈ s.heap.live) ↔ kmalloc.dump = false := by
  constructor
  · intro kept
    by_contra dump
    have member : s.heap.next ∈ (s.withRecord kmalloc).live := by
      rw [withRecord, if_pos (by simpa using dump), Ledger.alloc_live]
      exact List.mem_append_right _ List.mem_cons_self
    exact s.heap.next_fresh (kept _ member)
  · intro dump object member
    rw [withRecord, if_neg (by simp [dump])] at member
    exact member

/-- A list that was not changed has captured nothing. -/
theorem not_captured {s' : DumpMemory} (same : s'.dumpList = s.dumpList) : ¬ s.Captured s' task := by
  rintro ⟨nodes, node, -, -, there, longer, -⟩
  rw [same, there] at longer
  have lengths := congrArg List.length (Option.some.inj longer)
  simp at lengths

/-- **When `dump_task` is honest**: its allocations succeed together or fail together. -/
theorem honest_iff (s : DumpMemory) (task : Task) (kmalloc : Kmalloc) : s.Honest task kmalloc ↔ kmalloc.Agrees s := by
  unfold Kmalloc.Agrees
  cases returns : s.dumpList.isSome && kmalloc.node with
  | false =>
    have call := dumpTask_fails returns task
    have lost : ¬ s.Captured (s.dumpTask kmalloc task).2 task := not_captured (by rw [call])
    rw [← withRecord_kept_iff (s := s)]
    constructor
    · intro honest
      have kept := honest.released (by rw [call])
      rw [call] at kept
      exact kept
    · intro kept
      refine ⟨?_, fun _ => by rw [call], fun _ => by rw [call]; exact kept⟩
      rw [call] at lost ⊢
      exact iff_of_false (by simp) lost
  | true =>
    obtain ⟨there, node⟩ := Bool.and_eq_true_iff.1 returns
    obtain ⟨nodes, list⟩ := Option.isSome_iff_exists.1 there
    have call := dumpTask_node list node task
    constructor
    · intro honest
      obtain ⟨nodes', new, object, dump, there', longer, record, -⟩ := honest.captured.1 (by rw [call])
      rw [call] at longer
      rw [list] at there'
      cases there'
      have same := List.append_cancel_left (Option.some.inj longer)
      by_contra fails
      rw [if_neg fails, List.cons.injEq] at same
      rw [← same.1] at record
      cases record
    · intro dump
      have captured : s.Captured (s.dumpTask kmalloc task).2 task := by
        rw [call]
        exact ⟨nodes, _, s.heap.next, task.record, list, rfl, by simp [dump], task.record_holds⟩
      have succeeds : (s.dumpTask kmalloc task).1 = true := by rw [call]
      exact ⟨iff_of_true succeeds captured, fun failed => absurd (failed.symm.trans succeeds) (by simp),
        fun failed => absurd (failed.symm.trans succeeds) (by simp)⟩

/-! ## All processes -/

/-- A call does not take anything off the list. -/
theorem dumpTask_prefix {nodes : List DumpNode} (list : s.dumpList = some nodes) (kmalloc : Kmalloc) (task : Task) :
    ∃ more, (s.dumpTask kmalloc task).2.dumpList = some (nodes ++ more) := by
  cases node : kmalloc.node with
  | false => exact ⟨[], by rw [dumpTask_fails (by simp [node]), list, List.append_nil]⟩
  | true => exact ⟨_, by rw [dumpTask_node list node]⟩

theorem dumpTask_isSome (s : DumpMemory) (kmalloc : Kmalloc) (task : Task) :
    (s.dumpTask kmalloc task).2.dumpList.isSome = s.dumpList.isSome := by
  cases list : s.dumpList with
  | none => rw [dumpTask_fails (by simp [list]), list]
  | some nodes =>
    obtain ⟨more, longer⟩ := dumpTask_prefix list kmalloc task
    rw [longer]
    rfl

theorem forEachProcess_isSome (processes : List (Task × Kmalloc)) (s : DumpMemory) :
    (forEachProcess processes s).2.dumpList.isSome = s.dumpList.isSome := by
  induction processes generalizing s with
  | nil => rfl
  | cons process processes ih => rw [forEachProcess, ih, dumpTask_isSome]

theorem Recorded.dumpTask {other : Task} (recorded : s.Recorded other) (kmalloc : Kmalloc) (task : Task) :
    (s.dumpTask kmalloc task).2.Recorded other := by
  obtain ⟨nodes, node, object, dump, list, member, record, holds⟩ := recorded
  obtain ⟨more, longer⟩ := dumpTask_prefix list kmalloc task
  exact ⟨_, node, object, dump, longer, List.mem_append_left _ member, record, holds⟩

theorem Recorded.forEachProcess {other : Task} (recorded : s.Recorded other) (processes : List (Task × Kmalloc)) :
    (forEachProcess processes s).2.Recorded other := by
  induction processes generalizing s with
  | nil => exact recorded
  | cons process processes ih => exact ih (recorded.dumpTask process.2 process.1)

theorem Captured.recorded {s' : DumpMemory} (captured : s.Captured s' task) : s'.Recorded task := by
  obtain ⟨nodes, node, object, dump, -, longer, record, holds⟩ := captured
  exact ⟨_, node, object, dump, longer, by simp, record, holds⟩

/-- Honest calls leave no process out. -/
theorem accounted_of_agrees {processes : List (Task × Kmalloc)}
    (agrees : ∀ process ∈ processes, process.2.dump = (s.dumpList.isSome && process.2.node)) :
    ∀ process ∈ processes, process.1 ∈ (forEachProcess processes s).1 ∨
      (forEachProcess processes s).2.Recorded process.1 := by
  induction processes generalizing s with
  | nil => simp
  | cons process processes ih =>
    obtain ⟨task, kmalloc⟩ := process
    rw [List.forall_mem_cons] at agrees
    have honest := (honest_iff s task kmalloc).2 agrees.1
    have rest := ih (s := (s.dumpTask kmalloc task).2) (by rw [dumpTask_isSome]; exact agrees.2)
    rw [List.forall_mem_cons]
    constructor
    · cases ret : (s.dumpTask kmalloc task).1 with
      | false => exact .inl (by simp only [forEachProcess, ret]; exact List.mem_cons_self)
      | true => exact .inr ((honest.captured.1 ret).recorded.forEachProcess processes)
    · intro other member
      rcases rest other member with reported | recorded
      · left
        rw [forEachProcess]
        split
        · exact reported
        · exact List.mem_cons_of_mem _ reported
      · exact .inr recorded

/-- **Which loops capture or report every process**: those in which, for each process, the record is allocated
exactly if its node is. Without a list no record may be. -/
theorem accounts_iff (s : DumpMemory) (processes : List (Task × Kmalloc)) :
    s.Accounts processes ↔ ∀ process ∈ processes, process.2.Agrees s := by
  have agrees_iff : ∀ (pre : List (Task × Kmalloc)) (kmalloc : Kmalloc),
      kmalloc.Agrees (forEachProcess pre s).2 ↔ kmalloc.Agrees s := by
    intro pre kmalloc
    rw [Kmalloc.Agrees, forEachProcess_isSome, Kmalloc.Agrees]
  constructor
  · intro accounts process member
    obtain ⟨pre, post, split⟩ := List.append_of_mem member
    exact (agrees_iff pre process.2).1 ((honest_iff _ _ _).1 (accounts.honest pre process post split))
  · intro agrees
    refine ⟨?_, accounted_of_agrees agrees⟩
    intro pre process post split
    apply (honest_iff _ _ _).2
    apply (agrees_iff pre process.2).2
    exact agrees process (split ▸ List.mem_append_right _ List.mem_cons_self)

/-- The first process of a system. -/
def initTask : Task := ⟨1, 0, 0, 1, bytes "init", 0, 0⟩

/-- A node without a record, for a process that is not reported. -/
theorem accounts_fails : ¬ Accounts ⟨some [], .empty⟩ [(initTask, ⟨false, true⟩)] := by
  intro accounts
  rcases accounts.accounted _ List.mem_cons_self with reported | recorded
  · cases reported
  · obtain ⟨nodes, node, object, dump, list, member, record, -⟩ := recorded
    cases list
    rw [List.mem_singleton.1 member] at record
    cases record

/-! ## The records -/

/-- **`dump_task` with its allocations refines `dump_task` on the sequence of the records.** -/
theorem dumpTask_records (s : DumpMemory) (task : Task) (kmalloc : Kmalloc) :
    Carbonite.dumpTask kmalloc task s.records = ((s.dumpTask kmalloc task).1, (s.dumpTask kmalloc task).2.records) := by
  cases list : s.dumpList with
  | none =>
    rw [dumpTask_fails (by simp [list]), records, list]
    rfl
  | some nodes =>
    cases node : kmalloc.node with
    | false =>
      rw [dumpTask_fails (by simp [node]), records, list]
      simp [Carbonite.dumpTask, Carbonite.addTaskDumpToList, node, records]
    | true =>
      rw [dumpTask_node list node, records, list]
      cases dump : kmalloc.dump <;>
        simp [Carbonite.dumpTask, Carbonite.addTaskDumpToList, Carbonite.initTaskDumpFromTask, node, dump, records]

theorem forEachProcess_records (processes : List (Task × Kmalloc)) (s : DumpMemory) :
    Carbonite.forEachProcess processes s.records = ((forEachProcess processes s).1, (forEachProcess processes s).2.records) := by
  induction processes generalizing s with
  | nil => rfl
  | cons process processes ih => rw [Carbonite.forEachProcess, dumpTask_records, forEachProcess, ih]

end DumpMemory

end Carbonite
