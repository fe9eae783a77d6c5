import SecuritySuite.Carbonite.Dispatch
import SecuritySuite.Foundation.LinkedHeap

/-!
# The dump list on the heap

`task-dump-list.c` with its nodes, `head`, `tail` and `size`, and `carbonite` on it. Where the nodes are
linked (`Linked`), an operation does to the sequence of their records what the operations on a `DumpList` do, and
`get_task_dump` reads that sequence. A pointer is followed only where a node is.
-/

namespace Carbonite
set_option autoImplicit false
open CString LinkedHeap

/-- `struct task_dump_list`, and the nodes it leads to. -/
structure DumpHeap where
  size : Int
  head : Option Nat
  tail : Option Nat
  nodes : Heap (Option TaskDump)

inductive HeapFault where
  /-- A pointer is followed that leads to no node. -/
  | dangling
deriving DecidableEq, Repr

/-- What `carbonite` keeps, with the list on the heap. -/
structure HeapSnapshots where
  previousReason : Int
  dumpList : DumpHeap

namespace DumpHeap

def initTaskDumpList : DumpHeap := ⟨0, none, none, .empty⟩

def initTaskDumpNode (kmalloc : Bool) (taskDump : Option TaskDump) (nodes : Heap (Option TaskDump)) :
    Option (Nat × Heap (Option TaskDump)) :=
  if kmalloc then some (nodes.alloc ⟨taskDump, none⟩) else none

def addTaskDumpToList (kmalloc : Bool) (dump : Option TaskDump) (list : DumpHeap) : Except HeapFault (Bool × DumpHeap) :=
  match initTaskDumpNode kmalloc dump list.nodes with
  | none => .ok (false, list)
  | some (node, nodes) =>
    match list.head with
    | none => .ok (true, ⟨list.size + 1, some node, some node, nodes⟩)
    | some head =>
      match list.tail.bind fun tail => nodes.setNext tail (some node) with
      | none => .error .dangling
      | some nodes => .ok (true, ⟨list.size + 1, some head, some node, nodes⟩)

def getSize (list : DumpHeap) : Int := list.size

/-- `while(n-- && node)`, for at most `fuel` rounds. -/
def walk (nodes : Heap (Option TaskDump)) : (fuel : Nat) → (n : Int) → (node : Option Nat) → Except HeapFault (Option (Option Nat))
  | 0, _, _ => .ok none
  | fuel + 1, n, node =>
    if n = 0 then .ok (some node)
    else match node with
      | none => .ok (some none)
      | some a =>
        match nodes.cell a with
        | none => .error .dangling
        | some cell => walk nodes fuel (n - 1) cell.next

/-- `none` where the loop takes more than `fuel` rounds. -/
def getTaskDump (fuel : Nat) (list : DumpHeap) (n : Int) : Except HeapFault (Option (Option TaskDump)) :=
  if list.size < n then .ok (some none)
  else match walk list.nodes fuel n list.head with
    | .error fault => .error fault
    | .ok none => .ok none
    | .ok (some none) => .ok (some none)
    | .ok (some (some node)) =>
      match list.nodes.cell node with
      | none => .error .dangling
      | some cell => .ok (some cell.value)

def dumpTask (kmalloc : Kmalloc) (task : Task) (dumpList : DumpHeap) : Except HeapFault (Bool × DumpHeap) :=
  addTaskDumpToList kmalloc.node (initTaskDumpFromTask kmalloc (some task)) dumpList

/-- `for_each_process(task)`. -/
def forEachProcess : List (Task × Kmalloc) → DumpHeap → Except HeapFault (List Task × DumpHeap)
  | [], dumpList => .ok ([], dumpList)
  | (task, kmalloc) :: processes, dumpList => do
    let (ret, dumpList) ← dumpTask kmalloc task dumpList
    let (failed, dumpList) ← forEachProcess processes dumpList
    return (if ret then failed else task :: failed, dumpList)

/-- `void carbonite(int why)`. -/
def carbonite (why : Int) (processes : List (Task × Kmalloc)) (kept : HeapSnapshots) :
    Except HeapFault (Outcome × HeapSnapshots) :=
  if kept.previousReason = afterModuleInit ∧ why = afterIncident then
    .ok (.suppressed, { kept with previousReason := why })
  else do
    let (failed, dumpList) ← forEachProcess processes kept.dumpList
    return (.dumped (processes.map Prod.fst) failed, ⟨why, dumpList⟩)

/-! ## The sequence behind the pointers -/

/-- The nodes from `head` to `tail`, with their records, and their number. -/
structure Linked (list : DumpHeap) (cells : List (Nat × Option TaskDump)) : Prop where
  chain : Chain list.nodes list.head cells
  tail : list.tail = cells.getLast?.map Prod.fst
  size : list.size = cells.length

theorem Linked.init : Linked initTaskDumpList [] where
  chain := rfl
  tail := rfl
  size := rfl

section Linked

variable {list : DumpHeap} {cells : List (Nat × Option TaskDump)}

theorem Linked.segment (linked : Linked list cells) : Segment list.nodes list.head list.tail cells :=
  ⟨linked.chain, linked.tail⟩

/-- A list without a head has no cells. -/
theorem Linked.head_eq_none_iff (linked : Linked list cells) : list.head = none ↔ cells = [] :=
  linked.segment.head_eq_none_iff

theorem Linked.alloc (linked : Linked list cells) (node : Node (Option TaskDump)) :
    Linked { list with nodes := (list.nodes.alloc node).2 } cells where
  chain := linked.chain.alloc node
  tail := linked.tail
  size := linked.size

/-- The address of a new node is not on the list. -/
theorem Linked.top_fresh (linked : Linked list cells) : list.nodes.top ∉ cells.map Prod.fst := linked.segment.top_fresh

/-- The last node is made to lead to a new one. -/
theorem Linked.setNext (linked : Linked list cells) (nonempty : cells ≠ []) (node : Nat × Option TaskDump)
    (stored : list.nodes.cell node.1 = some ⟨node.2, none⟩) (fresh : node.1 ∉ cells.map Prod.fst) :
    ∃ nodes, (list.tail.bind fun tail => list.nodes.setNext tail (some node.1)) = some nodes ∧
      Chain nodes list.head (cells ++ [node]) := by
  obtain ⟨nodes, set, -, segment⟩ := linked.segment.setNext nonempty node stored fresh
  exact ⟨nodes, set, segment.chain⟩

/-- A node is appended unless it cannot be allocated. -/
theorem Linked.add (linked : Linked list cells) (kmalloc : Bool) (dump : Option TaskDump) :
    ∃ list', addTaskDumpToList kmalloc dump list = .ok (kmalloc, list') ∧
      Linked list' (cells ++ if kmalloc then [(list.nodes.top, dump)] else []) := by
  cases kmalloc with
  | false => exact ⟨list, rfl, by simpa using linked⟩
  | true =>
    have segment := linked.segment
    have size : list.size + 1 = ((cells ++ [(list.nodes.top, dump)]).length : Int) := by
      rw [linked.size, List.length_append, List.length_singleton]
      rfl
    rw [addTaskDumpToList, initTaskDumpNode, if_pos rfl, if_pos rfl]
    cases head : list.head with
    | none =>
      rw [head] at segment
      have longer := segment.push_first dump
      exact ⟨_, rfl, longer.chain, longer.tail, size⟩
    | some first =>
      rw [head] at segment
      obtain ⟨nodes, set, longer⟩ := segment.push_last dump
      simp only [Heap.alloc_fst, set]
      exact ⟨_, rfl, longer.chain, longer.tail, size⟩

end Linked

/-- The heap does what the sequence does, and the nodes that are there stay. -/
theorem Linked.forEachProcess {list : DumpHeap} {cells : List (Nat × Option TaskDump)} (linked : Linked list cells)
    (processes : List (Task × Kmalloc)) :
    ∃ failed list' more, DumpHeap.forEachProcess processes list = .ok (failed, list') ∧ Linked list' (cells ++ more) ∧
      Carbonite.forEachProcess processes (some (cells.map Prod.snd)) =
        (failed, some ((cells ++ more).map Prod.snd)) := by
  induction processes generalizing list cells with
  | nil => exact ⟨[], list, [], rfl, by simpa using linked, by simp [Carbonite.forEachProcess]⟩
  | cons process processes ih =>
    obtain ⟨task, kmalloc⟩ := process
    obtain ⟨list₁, added, linked₁⟩ := linked.add kmalloc.node (initTaskDumpFromTask kmalloc (some task))
    obtain ⟨failed, list', more, walked, linked', same⟩ := ih linked₁
    rw [List.append_assoc] at linked'
    refine ⟨if kmalloc.node then failed else task :: failed, list', _, ?_, linked', ?_⟩
    · rw [DumpHeap.forEachProcess, DumpHeap.dumpTask, added]
      simp only [bind, Except.bind, walked]
      rfl
    · have record : Carbonite.dumpTask kmalloc task (some (cells.map Prod.snd)) = (kmalloc.node, some ((cells ++
          if kmalloc.node then [(list.nodes.top, initTaskDumpFromTask kmalloc (some task))] else []).map Prod.snd)) := by
        rw [Carbonite.dumpTask, Carbonite.addTaskDumpToList]
        cases kmalloc.node <;> simp
      rw [Carbonite.forEachProcess, record]
      simp only [same, List.append_assoc]

/-- **`carbonite` on the heap refines `carbonite` on the sequence of the records**, whatever allocations
fail. -/
theorem Linked.carbonite {kept : HeapSnapshots} {cells : List (Nat × Option TaskDump)} (linked : Linked kept.dumpList cells)
    (why : Int) (processes : List (Task × Kmalloc)) :
    ∃ outcome kept' more, DumpHeap.carbonite why processes kept = .ok (outcome, kept') ∧
      Linked kept'.dumpList (cells ++ more) ∧
      Carbonite.carbonite why processes ⟨kept.previousReason, some (cells.map Prod.snd)⟩ =
        (outcome, ⟨kept'.previousReason, some ((cells ++ more).map Prod.snd)⟩) := by
  by_cases suppressed : kept.previousReason = afterModuleInit ∧ why = afterIncident
  · refine ⟨.suppressed, ⟨why, kept.dumpList⟩, [], ?_, by simpa using linked, ?_⟩
    · rw [DumpHeap.carbonite, if_pos suppressed]
    · rw [Carbonite.carbonite, if_pos suppressed, List.append_nil]
  · obtain ⟨failed, list', more, walked, linked', same⟩ := linked.forEachProcess processes
    refine ⟨.dumped (processes.map Prod.fst) failed, ⟨why, list'⟩, more, ?_, linked', ?_⟩
    · rw [DumpHeap.carbonite, if_neg suppressed, walked]
      rfl
    · rw [Carbonite.carbonite, if_neg suppressed, same]

/-! ## Reading the list -/

/-- The loop ends at the node with that index, or behind the last one. -/
theorem walk_chain {nodes : Heap (Option TaskDump)} {link : Option Nat} {cells : List (Nat × Option TaskDump)}
    (chain : Chain nodes link cells) {fuel : Nat} (enough : cells.length < fuel) (n : Int) :
    walk nodes fuel n link = .ok (some (if 0 ≤ n then cells[n.toNat]?.map Prod.fst else none)) := by
  induction cells generalizing fuel link n with
  | nil =>
    obtain ⟨fuel, rfl⟩ : ∃ m, fuel = m + 1 := ⟨fuel - 1, by omega⟩
    obtain rfl : link = none := chain
    by_cases start : n = 0
    · simp [walk, start]
    · simp [walk, start]
  | cons cell cells ih =>
    obtain ⟨fuel, rfl⟩ : ∃ m, fuel = m + 1 := ⟨fuel - 1, by omega⟩
    obtain ⟨rfl, next, found, rest⟩ := chain
    by_cases start : n = 0
    · simp [walk, start]
    · rw [walk, if_neg start]
      simp only [found, ih rest (show cells.length < fuel by simpa using enough) (n - 1)]
      by_cases behind : 0 ≤ n
      · obtain ⟨m, rfl⟩ : ∃ m : Nat, n = m + 1 := ⟨(n - 1).toNat, by omega⟩
        rw [if_pos behind, if_pos (by omega), show ((m : Int) + 1 - 1).toNat = m by omega,
          show ((m : Int) + 1).toNat = m + 1 by omega, List.getElem?_cons_succ]
      · rw [if_neg behind, if_neg (by omega)]

/-- `get_size` and `get_task_dump` read the sequence. -/
theorem Linked.getSize {list : DumpHeap} {cells : List (Nat × Option TaskDump)} (linked : Linked list cells) :
    DumpHeap.getSize list = Carbonite.getSize (some (cells.map Prod.snd)) := by
  rw [DumpHeap.getSize, linked.size, Carbonite.getSize, List.length_map]

theorem Linked.getTaskDump {list : DumpHeap} {cells : List (Nat × Option TaskDump)} (linked : Linked list cells)
    {fuel : Nat} (enough : cells.length < fuel) (n : Int) :
    DumpHeap.getTaskDump fuel list n = .ok (some (Carbonite.getTaskDump (cells.map Prod.snd) n)) := by
  rw [DumpHeap.getTaskDump, linked.size, Carbonite.getTaskDump]
  by_cases behind : (cells.length : Int) < n
  · rw [if_pos behind, if_pos (by omega), List.getElem?_eq_none (by rw [List.length_map]; omega)]
    rfl
  · rw [if_neg behind, walk_chain linked.chain enough]
    by_cases inside : 0 ≤ n
    · rw [if_pos inside, if_pos inside, List.getElem?_map]
      cases at_n : cells[n.toNat]? with
      | none => rfl
      | some cell =>
        obtain ⟨next, found⟩ := linked.chain.found (List.mem_of_getElem? at_n)
        simp only [Option.map_some, found, Option.join_some]
    · rw [if_neg inside, if_neg inside]

end DumpHeap

end Carbonite
