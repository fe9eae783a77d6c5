import SecuritySuite.Carbonite.DumpHeap
import SecuritySuite.Foundation.Ledger
import SecuritySuite.Foundation.Runs
import Mathlib.Algebra.Order.Ring.Int

/-!
# The dump list with its pointers

`task-dump-list.c` with the numbers of the machine and with `kfree`. The dumps are known by their objects here, so that
it can be said which of them are freed. A `long` wraps around, as the kernel is compiled. Each call of
`add_task_dump_to_list` is a step; `dump_list_refines_sequence` says what any calls leave, and what the other functions
make of it.
-/

namespace Carbonite.DumpPointers
set_option autoImplicit false
open LinkedHeap Runs

/-- `struct task_dump_list`. -/
structure TaskDumpList where
  size : Int64
  head : Option Nat
  tail : Option Nat
deriving DecidableEq

/-- What `kfree` is called with. -/
inductive Object where
  | node (address : Nat)
  | dump (object : Nat)
deriving DecidableEq, Repr

/-- A list, with what is allocated and what has been freed. -/
structure State where
  list : Option TaskDumpList
  nodes : Heap (Option Nat)
  dumps : Ledger
  /-- The calls of `kfree`, in their order. -/
  freed : List Object

inductive Fault where
  /-- A pointer is followed that is NULL or leads to what has been freed. -/
  | dangling
  /-- `kfree` of what is not allocated. -/
  | badFree
deriving DecidableEq, Repr

/-- A node takes 16 bytes of a 64-bit address space, so no `long` is too short to count them. -/
def maxNodes : Nat := 2 ^ 60

def initTaskDumpList (kmalloc : Bool) : Option TaskDumpList :=
  if kmalloc then some ⟨0, none, none⟩ else none

def initTaskDumpNode (kmalloc : Bool) (taskDump : Option Nat) (nodes : Heap (Option Nat)) : Option (Nat × Heap (Option Nat)) :=
  if kmalloc ∧ nodes.top < maxNodes then some (nodes.alloc ⟨taskDump, none⟩) else none

/-- A call of `add_task_dump_to_list`, with the outcome of its allocation. -/
structure AddCall where
  dump : Option Nat
  kmalloc : Bool
deriving DecidableEq

def addTaskDumpToList (s : State) (call : AddCall) : Except Fault (Bool × State) :=
  match s.list with
  | none => .ok (false, s)
  | some list =>
    match initTaskDumpNode call.kmalloc call.dump s.nodes with
    | none => .ok (false, s)
    | some (node, nodes) =>
      match list.head with
      | none => .ok (true, { s with list := some ⟨list.size + 1, some node, some node⟩, nodes })
      | some head =>
        match list.tail.bind fun tail => nodes.setNext tail (some node) with
        | none => .error .dangling
        | some nodes => .ok (true, { s with list := some ⟨list.size + 1, some head, some node⟩, nodes })

def getSize (list : Option TaskDumpList) : Int64 :=
  match list with
  | none => 0
  | some list => list.size

/-- `while(n-- && node)`, for at most `fuel` rounds. -/
def walk (nodes : Heap (Option Nat)) : (fuel : Nat) → (n : Int64) → (node : Option Nat) → Except Fault (Option (Option Nat))
  | 0, _, _ => .ok none
  | fuel + 1, n, node =>
    if n = 0 then .ok (some node)
    else match node with
      | none => .ok (some none)
      | some a =>
        match nodes.cell a with
        | none => .error .dangling
        | some cell => walk nodes fuel (n - 1) cell.next

/-- `none` where the loop takes more than `fuel` rounds. -/
def getTaskDump (fuel : Nat) (n : Int64) (s : State) : Except Fault (Option (Option Nat)) :=
  match s.list with
  | none => .error .dangling
  | some list =>
    if list.size < n then .ok (some none)
    else match walk s.nodes fuel n list.head with
      | .error fault => .error fault
      | .ok none => .ok none
      | .ok (some none) => .ok (some none)
      | .ok (some (some node)) =>
        match s.nodes.cell node with
        | none => .error .dangling
        | some cell => .ok (some cell.value)

def kfree (object : Object) (s : State) : Except Fault State :=
  match object with
  | .node address =>
    match s.nodes.free address with
    | none => .error .badFree
    | some nodes => .ok { s with nodes, freed := s.freed ++ [object] }
  | .dump dump =>
    match s.dumps.free dump with
    | .error _ => .error .badFree
    | .ok dumps => .ok { s with dumps, freed := s.freed ++ [object] }

/-- `if(temp->task_dump) kfree(temp->task_dump)`. -/
def kfreeDump (taskDump : Option Nat) (s : State) : Except Fault State :=
  match taskDump with
  | none => .ok s
  | some dump => kfree (.dump dump) s

/-- `while(to_delete)`, for at most `fuel` rounds. The successor is read before its node is freed. -/
def destroyLoop : (fuel : Nat) → (toDelete : Option Nat) → State → Except Fault (Option State)
  | 0, _, _ => .ok none
  | _ + 1, none, s => .ok (some s)
  | fuel + 1, some temp, s =>
    match s.nodes.cell temp with
    | none => .error .dangling
    | some node => do
      let s ← kfreeDump node.value s
      let s ← kfree (.node temp) s
      destroyLoop fuel node.next s

def destroyTaskDumpList (fuel : Nat) (s : State) : Except Fault (Option State) :=
  match s.list with
  | none => .ok (some s)
  | some list => destroyLoop fuel list.head s

/-! ## The sequence behind the pointers -/

/-- A node, with the dump that it holds. -/
abbrev Cell := Nat × Option Nat

/-- The list leads through these nodes, and counts them. -/
structure Represents (s : State) (list : TaskDumpList) (cells : List Cell) : Prop where
  pointer : s.list = some list
  segment : Segment s.nodes list.head list.tail cells
  size : list.size.toInt = cells.length
  room : cells.length ≤ maxNodes

theorem Represents.init (nodes : Heap (Option Nat)) (dumps : Ledger) (freed : List Object) :
    Represents ⟨initTaskDumpList true, nodes, dumps, freed⟩ ⟨0, none, none⟩ [] where
  pointer := rfl
  segment := ⟨rfl, rfl⟩
  size := rfl
  room := Nat.zero_le _

/-- A call that returns 0 changes nothing. -/
theorem addTaskDumpToList_false {s s' : State} {call : AddCall} (failed : addTaskDumpToList s call = .ok (false, s')) :
    s' = s := by
  unfold addTaskDumpToList at failed
  split at failed
  · cases failed
    rfl
  · split at failed
    · cases failed
      rfl
    · split at failed
      · cases failed
      · split at failed
        · cases failed
        · cases failed

/-- One node more is counted without overflow. -/
theorem toInt_succ {size : Int64} {n : Nat} (counts : size.toInt = n) (room : n < maxNodes) :
    (size + 1).toInt = ((n + 1 : Nat) : Int) := by
  unfold maxNodes at room
  rw [Int64.toInt_add, counts, Int64.toInt_one, Int.bmod_eq_of_le (by omega) (by omega)]
  omega

section Represents

variable {s : State} {list : TaskDumpList} {cells : List Cell}

/-- An allocated node is appended. -/
theorem Represents.append (represents : Represents s list cells) {call : AddCall}
    (allocates : call.kmalloc = true ∧ s.nodes.top < maxNodes) :
    ∃ list' nodes, addTaskDumpToList s call = .ok (true, { s with list := some list', nodes }) ∧
      Represents { s with list := some list', nodes } list' (cells ++ [(s.nodes.top, call.dump)]) := by
  have short := represents.segment.chain.length_le_top
  have counts := toInt_succ represents.size (by omega)
  have room : (cells ++ [(s.nodes.top, call.dump)]).length ≤ maxNodes := by
    rw [List.length_append, List.length_singleton]
    omega
  have segment := represents.segment
  simp only [addTaskDumpToList, represents.pointer, initTaskDumpNode, if_pos allocates, Heap.alloc_fst]
  cases head : list.head with
  | none =>
    rw [head] at segment
    exact ⟨_, _, rfl, rfl, segment.push_first call.dump, by simpa using counts, room⟩
  | some first =>
    rw [head] at segment
    obtain ⟨nodes, set, longer⟩ := segment.push_last call.dump
    simp only [set]
    exact ⟨_, _, rfl, rfl, longer, by simpa using counts, room⟩

/-- A call appends a node with its dump, or nothing. -/
theorem Represents.add (represents : Represents s list cells) (call : AddCall) :
    ∃ answer s' list', addTaskDumpToList s call = .ok (answer, s') ∧ s'.dumps = s.dumps ∧ s'.freed = s.freed ∧
      Represents s' list' (cells ++ if answer then [(s.nodes.top, call.dump)] else []) := by
  by_cases allocates : call.kmalloc = true ∧ s.nodes.top < maxNodes
  · obtain ⟨list', nodes, added, represents'⟩ := represents.append allocates
    exact ⟨true, _, list', added, rfl, rfl, represents'⟩
  · have failed : addTaskDumpToList s call = .ok (false, s) := by
      simp only [addTaskDumpToList, represents.pointer, initTaskDumpNode, if_neg allocates]
    exact ⟨false, s, list, failed, rfl, rfl, by simpa using represents⟩

/-- The dumps of the calls that returned 1. -/
def appended (calls : List AddCall) (answers : List Bool) : List (Option Nat) :=
  ((calls.zip answers).filter Prod.snd).map fun call => call.1.dump

/-- Any calls complete, and append the nodes of those that return 1. -/
theorem Represents.run (represents : Represents s list cells) (calls : List AddCall) :
    ∃ answers s' list' more, Runs.run addTaskDumpToList calls s = .ok (answers, s') ∧ answers.length = calls.length ∧
      s'.dumps = s.dumps ∧ s'.freed = s.freed ∧ Represents s' list' (cells ++ more) ∧
      more.map Prod.snd = appended calls answers := by
  induction calls generalizing s list cells with
  | nil => exact ⟨[], s, list, [], rfl, rfl, rfl, rfl, by simpa using represents, rfl⟩
  | cons call calls ih =>
    obtain ⟨answer, s₁, list₁, added, dumps₁, freed₁, represents₁⟩ := represents.add call
    obtain ⟨answers, s', list', more, ran, length, dumps', freed', represents', same⟩ := ih represents₁
    rw [List.append_assoc] at represents'
    refine ⟨answer :: answers, s', list', _, ?_, ?_, dumps'.trans dumps₁, freed'.trans freed₁, represents', ?_⟩
    · exact run_cons.2 ⟨answer, s₁, answers, added, ran, rfl⟩
    · simp [length]
    · rw [List.map_append, same]
      cases answer <;> simp [appended]

/-! ## Reading -/

/-- How often a `long` is decremented until it is 0. -/
def rounds (n : Int64) : Nat := (n.toInt % 2 ^ 64).toNat

theorem rounds_zero : rounds 0 = 0 := rfl

theorem rounds_pred {n : Int64} (nonzero : n ≠ 0) : rounds n = rounds (n - 1) + 1 := by
  have low := n.le_toInt
  have high := n.toInt_lt
  have other : n.toInt ≠ 0 := fun zero => nonzero (Int64.toInt_inj.1 zero)
  have wraps : (n.toInt - 1).bmod (2 ^ 64) % 2 ^ 64 = (n.toInt - 1) % 2 ^ 64 := Int.bmod_emod
  rw [rounds, rounds, Int64.toInt_sub, Int64.toInt_one, wraps]
  omega

theorem rounds_of_nonneg {n : Int64} (nonneg : 0 ≤ n) : rounds n = n.toInt.toNat := by
  have low := Int64.le_iff_toInt_le.1 nonneg
  have high := n.toInt_lt
  rw [Int64.toInt_zero] at low
  rw [rounds, Int.emod_eq_of_lt low (by omega)]

/-- A negative number wraps around to the largest one first. -/
theorem lt_rounds_of_neg {n : Int64} (negative : ¬ 0 ≤ n) : maxNodes < rounds n := by
  have low := n.le_toInt
  have below : n.toInt < 0 := by
    rw [Int64.le_iff_toInt_le, Int64.toInt_zero] at negative
    omega
  unfold rounds maxNodes
  omega

/-- The loop ends at the node with that index, or behind the last one. -/
theorem walk_chain {nodes : Heap (Option Nat)} {link : Option Nat} {cells : List Cell} (chain : Chain nodes link cells)
    {fuel : Nat} (enough : cells.length < fuel) (n : Int64) :
    walk nodes fuel n link = .ok (some (cells[rounds n]?.map Prod.fst)) := by
  induction cells generalizing fuel link n with
  | nil =>
    obtain ⟨fuel, rfl⟩ : ∃ m, fuel = m + 1 := ⟨fuel - 1, by omega⟩
    obtain rfl : link = none := chain
    by_cases start : n = 0
    · simp [walk, start]
    · simp [walk, start]
  | cons cell cells ih =>
    obtain ⟨fuel, rfl⟩ : ∃ m, fuel = m + 1 := ⟨fuel - 1, by omega⟩
    obtain ⟨rfl, next, found, rest⟩ := chain
    by_cases start : n = 0
    · simp [walk, start, rounds_zero]
    · rw [walk, if_neg start, rounds_pred start, List.getElem?_cons_succ]
      simp only [found]
      exact ih rest (by simpa using enough) (n - 1)

theorem Represents.getTaskDump (represents : Represents s list cells) {fuel : Nat} (enough : cells.length < fuel)
    (n : Int64) : DumpPointers.getTaskDump fuel n s =
      .ok (some (if 0 ≤ n then (cells.map Prod.snd)[n.toInt.toNat]?.join else none)) := by
  have room := represents.room
  simp only [DumpPointers.getTaskDump, represents.pointer]
  by_cases behind : list.size < n
  · rw [Int64.lt_iff_toInt_lt, represents.size] at behind
    rw [if_pos (Int64.lt_iff_toInt_lt.2 (represents.size ▸ behind)), List.getElem?_eq_none (by rw [List.length_map]; omega)]
    simp
  · rw [if_neg behind, walk_chain represents.segment.chain enough]
    by_cases inside : 0 ≤ n
    · rw [if_pos inside, rounds_of_nonneg inside, List.getElem?_map]
      cases at_n : cells[n.toInt.toNat]? with
      | none => rfl
      | some cell =>
        obtain ⟨next, found⟩ := represents.segment.chain.found (List.mem_of_getElem? at_n)
        simp only [Option.map_some, found, Option.join_some]
    · have beyond := lt_rounds_of_neg inside
      rw [if_neg inside, List.getElem?_eq_none (by omega)]
      rfl

end Represents

/-! ## Destroying -/

/-- The dumps that the nodes hold. -/
def heldDumps (cells : List Cell) : List Nat := cells.filterMap Prod.snd

theorem heldDumps_some (a d : Nat) (cells : List Cell) : heldDumps ((a, some d) :: cells) = d :: heldDumps cells := rfl

/-- A node is freed behind its dump. -/
def freedWith (cell : Cell) : List Object := (cell.2.map Object.dump).toList ++ [.node cell.1]

/-- What the destruction of these nodes frees, in its order. -/
def freedBy (cells : List Cell) : List Object := cells.flatMap freedWith

theorem freedBy_none (a : Nat) (cells : List Cell) : freedBy ((a, none) :: cells) = .node a :: freedBy cells := rfl

theorem freedBy_some (a d : Nat) (cells : List Cell) :
    freedBy ((a, some d) :: cells) = .dump d :: .node a :: freedBy cells := rfl

theorem node_mem_freedBy {cells : List Cell} {a : Nat} : .node a ∈ freedBy cells ↔ a ∈ cells.map Prod.fst := by
  simp only [freedBy, freedWith, List.mem_flatMap, List.mem_append, Option.mem_toList, List.mem_singleton, List.mem_map]
  constructor
  · rintro ⟨cell, member, dump | node⟩
    · simp at dump
    · exact ⟨cell, member, by cases node; rfl⟩
  · rintro ⟨cell, member, rfl⟩
    exact ⟨cell, member, .inr rfl⟩

theorem dump_mem_freedBy {cells : List Cell} {d : Nat} : .dump d ∈ freedBy cells ↔ d ∈ heldDumps cells := by
  simp only [freedBy, freedWith, heldDumps, List.mem_flatMap, List.mem_append, Option.mem_toList, List.mem_singleton,
    List.mem_filterMap]
  constructor
  · rintro ⟨cell, member, dump | node⟩
    · exact ⟨cell, member, by simpa using dump⟩
    · cases node
  · rintro ⟨cell, member, held⟩
    exact ⟨cell, member, .inl (by simp [held])⟩

/-- Distinct nodes with distinct dumps are freed once each. -/
theorem freedBy_nodup {cells : List Cell} (nodes : (cells.map Prod.fst).Nodup) (dumps : (heldDumps cells).Nodup) :
    (freedBy cells).Nodup := by
  induction cells with
  | nil => exact .nil
  | cons cell cells ih =>
    obtain ⟨a, held⟩ := cell
    rw [List.map_cons, List.nodup_cons] at nodes
    have other : .node a ∉ freedBy cells := fun member => nodes.1 (node_mem_freedBy.1 member)
    cases held with
    | none =>
      rw [freedBy_none, List.nodup_cons]
      exact ⟨other, ih nodes.2 dumps⟩
    | some d =>
      rw [heldDumps_some, List.nodup_cons] at dumps
      have other' : .dump d ∉ freedBy cells := fun member => dumps.1 (dump_mem_freedBy.1 member)
      rw [freedBy_some, List.nodup_cons, List.nodup_cons, List.mem_cons, not_or]
      exact ⟨⟨nofun, other'⟩, other, ih nodes.2 dumps.2⟩

/-- A dump that a node holds is allocated when the node is reached. -/
def Held (s : State) (cells : List Cell) : Prop :=
  (heldDumps cells).Nodup ∧ ∀ d ∈ heldDumps cells, d ∈ s.dumps.live

theorem kfreeDump_held {s : State} {cell : Cell} {cells : List Cell} (held : Held s (cell :: cells)) :
    ∃ dumps, kfreeDump cell.2 s = .ok { s with dumps, freed := s.freed ++ (cell.2.map Object.dump).toList } ∧
      Held { s with dumps, freed := s.freed ++ (cell.2.map Object.dump).toList } cells := by
  obtain ⟨a, dump⟩ := cell
  obtain ⟨distinct, live⟩ := held
  cases dump with
  | none => exact ⟨s.dumps, by simp [kfreeDump], distinct, live⟩
  | some d =>
    rw [heldDumps_some] at distinct live
    rw [List.nodup_cons] at distinct
    obtain ⟨dumps, freed, erased, -⟩ := Ledger.free_live (live d List.mem_cons_self)
    refine ⟨dumps, by simp [kfreeDump, kfree, freed], distinct.2, fun d' member => ?_⟩
    have other : d' ≠ d := by
      rintro rfl
      exact distinct.1 member
    rw [erased]
    exact (List.mem_erase_of_ne other).2 (live d' (List.mem_cons_of_mem _ member))

/-- The loop frees the nodes of a chain with their dumps. -/
theorem destroyLoop_chain {cells : List Cell} {fuel : Nat} (enough : cells.length < fuel) {link : Option Nat} {s : State}
    (chain : Chain s.nodes link cells) (held : Held s cells) :
    ∃ s', destroyLoop fuel link s = .ok (some s') ∧ s'.freed = s.freed ++ freedBy cells := by
  induction cells generalizing fuel link s with
  | nil =>
    obtain ⟨fuel, rfl⟩ : ∃ m, fuel = m + 1 := ⟨fuel - 1, by omega⟩
    obtain rfl : link = none := chain
    exact ⟨s, rfl, by simp [freedBy]⟩
  | cons cell cells ih =>
    obtain ⟨fuel, rfl⟩ : ∃ m, fuel = m + 1 := ⟨fuel - 1, by omega⟩
    obtain ⟨a, dump⟩ := cell
    obtain ⟨next, nodes, found, freed, rest, -⟩ := chain.free
    obtain rfl := chain.1
    obtain ⟨dumps, first, held'⟩ := kfreeDump_held held
    obtain ⟨s', loop, freed'⟩ := ih (show cells.length < fuel by simpa using enough) (s := { s with
      nodes
      dumps
      freed := s.freed ++ (dump.map Object.dump).toList ++ [.node a] }) rest held'
    refine ⟨s', ?_, ?_⟩
    · simp only [destroyLoop, found, first, bind, Except.bind, kfree, freed]
      exact loop
    · rw [freed']
      simp [freedBy, freedWith]

theorem Represents.destroyTaskDumpList {s : State} {list : TaskDumpList} {cells : List Cell}
    (represents : Represents s list cells) (held : Held s cells) {fuel : Nat} (enough : cells.length < fuel) :
    ∃ s', DumpPointers.destroyTaskDumpList fuel s = .ok (some s') ∧ s'.freed = s.freed ++ freedBy cells := by
  rw [DumpPointers.destroyTaskDumpList, represents.pointer]
  exact destroyLoop_chain enough represents.segment.chain held

/-! ## The records of the dumps -/

section Records

variable {s : State} {list : TaskDumpList} {cells : List Cell} (record : Nat → TaskDump)

/-- The list with the records in place of the objects that hold them. -/
def records (s : State) (list : TaskDumpList) : DumpHeap :=
  ⟨list.size.toInt, list.head, list.tail, s.nodes.map (Option.map record)⟩

def withRecords (cells : List Cell) : List (Nat × Option TaskDump) := cells.map fun cell => (cell.1, cell.2.map record)

theorem Represents.linked (represents : Represents s list cells) :
    DumpHeap.Linked (records record s list) (withRecords record cells) where
  chain := represents.segment.chain.map (Option.map record)
  tail := by
    rw [withRecords, List.getLast?_map, Option.map_map]
    exact represents.segment.tail
  size := by
    rw [withRecords, List.length_map]
    exact represents.size

/-- A call does to the records what it does to the objects. -/
theorem Represents.add_records (represents : Represents s list cells) (call : AddCall) :
    ∃ answer s' list' cells' heap, addTaskDumpToList s call = .ok (answer, s') ∧ Represents s' list' cells' ∧
      DumpHeap.addTaskDumpToList answer (call.dump.map record) (records record s list) = .ok (answer, heap) ∧
      DumpHeap.Linked heap (withRecords record cells') := by
  obtain ⟨answer, s', list', added, -, -, represents'⟩ := represents.add call
  obtain ⟨heap, added', linked⟩ := (represents.linked record).add answer (call.dump.map record)
  refine ⟨answer, s', list', _, heap, added, represents', added', ?_⟩
  rw [withRecords, List.map_append]
  cases answer <;> exact linked

/-- Reading at a `long` is reading at its value. -/
theorem Represents.getTaskDump_records (represents : Represents s list cells) {fuel : Nat}
    (enough : cells.length < fuel) (n : Int64) :
    ∃ dump, DumpPointers.getTaskDump fuel n s = .ok (some dump) ∧
      DumpHeap.getTaskDump fuel (records record s list) n.toInt = .ok (some (dump.map record)) := by
  have enough' : (withRecords record cells).length < fuel := by rwa [withRecords, List.length_map]
  refine ⟨_, represents.getTaskDump enough n, ?_⟩
  rw [(represents.linked record).getTaskDump enough', Carbonite.getTaskDump, withRecords, List.map_map, List.getElem?_map,
    List.getElem?_map]
  have sign : 0 ≤ n.toInt ↔ 0 ≤ n := by rw [Int64.le_iff_toInt_le, Int64.toInt_zero]
  by_cases inside : 0 ≤ n
  · rw [if_pos inside, if_pos (sign.2 inside)]
    cases cells[n.toInt.toNat]? <;> simp
  · rw [if_neg inside, if_neg (mt sign.1 inside), Option.map_none]

end Records

/-! ## What any calls leave -/

/-- A list made by `init_task_dump_list`, in any heap. -/
def start (nodes : Heap (Option Nat)) (dumps : Ledger) : State := ⟨initTaskDumpList true, nodes, dumps, []⟩

/-- The list is a sequence of nodes: its ends and its size, what is read from it, and what its destruction frees. -/
structure RefinesSequence (s : State) (list : TaskDumpList) (cells : List Cell) : Prop where
  pointer : s.list = some list
  ends : (list.head = none ↔ list.tail = none) ∧ (list.tail = none ↔ list.size = 0)
  visits : Chain s.nodes list.head cells
  distinct : (cells.map Prod.fst).Nodup
  size : list.size.toInt = cells.length ∧ getSize s.list = list.size
  last : list.tail = cells.getLast?.map Prod.fst
  lastNext : ∀ a, list.tail = some a → ∃ v, s.nodes.cell a = some ⟨v, none⟩
  reads : ∀ n fuel, cells.length < fuel → getTaskDump fuel n s =
    .ok (some (if 0 ≤ n then (cells.map Prod.snd)[n.toInt.toNat]?.join else none))
  destroys : ∀ fuel, cells.length < fuel →
    ∃ s', destroyTaskDumpList fuel s = .ok (some s') ∧ s'.freed = s.freed ++ freedBy cells
  once : (freedBy cells).Nodup
  nodes : ∀ a, .node a ∈ freedBy cells ↔ a ∈ cells.map Prod.fst
  dumps : ∀ d, .dump d ∈ freedBy cells ↔ d ∈ heldDumps cells

theorem Represents.size_eq_zero_iff {s : State} {list : TaskDumpList} {cells : List Cell}
    (represents : Represents s list cells) : list.size = 0 ↔ cells = [] := by
  rw [← Int64.toInt_inj, represents.size, Int64.toInt_zero, Int.natCast_eq_zero, List.length_eq_zero_iff]

theorem Represents.refines {s : State} {list : TaskDumpList} {cells : List Cell} (represents : Represents s list cells)
    (held : Held s cells) : RefinesSequence s list cells where
  pointer := represents.pointer
  ends := by
    rw [represents.segment.head_eq_none_iff, represents.segment.tail_eq_none_iff, represents.size_eq_zero_iff]
    exact ⟨.rfl, .rfl⟩
  visits := represents.segment.chain
  distinct := represents.segment.chain.nodup
  size := ⟨represents.size, by rw [represents.pointer]; rfl⟩
  last := represents.segment.tail
  lastNext _ := represents.segment.last_next
  reads n _ enough := represents.getTaskDump enough n
  destroys _ := represents.destroyTaskDumpList held
  once := freedBy_nodup represents.segment.chain.nodup held.1
  nodes _ := node_mem_freedBy
  dumps _ := dump_mem_freedBy

theorem appended_sublist (calls : List AddCall) (answers : List Bool) :
    (appended calls answers).Sublist (calls.map AddCall.dump) := by
  induction calls generalizing answers with
  | nil => exact .slnil
  | cons call calls ih =>
    cases answers with
    | nil => exact List.nil_sublist _
    | cons answer answers =>
      cases answer with
      | false => exact (ih answers).cons _
      | true => exact (ih answers).cons_cons _

/-- The nodes hold dumps of the calls. -/
theorem heldDumps_sublist {cells : List Cell} {calls : List AddCall} {answers : List Bool}
    (same : cells.map Prod.snd = appended calls answers) :
    (heldDumps cells).Sublist (calls.filterMap AddCall.dump) := by
  have sublist := (appended_sublist calls answers).filterMap id
  rwa [← same, List.filterMap_map, List.filterMap_map] at sublist

/-- **The dump list refines a sequence**: any calls with distinct dumps leave the nodes of those that return 1, in order;
the rest of `task-dump-list.c` reads and frees exactly these. A further call returns 1 if its node is allocated, and a
call that returns 0 changes nothing. -/
theorem dump_list_refines_sequence (nodes : Heap (Option Nat)) (dumps : Ledger) (calls : List AddCall)
    (distinct : (calls.filterMap AddCall.dump).Nodup) (objects : ∀ d ∈ calls.filterMap AddCall.dump, d ∈ dumps.live) :
    (∃ answers s list cells, Runs.run addTaskDumpToList calls (start nodes dumps) = .ok (answers, s) ∧
      answers.length = calls.length ∧ cells.map Prod.snd = appended calls answers ∧ RefinesSequence s list cells ∧
      ∀ call : AddCall, call.kmalloc = true → s.nodes.top < maxNodes → ∃ s', addTaskDumpToList s call = .ok (true, s')) ∧
    ∀ s call s', addTaskDumpToList s call = .ok (false, s') → s' = s := by
  refine ⟨?_, fun _ _ _ => addTaskDumpToList_false⟩
  obtain ⟨answers, s, list, cells, ran, length, same, -, represents, appends⟩ :=
    (Represents.init nodes dumps []).run calls
  have sublist := heldDumps_sublist appends
  refine ⟨answers, s, list, cells, ran, length, appends, represents.refines ⟨sublist.nodup distinct, ?_⟩, ?_⟩
  · intro d member
    rw [same]
    exact objects d (sublist.subset member)
  · intro call memory room
    obtain ⟨list', nodes', added, -⟩ := represents.append ⟨memory, room⟩
    exact ⟨_, added⟩

/-- Three dumps that are allocated. -/
def threeDumps : Ledger := Ledger.empty.alloc.2.alloc.2.alloc.2

/-- Three dumps and NULL; one of the calls finds no memory for its node. -/
def someCalls : List AddCall := [⟨some 0, true⟩, ⟨some 1, false⟩, ⟨none, true⟩, ⟨some 2, true⟩]

theorem dump_list_refines_some_calls : ∃ s list,
    Runs.run addTaskDumpToList someCalls (start .empty threeDumps) = .ok ([true, false, true, true], s) ∧
      RefinesSequence s list [(0, some 0), (1, none), (2, some 2)] := by
  obtain ⟨answers, s, list, cells, ran, -, -, refines, -⟩ :=
    (dump_list_refines_sequence .empty threeDumps someCalls (by decide) (by decide)).1
  obtain ⟨s', list', ran', pointer, chain⟩ : ∃ s' list',
      Runs.run addTaskDumpToList someCalls (start .empty threeDumps) = .ok ([true, false, true, true], s') ∧
      s'.list = some list' ∧ Chain s'.nodes list'.head [(0, some 0), (1, none), (2, some 2)] :=
    ⟨_, _, rfl, rfl, rfl, _, rfl, rfl, _, rfl, rfl, _, rfl, rfl⟩
  rw [ran] at ran'
  cases ran'
  obtain rfl : list = list' := Option.some.inj (refines.pointer.symm.trans pointer)
  obtain rfl := refines.visits.unique chain
  exact ⟨s, list, ran, refines⟩

end Carbonite.DumpPointers
