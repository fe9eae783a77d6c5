import SecuritySuite.Carbonite.ConcurrentDumps

/-!
# Readers of the dump list beside the calls that extend it

`get_task_dump` takes no lock: a reader of the dump file follows `head` and the links while `carbonite` appends. Each access
of a reader is a step, between any steps of the calls. No link ever leads to nowhere, even where calls append at once
(`Intact.step`), and `answers_in_time` says that nobody can keep a reader waiting. Where no two calls append at once, the
nodes that can be reached from `head` only become more (`Steady.step`), so a reader that stands on the node with some index
stands there for good: `reads_linearise` says that what it gets is the record that the list had at its index when it
called or when it returned.
-/

namespace Carbonite.Readers
set_option autoImplicit false
open LinkedHeap DumpHeap Runs Concurrent

/-- The next access of `get_task_dump(list, n)`. -/
inductive ReadPlace where
  | idle
  | readHead (n : Int)
  | readSize (n : Int) (node : Option Nat)
  /-- `while(n-- && node)`, and `node->task_dump` behind it. -/
  | walk (n : Int) (node : Option Nat)
  | returned (dump : Option TaskDump)
deriving DecidableEq

/-- Between two calls. -/
def ReadPlace.atRest : ReadPlace → Bool
  | .idle => true
  | .returned _ => true
  | _ => false

def readStep (list : DumpHeap) : ReadPlace → Except HeapFault ReadPlace
  | .idle => .ok .idle
  | .readHead n => .ok (.readSize n list.head)
  | .readSize n node => .ok (if list.size < n then .returned none else .walk n node)
  | .walk _ none => .ok (.returned none)
  | .walk n (some node) =>
    match list.nodes.cell node with
    | none => .error .dangling
    | some cell => .ok (if n = 0 then .returned cell.value else .walk (n - 1) cell.next)
  | .returned dump => .ok (.returned dump)

variable {Id Reader : Type} [DecidableEq Id] [DecidableEq Reader]

structure State (Id Reader : Type) where
  dumping : Concurrent.State Id Id
  reading : Reader → ReadPlace

inductive Op (Id Reader : Type) where
  /-- The next step of a call of `carbonite`. -/
  | carbonite (id : Id)
  /-- A reader that is at rest calls `get_task_dump(list, n)`. -/
  | getTaskDump (reader : Reader) (n : Int)
  /-- The next access of a reader. -/
  | reads (reader : Reader)
deriving DecidableEq

variable (call : Id → DumpCall)

def step (s : State Id Reader) : Op Id Reader → Except HeapFault (Unit × State Id Reader)
  | .carbonite id =>
    match Concurrent.step (ownLocks call) s.dumping id with
    | .error fault => .error fault
    | .ok (_, dumping) => .ok ((), { s with dumping })
  | .getTaskDump reader n =>
    if (s.reading reader).atRest then
      .ok ((), { s with reading := Function.update s.reading reader (.readHead n) })
    else .ok ((), s)
  | .reads reader =>
    match readStep s.dumping.list (s.reading reader) with
    | .error fault => .error fault
    | .ok place => .ok ((), { s with reading := Function.update s.reading reader place })

/-- No call of `carbonite` reaches its lock while another one is inside. -/
def Apart (s : State Id Reader) : Op Id Reader → Prop
  | .carbonite id => ¬ Overlaps s.dumping id
  | _ => True

instance [Fintype Id] (s : State Id Reader) : (op : Op Id Reader) → Decidable (Apart s op)
  | .carbonite id => inferInstanceAs (Decidable (¬ Overlaps s.dumping id))
  | .getTaskDump _ _ => inferInstanceAs (Decidable True)
  | .reads _ => inferInstanceAs (Decidable True)

/-- No call has begun, the list is in order, and nobody reads. -/
structure Opens (s : State Id Reader) (before : List Cell) : Prop where
  dumping : Starts s.dumping before
  reading : ∀ reader, s.reading reader = .idle

/-! ## By itself -/

/-- So many accesses of a reader while nothing else happens. -/
def readSteps (list : DumpHeap) : Nat → ReadPlace → Except HeapFault ReadPlace
  | 0, place => .ok place
  | count + 1, place =>
    match readStep list place with
    | .error fault => .error fault
    | .ok place => readSteps list count place

theorem readSteps_walk {list : DumpHeap} {fuel : Nat} {n : Int} {node last : Option Nat} {dump : Option TaskDump}
    (walked : walk list.nodes fuel n node = .ok (some last))
    (ends : (last = none ∧ dump = none) ∨ ∃ a cell, last = some a ∧ list.nodes.cell a = some cell ∧ dump = cell.value) :
    ∃ count, readSteps list count (.walk n node) = .ok (.returned dump) := by
  induction fuel generalizing n node with
  | zero => cases walked
  | succ fuel ih =>
    cases node with
    | none =>
      obtain rfl : none = last := by
        rw [walk] at walked
        split at walked <;> simpa using walked
      rcases ends with ⟨-, rfl⟩ | ⟨a, cell, nothing, -⟩
      · exact ⟨1, rfl⟩
      · cases nothing
    | some a =>
      rw [walk] at walked
      by_cases arrived : n = 0
      · rw [if_pos arrived] at walked
        cases walked
        rcases ends with ⟨nothing, -⟩ | ⟨b, cell, same, found, rfl⟩
        · cases nothing
        · cases same
          exact ⟨1, by simp only [readSteps, readStep, found, if_pos arrived]⟩
      · rw [if_neg arrived] at walked
        cases found : list.nodes.cell a with
        | none => simp [found] at walked
        | some cell =>
          simp only [found] at walked
          obtain ⟨count, reads⟩ := ih walked
          exact ⟨count + 1, by simp only [readSteps, readStep, found, if_neg arrived, reads]⟩

/-- **Undisturbed, the accesses of a reader make up `get_task_dump`.** -/
theorem read_alone {list : DumpHeap} {fuel : Nat} {n : Int} {dump : Option TaskDump}
    (ran : DumpHeap.getTaskDump fuel list n = .ok (some dump)) :
    ∃ count, readSteps list count (.readHead n) = .ok (.returned dump) := by
  rw [DumpHeap.getTaskDump] at ran
  by_cases behind : list.size < n
  · rw [if_pos behind] at ran
    cases ran
    exact ⟨2, by simp [readSteps, readStep, behind]⟩
  · rw [if_neg behind] at ran
    have walked : ∃ count, readSteps list count (.walk n list.head) = .ok (.returned dump) := by
      split at ran
      · cases ran
      · cases ran
      · cases ran
        exact readSteps_walk ‹_› (.inl ⟨rfl, rfl⟩)
      · split at ran
        · cases ran
        · cases ran
          exact readSteps_walk ‹_› (.inr ⟨_, _, rfl, ‹_›, rfl⟩)
    obtain ⟨count, reads⟩ := walked
    exact ⟨count + 2, by simp only [readSteps, readStep, if_neg behind, reads]⟩

/-! ## No link leads to nowhere -/

/-- The pointers of a call at this place, and what it has seen of `tail`. -/
def Holds (known : Set Nat) (list : DumpHeap) : Place → Prop
  | .readHead node _ => node.1 ∈ known
  | .setTail node _ => node.1 ∈ known
  | .setHead node _ => node.1 ∈ known ∧ list.tail.isSome
  | .readTail node _ => node.1 ∈ known ∧ list.tail.isSome
  | .setNext tail node _ => node.1 ∈ known ∧ tail.isSome ∧ Leads known tail
  | .moveTail node _ => node.1 ∈ known
  | _ => True

/-- All pointers lead to nodes, and a list with a `head` has a `tail`, whoever has added to it. -/
structure Anchored (known : Set Nat) (s : Concurrent.State Id Id) : Prop where
  closed : Closed s.list.nodes known
  head : Leads known s.list.head
  tail : Leads known s.list.tail
  ended : s.list.head.isSome → s.list.tail.isSome
  holds : ∀ id, Holds known s.list (s.place id)

/-- A reader stands on one of the nodes. -/
def Safe (known : Set Nat) : ReadPlace → Prop
  | .readSize _ node => Leads known node
  | .walk _ node => Leads known node
  | _ => True

section Anchored

variable {call} {known more : Set Nat} {before : List Cell} {s s' : Concurrent.State Id Id} {id : Id} {answer : Unit}

omit [DecidableEq Id] in
/-- A `tail` stays set, and nodes stay where they are. -/
theorem Holds.mono {list list' : DumpHeap} {place : Place} (holds : Holds known list place) (wider : known ⊆ more)
    (tail : list.tail.isSome → list'.tail.isSome) : Holds more list' place := by
  cases place with
  | readHead node rest | setTail node rest | moveTail node rest => exact wider holds
  | setHead node rest | readTail node rest => exact ⟨wider holds.1, tail holds.2⟩
  | setNext last node rest => exact ⟨wider holds.1, holds.2.1, holds.2.2.mono wider⟩
  | _ => trivial

omit [DecidableEq Id] in
theorem Anchored.init (starts : Starts s before) : Anchored {a | a ∈ before.map Prod.fst} s where
  closed := starts.linked.chain.closed.2
  head := starts.linked.chain.closed.1
  tail := by
    rw [starts.linked.tail]
    intro a last
    obtain ⟨cell, ends, rfl⟩ := Option.map_eq_some_iff.1 last
    exact List.mem_map_of_mem (List.mem_of_getLast? ends)
  ended set := by
    rw [Option.isSome_iff_ne_none] at set ⊢
    exact fun missing => set (starts.linked.head_eq_none_iff.2 (starts.linked.segment.tail_eq_none_iff.1 missing))
  holds id := by
    rw [starts.place]
    trivial

omit [DecidableEq Id] in
/-- The last node, as a call has read it, is there and can be made to lead to the new one. -/
theorem Anchored.setNext (anchored : Anchored known s) {tail : Option Nat} {node : Cell} {rest : List (Task × Kmalloc)}
    (stands : s.place id = .setNext tail node rest) : node.1 ∈ known ∧
      ∃ nodes, (tail.bind fun tail => s.list.nodes.setNext tail (some node.1)) = some nodes ∧ Closed nodes known := by
  have holds := anchored.holds id
  rw [stands] at holds
  obtain ⟨member, set, leads⟩ := holds
  obtain ⟨last, rfl⟩ := Option.isSome_iff_exists.1 set
  exact ⟨member, anchored.closed.setNext (leads_some.1 leads) (leads_some.2 member)⟩

/-- No call of `carbonite` follows a pointer to nowhere. -/
theorem Anchored.completes (anchored : Anchored known s) (id : Id) :
    ∃ s', Concurrent.step (ownLocks call) s id = .ok ((), s') := by
  cases place : s.place id with
  | setNext tail node rest =>
    obtain ⟨-, nodes, next, -⟩ := anchored.setNext place
    simp only [Concurrent.step, place, next]
    exact ⟨_, rfl⟩
  | lock =>
    simp only [Concurrent.step, place]
    split <;> exact ⟨_, rfl⟩
  | dump rest =>
    cases rest with
    | nil => exact ⟨_, by simp only [Concurrent.step, place]; rfl⟩
    | cons process rest =>
      simp only [Concurrent.step, place]
      split <;> exact ⟨_, rfl⟩
  | _ => exact ⟨_, by simp only [Concurrent.step, place]; rfl⟩

/-- The other calls hold what they held. -/
theorem Anchored.holds_of_step (anchored : Anchored known s) (next : Concurrent.step (ownLocks call) s id = .ok (answer, s'))
    (wider : known ⊆ more) (tail : s.list.tail.isSome → s'.list.tail.isSome) (here : Holds more s'.list (s'.place id)) :
    ∀ other, Holds more s'.list (s'.place other) := by
  intro other
  by_cases same : other = id
  · subst same
    exact here
  · rw [Concurrent.step_place_of_ne next same]
    exact (anchored.holds other).mono wider tail

/-- A step that leaves the list alone. -/
theorem Anchored.of_same (anchored : Anchored known s) (next : Concurrent.step (ownLocks call) s id = .ok (answer, s'))
    (nodes : s'.list.nodes = s.list.nodes) (head : s'.list.head = s.list.head) (tail : s'.list.tail = s.list.tail)
    (here : Holds known s'.list (s'.place id)) : Anchored known s' where
  closed := by
    rw [nodes]
    exact anchored.closed
  head := by
    rw [head]
    exact anchored.head
  tail := by
    rw [tail]
    exact anchored.tail
  ended := by
    rw [head, tail]
    exact anchored.ended
  holds := anchored.holds_of_step next subset_rfl (fun set => tail ▸ set) here

/-- A step of a call adds a node at most. -/
theorem Anchored.step (anchored : Anchored known s) (next : Concurrent.step (ownLocks call) s id = .ok (answer, s')) :
    ∃ more, known ⊆ more ∧ Anchored more s' := by
  have holds := anchored.holds id
  cases Concurrent.step_move next with
  | enter stands =>
    refine ⟨known, subset_rfl, anchored.of_same next rfl rfl rfl ?_⟩
    simp only [Function.update_self]
    split <;> trivial
  | wait stands held | done stands => exact ⟨known, subset_rfl, anchored⟩
  | leave stands | lock stands free | unlock stands | fail stands node | readSize stands | setSize stands =>
    refine ⟨known, subset_rfl, anchored.of_same next rfl rfl rfl ?_⟩
    simp only [Function.update_self]
    trivial
  | allocate stands node =>
    have wider : known ⊆ insert s.list.nodes.top known := Set.subset_insert ..
    refine ⟨_, wider, ?_⟩
    refine ⟨anchored.closed.alloc (.none _), anchored.head.mono wider, anchored.tail.mono wider, anchored.ended, ?_⟩
    apply anchored.holds_of_step next wider fun set => set
    simp only [Function.update_self]
    exact Set.mem_insert ..
  | readHead stands =>
    rw [stands] at holds
    refine ⟨known, subset_rfl, anchored.of_same next rfl rfl rfl ?_⟩
    simp only [Function.update_self]
    split
    · exact holds
    · rename_i headed
      have set : s.list.head.isSome := by simpa [Option.isSome_iff_ne_none] using headed
      exact ⟨holds, anchored.ended set⟩
  | setTail stands =>
    rw [stands] at holds
    refine ⟨known, subset_rfl, anchored.closed, anchored.head, leads_some.2 holds, fun _ => rfl, ?_⟩
    apply anchored.holds_of_step next subset_rfl fun _ => rfl
    simp only [Function.update_self]
    exact ⟨holds, rfl⟩
  | setHead stands =>
    rw [stands] at holds
    refine ⟨known, subset_rfl, anchored.closed, leads_some.2 holds.1, anchored.tail, fun _ => holds.2, ?_⟩
    apply anchored.holds_of_step next subset_rfl fun set => set
    simp only [Function.update_self]
    trivial
  | readTail stands =>
    rw [stands] at holds
    refine ⟨known, subset_rfl, anchored.of_same next rfl rfl rfl ?_⟩
    simp only [Function.update_self]
    exact ⟨holds.1, holds.2, anchored.tail⟩
  | setNext stands set =>
    obtain ⟨member, nodes', set', closed⟩ := anchored.setNext stands
    rw [set', Option.some.injEq] at set
    subst set
    refine ⟨known, subset_rfl, closed, anchored.head, anchored.tail, anchored.ended, ?_⟩
    apply anchored.holds_of_step next subset_rfl fun set => set
    simp only [Function.update_self]
    exact member
  | moveTail stands =>
    rw [stands] at holds
    refine ⟨known, subset_rfl, anchored.closed, anchored.head, leads_some.2 holds, fun _ => rfl, ?_⟩
    apply anchored.holds_of_step next subset_rfl fun _ => rfl
    simp only [Function.update_self]
    trivial

theorem Safe.mono {place : ReadPlace} (safe : Safe known place) (wider : known ⊆ more) : Safe more place := by
  cases place with
  | readSize n node | walk n node => exact Leads.mono safe wider
  | _ => trivial

/-- No access of a reader leads to nowhere. -/
theorem Safe.completes {list : DumpHeap} {place : ReadPlace} (safe : Safe known place) (closed : Closed list.nodes known)
    (head : Leads known list.head) : ∃ place', readStep list place = .ok place' ∧ Safe known place' := by
  cases place with
  | idle => exact ⟨.idle, rfl, trivial⟩
  | returned dump => exact ⟨.returned dump, rfl, trivial⟩
  | readHead n => exact ⟨.readSize n list.head, rfl, head⟩
  | readSize n node =>
    refine ⟨_, rfl, ?_⟩
    split
    · trivial
    · exact safe
  | walk n node =>
    cases node with
    | none => exact ⟨.returned none, rfl, trivial⟩
    | some a =>
      obtain ⟨cell, found, leads⟩ := closed a (leads_some.1 safe)
      refine ⟨_, by rw [readStep, found], ?_⟩
      split
      · trivial
      · exact leads

end Anchored

/-! ## Runs -/

/-- Calls and readers hold nodes only. -/
structure Intact (known : Set Nat) (s : State Id Reader) : Prop where
  dumping : Anchored known s.dumping
  safe : ∀ reader, Safe known (s.reading reader)

/-- What an operation makes of a reader that does not call. -/
inductive Effect (s : State Id Reader) (op : Op Id Reader) (s' : State Id Reader) (reader : Reader) : Prop where
  | kept (away : op ≠ .reads reader) (same : s'.reading reader = s.reading reader)
  | read (reads : op = .reads reader) (next : readStep s.dumping.list (s.reading reader) = .ok (s'.reading reader))

section Runs

variable {call} {known : Set Nat} {before : List Cell} {start s s' : State Id Reader} {op : Op Id Reader}
  {ops : List (Op Id Reader)} {reader : Reader} {answer : Unit}

omit [DecidableEq Id] [DecidableEq Reader] in
theorem Opens.intact (opens : Opens start before) : Intact {a | a ∈ before.map Prod.fst} start where
  dumping := .init opens.dumping
  safe reader := by
    rw [opens.reading]
    trivial

omit [DecidableEq Id] in
/-- A reader moves. -/
theorem Intact.reading (intact : Intact known s) {place : ReadPlace} (safe : Safe known place) :
    Intact known { s with reading := Function.update s.reading reader place } where
  dumping := intact.dumping
  safe other := by
    by_cases same : other = reader
    · subst same
      simpa using safe
    · simp only [Function.update_of_ne same]
      exact intact.safe other

/-- Every operation completes. -/
theorem Intact.step (intact : Intact known s) (op : Op Id Reader) :
    ∃ s' more, step call s op = .ok ((), s') ∧ Intact more s' := by
  cases op with
  | carbonite id =>
    obtain ⟨dumping, next⟩ : ∃ dumping, Concurrent.step (ownLocks call) s.dumping id = .ok ((), dumping) :=
      intact.dumping.completes id
    obtain ⟨more, wider, anchored⟩ := intact.dumping.step next
    exact ⟨{ s with dumping }, more, by rw [Readers.step, next], anchored, fun reader => (intact.safe reader).mono wider⟩
  | getTaskDump reader n =>
    by_cases rest : (s.reading reader).atRest = true
    · exact ⟨_, known, by rw [Readers.step, if_pos rest], intact.reading (show Safe known (.readHead n) from trivial)⟩
    · exact ⟨s, known, by rw [Readers.step, if_neg rest], intact⟩
  | reads reader =>
    obtain ⟨place, next, safe⟩ := (intact.safe reader).completes intact.dumping.closed intact.dumping.head
    exact ⟨_, known, by rw [Readers.step, next], intact.reading safe⟩

variable (call) in
/-- Every run completes. -/
theorem Intact.run (intact : Intact known s) (ops : List (Op Id Reader)) :
    ∃ s', Reaches (Readers.step call) s ops s' ∧ ∃ more, Intact more s' := by
  have always : Along (Readers.step call) (fun _ _ => True) ops s := .of_forall (fun _ _ => trivial) ops s
  apply keeps_along (fun s => ∃ more, Intact more s) _ ⟨known, intact⟩ always
  rintro s op ⟨known, intact⟩ -
  obtain ⟨s', more, next, intact'⟩ := intact.step op
  exact ⟨(), s', next, more, intact'⟩

theorem step_effect (next : step call s op = .ok (answer, s')) (own : ∀ n, op ≠ .getTaskDump reader n) :
    Effect s op s' reader := by
  cases op with
  | carbonite id =>
    rw [step] at next
    split at next
    · cases next
    · cases next
      exact .kept (by simp) rfl
  | getTaskDump other n =>
    have away : reader ≠ other := by
      rintro rfl
      exact own n rfl
    rw [step] at next
    split at next
    · cases next
      exact .kept (by simp) (Function.update_of_ne away ..)
    · cases next
      exact .kept (by simp) rfl
  | reads other =>
    rw [step] at next
    split at next
    · cases next
    · rename_i place access
      cases next
      by_cases same : reader = other
      · subst same
        exact .read rfl (by simpa using access)
      · exact .kept (by simpa using Ne.symm same) (Function.update_of_ne same ..)

/-- A call with an index that is not negative is under way, or has returned. -/
def ReadPlace.Asked : ReadPlace → Prop
  | .idle => False
  | .readHead n => 0 ≤ n
  | .readSize n _ => 0 ≤ n
  | .walk n _ => 0 ≤ n
  | .returned _ => True

/-- How many accesses such a reader has at most before it. -/
def ReadPlace.left : ReadPlace → Nat
  | .readHead n => n.toNat + 3
  | .readSize n _ => n.toNat + 2
  | .walk n _ => n.toNat + 1
  | _ => 0

/-- An access leaves one less. -/
theorem ReadPlace.Asked.step {list : DumpHeap} {place place' : ReadPlace} (asked : place.Asked)
    (next : readStep list place = .ok place') : place'.Asked ∧ place'.left ≤ place.left - 1 := by
  cases place with
  | idle => cases asked
  | returned dump =>
    cases next
    exact ⟨trivial, Nat.le_refl 0⟩
  | readHead n =>
    cases next
    exact ⟨asked, Nat.le_refl _⟩
  | readSize n node =>
    cases next
    split
    · exact ⟨trivial, Nat.zero_le _⟩
    · exact ⟨asked, Nat.le_refl _⟩
  | walk n node =>
    cases node with
    | none =>
      cases next
      exact ⟨trivial, Nat.zero_le _⟩
    | some a =>
      have ahead : 0 ≤ n := asked
      rw [readStep] at next
      split at next
      · cases next
      · cases next
        split
        · exact ⟨trivial, Nat.zero_le _⟩
        · refine ⟨show 0 ≤ n - 1 by omega, ?_⟩
          simp only [ReadPlace.left]
          omega

/-- What others do in between takes nothing back. -/
theorem asked_run (asked : (s.reading reader).Asked) (own : ∀ n, Op.getTaskDump reader n ∉ ops)
    (reaches : Reaches (step call) s ops s') : (s'.reading reader).Asked ∧
      (s'.reading reader).left ≤ (s.reading reader).left - ops.count (.reads reader) := by
  induction ops generalizing s with
  | nil =>
    obtain rfl := reaches_nil.1 reaches
    exact ⟨asked, Nat.le_refl _⟩
  | cons op ops ih =>
    obtain ⟨answer, s₁, next, rest⟩ := reaches_cons.1 reaches
    have first : (s₁.reading reader).Asked ∧
        (s₁.reading reader).left ≤ (s.reading reader).left - [op].count (.reads reader) := by
      cases step_effect next fun n same => own n (same ▸ List.mem_cons_self) with
      | kept away same =>
        rw [same, List.count_singleton, if_neg (by simpa using away), Nat.sub_zero]
        exact ⟨asked, Nat.le_refl _⟩
      | read reads access =>
        rw [reads, List.count_singleton_self]
        exact asked.step access
    have split : (op :: ops).count (.reads reader) = [op].count (.reads reader) + ops.count (.reads reader) := by
      rw [← List.singleton_append, List.count_append]
    obtain ⟨asked', left'⟩ := ih first.1 (fun n member => own n (List.mem_cons_of_mem _ member)) rest
    exact ⟨asked', by omega⟩

/-- A reader at rest that calls is at the beginning of its call. -/
theorem step_called {n : Int} (rest : (s.reading reader).atRest = true)
    (next : step call s (.getTaskDump reader n) = .ok (answer, s')) :
    s'.dumping = s.dumping ∧ s'.reading reader = .readHead n := by
  rw [step, if_pos rest] at next
  cases next
  exact ⟨rfl, Function.update_self ..⟩

variable (call) in
/-- **A reader is not kept waiting**: with an index that is not negative it has its answer after three accesses more
than the index, whatever the calls of `carbonite` do, also where they append at once. -/
theorem answers_in_time {n : Int} {mid : List (Op Id Reader)} (opens : Opens start before) (pre : List (Op Id Reader))
    (own : ∀ m, Op.getTaskDump reader m ∉ mid) (positive : 0 ≤ n) (enough : n.toNat + 3 ≤ mid.count (.reads reader)) :
    ∃ s₀ s, Reaches (step call) start pre s₀ ∧ Reaches (step call) s₀ (.getTaskDump reader n :: mid) s ∧
      ((s₀.reading reader).atRest = true → ∃ dump, s.reading reader = .returned dump) := by
  obtain ⟨s₀, reaches, known, intact⟩ := opens.intact.run call pre
  obtain ⟨s, reaches', -⟩ := intact.run call (.getTaskDump reader n :: mid)
  refine ⟨s₀, s, reaches, reaches', fun rest => ?_⟩
  obtain ⟨answer, s₁, called, later⟩ := reaches_cons.1 reaches'
  have begins := (step_called rest called).2
  obtain ⟨asked, left⟩ := asked_run (by rw [begins]; exact positive) own later
  rw [begins] at left
  have none_left : (s.reading reader).left = 0 := by
    simp only [ReadPlace.left] at left ⊢
    omega
  cases place : s.reading reader with
  | idle =>
    rw [place] at asked
    cases asked
  | returned dump => exact ⟨dump, rfl⟩
  | _ => simp [place, ReadPlace.left] at none_left

end Runs

/-! ## What can be reached from `head` -/

/-- The list between two steps: `size` counts the additions that are complete, and a first node is not linked before
`head` is set. -/
structure Steady (before : List Cell) (s : Concurrent.State Id Id) : Prop where
  sound : Sound before s
  counted : s.list.size = (s.cells before).length
  headless : ∀ id node rest, s.place id = .setHead node rest → s.list.head = none

section Steady

variable {call} {before : List Cell} {s s' : Concurrent.State Id Id} {id : Id} {answer : Unit}

omit [DecidableEq Id] in
theorem Steady.init (starts : Starts s before) : Steady before s where
  sound := starts.sound
  counted := by
    rw [State.cells, starts.added, List.map_nil, List.append_nil]
    exact starts.linked.size
  headless id node rest stands := by
    rw [starts.place] at stands
    cases stands

omit [DecidableEq Id] in
/-- From `head` one gets to the nodes that are counted, and to one more at most. -/
theorem Steady.chain (steady : Steady before s) :
    ∃ more, more.length ≤ 1 ∧ Chain s.list.nodes s.list.head (s.cells before ++ more) := by
  by_cases busy : ∃ id, (s.place id).inside = true
  case neg =>
    have linked := steady.sound.outside fun id => by simpa using not_exists.1 busy id
    exact ⟨[], by simp, by simpa using linked.chain⟩
  obtain ⟨id, inside⟩ := busy
  have fits := steady.sound.inside id inside
  cases place : s.place id with
  | moveTail node rest | readSize node rest | setSize size node rest =>
    rw [place] at fits
    exact ⟨[node], by simp, fits.1⟩
  | readHead node rest | setTail node rest | readTail node rest | setNext tail node rest =>
    rw [place] at fits
    exact ⟨[], by simp, by simpa using fits.1.chain⟩
  | setHead node rest =>
    rw [place] at fits
    refine ⟨[], by simp, ?_⟩
    rw [fits.1, steady.headless id node rest place]
    rfl
  | enter | suppress | lock | dump rest | setReason | out =>
    rw [place] at fits
    exact ⟨[], by simp, by simpa using fits.chain⟩

/-- A step of a call keeps the list in order, and what could be reached from `head` still can. -/
theorem Steady.step (steady : Steady before s) (apart : ¬ Overlaps s id) (guarded : Guarded (ownLocks call) s)
    (next : Concurrent.step (ownLocks call) s id = .ok (answer, s')) :
    Steady before s' ∧ ∀ cells, Chain s.list.nodes s.list.head cells →
      ∃ more, Chain s'.list.nodes s'.list.head (cells ++ more) := by
  have calm : ¬ Intrudes (ownLocks call) s id := fun intrudes => apart ((intrudes_iff guarded).1 intrudes)
  have sound' := Concurrent.step_sound steady.sound calm next
  have fits := fun inside => steady.sound.inside id inside
  have others := fun other (different : other ≠ id) => Concurrent.step_place_of_ne next different
  have alone : (s.place id).inside = true → ∀ other node rest, other ≠ id → s.place other ≠ .setHead node rest := by
    intro inside other node rest different stands
    exact different (steady.sound.exclusive other id (by rw [stands]; rfl) inside)
  have kept : s'.list.head = s.list.head → (∀ node rest, s'.place id ≠ .setHead node rest) →
      ∀ other node rest, s'.place other = .setHead node rest → s'.list.head = none := by
    intro head elsewhere other node rest stands
    by_cases here : other = id
    · exact absurd (here ▸ stands) (elsewhere node rest)
    · rw [head]
      exact steady.headless other node rest (others other here ▸ stands)
  have same : ∀ cells, Chain s.list.nodes s.list.head cells → ∃ more, Chain s.list.nodes s.list.head (cells ++ more) :=
    fun cells chain => ⟨[], by simpa using chain⟩
  cases Concurrent.step_move next with
  | enter stands =>
    refine ⟨⟨sound', steady.counted, kept rfl fun node rest => ?_⟩, same⟩
    simp only [Function.update_self]
    split <;> simp
  | leave stands => exact ⟨⟨sound', steady.counted, kept rfl (by simp)⟩, same⟩
  | wait stands held => exact ⟨steady, same⟩
  | done stands => exact ⟨steady, same⟩
  | lock stands free => exact ⟨⟨sound', steady.counted, kept rfl (by simp)⟩, same⟩
  | unlock stands => exact ⟨⟨sound', steady.counted, kept rfl (by simp)⟩, same⟩
  | fail stands node => exact ⟨⟨sound', steady.counted, kept rfl (by simp)⟩, same⟩
  | allocate stands node =>
    exact ⟨⟨sound', steady.counted, kept rfl (by simp)⟩, fun cells chain => ⟨[], by simpa using chain.alloc _⟩⟩
  | readHead stands =>
    refine ⟨⟨sound', steady.counted, kept rfl fun node rest => ?_⟩, same⟩
    simp only [Function.update_self]
    split <;> simp
  | setTail stands =>
    rw [stands] at fits
    obtain ⟨linked, empty, -⟩ := fits rfl
    exact ⟨⟨sound', steady.counted, fun _ _ _ _ => linked.head_eq_none_iff.2 empty⟩, same⟩
  | @setHead node rest stands =>
    rw [stands] at fits
    obtain ⟨empty, fresh, -⟩ := fits rfl
    refine ⟨⟨sound', steady.counted, fun other node' rest' stands' => ?_⟩, fun cells chain => ⟨[node], ?_⟩⟩
    · by_cases here : other = id
      · simp [here] at stands'
      · rw [others other here] at stands'
        exact absurd stands' (alone (by rw [stands]; rfl) other node' rest' here)
    · rw [steady.headless id node rest stands] at chain
      obtain rfl : cells = [] := chain.unique rfl
      exact (Segment.first node fresh.stored).chain
  | readTail stands => exact ⟨⟨sound', steady.counted, kept rfl (by simp)⟩, same⟩
  | @setNext tail node rest nodes stands set =>
    refine ⟨⟨sound', steady.counted, kept rfl (by simp)⟩, fun cells chain => ⟨[node], ?_⟩⟩
    rw [stands] at fits
    obtain ⟨linked, nonempty, fresh, rfl⟩ := fits rfl
    obtain ⟨nodes', set', longer⟩ := linked.setNext nonempty _ fresh.stored fresh.new
    rw [set, Option.some.injEq] at set'
    subst set'
    rw [chain.unique linked.chain]
    exact longer
  | moveTail stands => exact ⟨⟨sound', steady.counted, kept rfl (by simp)⟩, same⟩
  | readSize stands => exact ⟨⟨sound', steady.counted, kept rfl (by simp)⟩, same⟩
  | @setSize size node rest stands =>
    refine ⟨⟨sound', ?_, kept rfl (by simp)⟩, same⟩
    rw [stands] at fits
    obtain ⟨-, -, rfl⟩ := fits rfl
    simp only [Concurrent.State.cells, List.length_append, List.length_map, List.length_singleton]
    omega

end Steady

/-! ## A reader on its way -/

/-- Where a pointer stands that was moved `k` times from `head`: on the node with that index, or behind a list that
had no such node when the reader called. -/
def At (called cells : List Cell) (k : Nat) : Option Nat → Prop
  | none => called.length ≤ k
  | some a => (cells[k]?).map Prod.fst = some a

/-- A reader has called with this index when the list had the nodes `called`. -/
def Stands (called cells : List Cell) (n : Int) : ReadPlace → Prop
  | .idle => False
  | .readHead m => m = n
  | .readSize m node => m = n ∧ At called cells 0 node
  | .walk m node => (0 ≤ n → 0 ≤ m) ∧ ∃ k : Nat, m + k = n ∧ At called cells k node
  | .returned dump => (dump = none ∧ (n < 0 ∨ called.length ≤ n)) ∨ ∃ k : Nat, ∃ node, n = k ∧ cells[k]? = some (node, dump)

section Reading

variable {called cells more : List Cell} {list : DumpHeap} {n : Int} {place : ReadPlace}

theorem At.append {k : Nat} {node : Option Nat} (stands : At called cells k node) : At called (cells ++ more) k node := by
  cases node with
  | none => exact stands
  | some a =>
    obtain ⟨cell, found, same⟩ := Option.map_eq_some_iff.1 stands
    show ((cells ++ more)[k]?).map Prod.fst = some a
    rw [List.getElem?_append_left (List.getElem?_eq_some_iff.1 found).1, found, Option.map_some, same]

theorem Stands.append (stands : Stands called cells n place) : Stands called (cells ++ more) n place := by
  cases place with
  | idle => exact stands
  | readHead m => exact stands
  | readSize m node => exact ⟨stands.1, stands.2.append⟩
  | walk m node =>
    obtain ⟨positive, k, steps, here⟩ := stands
    exact ⟨positive, k, steps, here.append⟩
  | returned dump =>
    rcases stands with missing | ⟨k, node, index, found⟩
    · exact .inl missing
    · refine .inr ⟨k, node, index, ?_⟩
      rw [List.getElem?_append_left (List.getElem?_eq_some_iff.1 found).1, found]

/-- The link of a node leads to the next one. -/
theorem chain_next {h : Heap (Option TaskDump)} {link : Option Nat} {k a : Nat} {dump : Option TaskDump}
    (chain : Chain h link cells) (found : cells[k]? = some (a, dump)) :
    ∃ next, h.cell a = some ⟨dump, next⟩ ∧ next = (cells[k + 1]?).map Prod.fst := by
  obtain ⟨before, rest, rfl, rfl⟩ : ∃ before rest, cells = before ++ (a, dump) :: rest ∧ before.length = k := by
    obtain ⟨inside, here⟩ := List.getElem?_eq_some_iff.1 found
    refine ⟨cells.take k, cells.drop (k + 1), ?_, by rw [List.length_take]; omega⟩
    rw [← here, List.getElem_cons_drop, List.take_append_drop]
  obtain ⟨-, next, stored, later⟩ := chain.behind
  refine ⟨next, stored, ?_⟩
  rw [List.getElem?_append_right (by omega), show before.length + 1 - before.length = 0 + 1 by omega,
    List.getElem?_cons_succ]
  cases rest with
  | nil => exact later
  | cons cell rest => exact later.1

theorem chain_head {h : Heap (Option TaskDump)} {link : Option Nat} (chain : Chain h link cells) :
    link = (cells[0]?).map Prod.fst := by
  cases cells with
  | nil => exact chain
  | cons cell cells => exact chain.1

/-- An access takes a reader to the node behind its own, or back with an answer. -/
theorem Stands.step {place' : ReadPlace} (stands : Stands called cells n place) (chain : Chain list.nodes list.head cells)
    (earlier : called.length ≤ cells.length) (counted : cells.length ≤ list.size + 1)
    (next : readStep list place = .ok place') : Stands called cells n place' := by
  have lengths : ∀ k : Nat, cells[k]? = none → called.length ≤ k := by
    intro k ends
    rw [List.getElem?_eq_none_iff] at ends
    omega
  have there : ∀ k : Nat, At called cells k ((cells[k]?).map Prod.fst) := by
    intro k
    cases found : cells[k]? with
    | none => exact lengths k found
    | some cell => simp [At, found]
  cases place with
  | idle => cases stands
  | returned dump =>
    cases next
    exact stands
  | readHead m =>
    cases next
    refine ⟨stands, ?_⟩
    rw [chain_head chain]
    exact there 0
  | readSize m node =>
    cases next
    obtain ⟨rfl, here⟩ := stands
    split
    · exact .inl ⟨rfl, by omega⟩
    · exact ⟨id, 0, by omega, here⟩
  | walk m node =>
    obtain ⟨positive, k, steps, here⟩ := stands
    cases node with
    | none =>
      cases next
      have short : called.length ≤ k := here
      exact .inl ⟨rfl, by omega⟩
    | some a =>
      obtain ⟨⟨a', dump⟩, found, rfl⟩ := Option.map_eq_some_iff.1 here
      obtain ⟨link, stored, rfl⟩ := chain_next chain found
      rw [readStep, stored, Except.ok.injEq] at next
      subst next
      split
      · exact .inr ⟨k, a', by omega, found⟩
      · exact ⟨by omega, k + 1, by omega, there (k + 1)⟩

end Reading

/-! ## Runs in which no two calls append at once -/

/-- The nodes that can be reached, while calls and readers are at work. -/
structure Served (before : List Cell) (s : State Id Reader) (cells : List Cell) : Prop where
  steady : Steady before s.dumping
  guarded : Guarded (ownLocks call) s.dumping
  chain : Chain s.dumping.list.nodes s.dumping.list.head cells

section Served

variable {call} {before cells : List Cell} {start s s' : State Id Reader} {op : Op Id Reader} {ops : List (Op Id Reader)}
  {reader : Reader} {n : Int} {answer : Unit}

omit [DecidableEq Id] [DecidableEq Reader] in
theorem Opens.served (opens : Opens start before) : Served call before start before where
  steady := .init opens.dumping
  guarded := opens.dumping.guarded
  chain := opens.dumping.linked.chain

omit [DecidableEq Id] [DecidableEq Reader] in
theorem Served.counted (served : Served call before s cells) : cells.length ≤ s.dumping.list.size + 1 := by
  obtain ⟨more, short, chain⟩ := served.steady.chain
  rw [served.chain.unique chain, List.length_append, served.steady.counted]
  omega

omit [DecidableEq Id] [DecidableEq Reader] in
theorem Served.of_same (served : Served call before s cells) (same : s'.dumping = s.dumping) : Served call before s' cells :=
  ⟨same ▸ served.steady, same ▸ served.guarded, same ▸ served.chain⟩

/-- Only the calls of `carbonite` touch the list. -/
theorem step_dumping (next : step call s op = .ok (answer, s')) :
    s'.dumping = s.dumping ∨ ∃ id, op = .carbonite id ∧
      Concurrent.step (ownLocks call) s.dumping id = .ok ((), s'.dumping) := by
  cases op with
  | carbonite id =>
    rw [step] at next
    split at next
    · cases next
    · rename_i answer dumping ran
      cases next
      exact .inr ⟨id, rfl, ran⟩
  | getTaskDump reader n =>
    rw [step] at next
    split at next <;> cases next <;> exact .inl rfl
  | reads reader =>
    rw [step] at next
    split at next
    · cases next
    · cases next
      exact .inl rfl

/-- No operation moves what a reader has passed. -/
theorem Served.step (served : Served call before s cells) (apart : Apart s op) (next : step call s op = .ok (answer, s')) :
    ∃ more, Served call before s' (cells ++ more) := by
  rcases step_dumping next with same | ⟨id, rfl, ran⟩
  · refine ⟨[], ?_⟩
    rw [List.append_nil]
    exact served.of_same same
  · obtain ⟨steady, grows⟩ := served.steady.step apart served.guarded ran
    obtain ⟨more, chain⟩ := grows cells served.chain
    exact ⟨more, steady, step_guarded served.guarded ran, chain⟩

theorem Served.run (served : Served call before s cells) (apart : Along (Readers.step call) Apart ops s)
    (reaches : Reaches (Readers.step call) s ops s') : ∃ more, Served call before s' (cells ++ more) := by
  apply invariant_of_along (fun s => ∃ more, Served call before s (cells ++ more)) _ ⟨[], ?_⟩ apart reaches
  · rintro s op answer s' ⟨more, served⟩ apart next
    obtain ⟨more', served'⟩ := served.step apart next
    exact ⟨more ++ more', by rwa [← List.append_assoc]⟩
  · rwa [List.append_nil]

/-- A reader is followed through a run in which it does not call again. -/
theorem Served.watch {called : List Cell} (served : Served call before s cells) (earlier : called.length ≤ cells.length)
    (stands : Stands called cells n (s.reading reader)) (apart : Along (Readers.step call) Apart ops s)
    (own : ∀ m, Op.getTaskDump reader m ∉ ops) (reaches : Reaches (Readers.step call) s ops s') :
    ∃ more, Served call before s' (cells ++ more) ∧ Stands called (cells ++ more) n (s'.reading reader) := by
  induction ops generalizing s cells with
  | nil =>
    obtain rfl := reaches_nil.1 reaches
    exact ⟨[], by simpa using served, by simpa using stands⟩
  | cons op ops ih =>
    obtain ⟨answer, s₁, next, rest⟩ := reaches_cons.1 reaches
    obtain ⟨more, served₁⟩ := served.step apart.1 next
    have stands₁ : Stands called (cells ++ more) n (s₁.reading reader) := by
      cases step_effect next fun m same => own m (same ▸ List.mem_cons_self) with
      | kept away same =>
        rw [same]
        exact stands.append
      | read reads access => exact (stands.step served.chain earlier served.counted access).append
    have later : called.length ≤ (cells ++ more).length := by
      rw [List.length_append]
      omega
    obtain ⟨more', served', stands'⟩ := ih served₁ later stands₁ (apart.2 _ _ next)
      (fun m member => own m (List.mem_cons_of_mem _ member)) rest
    rw [List.append_assoc] at served' stands'
    exact ⟨more ++ more', served', stands'⟩

end Served

section Answers

variable {start : State Id Reader} {before : List Cell} {reader : Reader} {n : Int} {pre mid : List (Op Id Reader)}

/-- **What a reader gets is the record at its index** in the list of when it called or in that of when it returned,
whatever is appended in between, as long as no two calls of `carbonite` append at once. -/
theorem reads_linearise (opens : Opens start before)
    (apart : Along (step call) Apart (pre ++ .getTaskDump reader n :: mid) start)
    (own : ∀ m, Op.getTaskDump reader m ∉ mid) :
    ∃ s₀ s cells more, Reaches (step call) start pre s₀ ∧ Reaches (step call) s₀ (.getTaskDump reader n :: mid) s ∧
      Chain s₀.dumping.list.nodes s₀.dumping.list.head cells ∧
      Chain s.dumping.list.nodes s.dumping.list.head (cells ++ more) ∧
      ((s₀.reading reader).atRest = true → ∀ dump, s.reading reader = .returned dump →
        dump = getTaskDump (cells.map Prod.snd) n ∨ dump = getTaskDump ((cells ++ more).map Prod.snd) n) := by
  obtain ⟨s₀, reaches, known, intact⟩ := opens.intact.run call pre
  obtain ⟨s, reaches', -⟩ := intact.run call (.getTaskDump reader n :: mid)
  obtain ⟨front, behind⟩ := along_append.1 apart
  obtain ⟨more₀, served⟩ := opens.served.run front reaches
  by_cases rests : (s₀.reading reader).atRest = true
  case neg =>
    obtain ⟨more, served'⟩ := served.run (behind s₀ reaches) reaches'
    exact ⟨s₀, s, _, more, reaches, reaches', served.chain, served'.chain, fun rests' => absurd rests' rests⟩
  obtain ⟨answer, s₁, called, rest⟩ := reaches_cons.1 reaches'
  obtain ⟨same, begins⟩ := step_called rests called
  have stands : Stands (before ++ more₀) (before ++ more₀) n (s₁.reading reader) := by
    rw [begins]
    rfl
  obtain ⟨more, served', stands'⟩ := (served.of_same same).watch (Nat.le_refl _) stands ((behind s₀ reaches).2 _ _ called)
    own rest
  refine ⟨s₀, s, _, more, reaches, reaches', served.chain, served'.chain, fun _ dump returned => ?_⟩
  rw [returned] at stands'
  rcases stands' with ⟨rfl, missing⟩ | ⟨k, node, rfl, found⟩
  · left
    rw [getTaskDump]
    split
    · rw [List.getElem?_eq_none (by rw [List.length_map]; omega)]
      rfl
    · rfl
  · right
    rw [getTaskDump, if_pos (by omega), Int.toNat_natCast, List.getElem?_map, found]
    rfl

end Answers

/-! ### Two readers beside the first addition -/

def opened : State Bool Bool := ⟨loaded, fun _ => .idle⟩

theorem opened_opens : Opens opened [] := ⟨loaded_starts, fun _ => rfl⟩

/-- The first reader finds no `head`, which is set next. -/
def headless : List (Op Bool Bool) :=
  List.replicate 5 (.carbonite false) ++ [.getTaskDump false 0, .reads false, .carbonite false]

/-- The second reader finds it, and is at its index before the new size is stored. -/
def uncounted : List (Op Bool Bool) :=
  [.reads true, .reads false, .carbonite false, .reads true, .reads false, .reads true, .carbonite false]

/-- What the first call adds. -/
def firstRecord : TaskDump := (processOf 1).1.record

theorem headless_runs : ∃ s, Reaches (step triggered) opened headless s ∧ s.reading true = .idle := ⟨_, ⟨_, rfl⟩, rfl⟩

theorem uncounted_runs : ∃ s, Reaches (step triggered) opened (headless ++ .getTaskDump true 0 :: uncounted) s ∧
    s.reading false = .returned none ∧ s.reading true = .returned (some firstRecord) := ⟨_, ⟨_, rfl⟩, rfl, rfl⟩

theorem uncounted_apart : Along (step triggered) Apart (headless ++ .getTaskDump true 0 :: uncounted) opened := by
  decide +kernel

/-- What the second reader has got is in the list when it returns, and the first one has got nothing. -/
theorem reads_linearise_uncounted :
    ∃ s cells, Reaches (step triggered) opened (headless ++ .getTaskDump true 0 :: uncounted) s ∧
      Chain s.dumping.list.nodes s.dumping.list.head cells ∧ s.reading false = .returned none ∧
      s.reading true = .returned (some firstRecord) ∧ getTaskDump (cells.map Prod.snd) 0 = some firstRecord := by
  obtain ⟨s, reaches, first, second⟩ := uncounted_runs
  obtain ⟨s₁, called, rests⟩ := headless_runs
  obtain ⟨s₀, s', cells, more, front, behind, -, longer, answers⟩ :=
    reads_linearise triggered opened_opens uncounted_apart (by simp [uncounted])
  obtain rfl := reaches.unique (reaches_append.2 ⟨s₀, front, behind⟩)
  obtain rfl := front.unique called
  refine ⟨s, cells ++ more, reaches, longer, first, second, ?_⟩
  rcases answers (by rw [rests]; rfl) _ second with early | late
  · cases cells with
    | nil => cases early
    | cons cell cells => exact early.symm
  · exact late.symm

/-! ### Two readers beside two calls that append at once -/

/-- Both calls have found the list empty, and so has the second reader. -/
def bothInside : List (Op Bool Bool) :=
  List.replicate 4 (.carbonite false) ++ List.replicate 4 (.carbonite true) ++ [.getTaskDump true 0, .reads true]

/-- The first reader gets from `head` to the first node, and then the second call sets `head` to its own. -/
def overwritten : List (Op Bool Bool) :=
  List.replicate 4 (.carbonite false) ++ [.reads false, .reads true] ++ List.replicate 4 (.carbonite true) ++
    [.reads true, .reads false, .reads false]

theorem bothInside_runs : ∃ s, Reaches (step triggered) opened bothInside s ∧ s.reading false = .idle := ⟨_, ⟨_, rfl⟩, rfl⟩

theorem overwritten_runs : ∃ s, Reaches (step triggered) opened (bothInside ++ .getTaskDump false 0 :: overwritten) s ∧
    s.dumping.list.head = some 1 ∧ s.reading true = .returned none ∧ s.reading false = .returned (some firstRecord) :=
  ⟨_, ⟨_, rfl⟩, rfl, rfl, rfl⟩

theorem bothInside_overlaps : ¬ Along (step triggered) Apart bothInside opened := by
  decide +kernel

/-- The first reader has its answer within three accesses, though the list has lost the record by then. -/
theorem answers_in_time_overwritten : ¬ Along (step triggered) Apart bothInside opened ∧
    ∃ s, Reaches (step triggered) opened (bothInside ++ .getTaskDump false 0 :: overwritten) s ∧
      overwritten.count (.reads false) = 3 ∧ s.dumping.list.head = some 1 ∧ s.reading true = .returned none ∧
      s.reading false = .returned (some firstRecord) := by
  obtain ⟨s, reaches, head, missed, read⟩ := overwritten_runs
  obtain ⟨s₁, called, rests⟩ := bothInside_runs
  have own : ∀ n, Op.getTaskDump false n ∉ overwritten := by simp [overwritten]
  have enough : (0 : Int).toNat + 3 ≤ overwritten.count (.reads false) := by decide
  obtain ⟨s₀, s', front, behind, answers⟩ :=
    answers_in_time triggered opened_opens bothInside own (Int.le_refl 0) enough
  obtain rfl := reaches.unique (reaches_append.2 ⟨s₀, front, behind⟩)
  obtain rfl := front.unique called
  obtain ⟨dump, answer⟩ := answers (by rw [rests]; rfl)
  rw [answer] at read
  exact ⟨bothInside_overlaps, s, reaches, by decide, head, missed, by rw [answer, read]⟩

end Carbonite.Readers
