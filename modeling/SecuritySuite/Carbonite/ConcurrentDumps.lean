import Mathlib.Data.Fintype.Basic
import SecuritySuite.Carbonite.DumpHeap
import SecuritySuite.Foundation.Runs

/-!
# Calls of `carbonite` beside each other

Any number of calls, each a sequence of steps: every access to `head`, `tail`, a link or `size` is one. A call spins only
while another one holds the same lock object, and `carbonite` defines its lock on the stack, so each call has one of
its own. `keeps_records_iff` says which runs are safe all the same, and `shared_lock_keeps_records` that one lock for
all calls would make every run safe. By itself a call does what `carbonite` does (`call_alone`).
-/

namespace Carbonite.Concurrent
set_option autoImplicit false
open CString LinkedHeap DumpHeap Runs

/-- A node with its record. -/
abbrev Cell := Nat × Option TaskDump

/-- A call: its reason, and the processes that it visits. -/
structure DumpCall where
  why : Int
  processes : List (Task × Kmalloc)

/-- The next access of a call, with what is left of its loop. -/
inductive Place where
  /-- `previous_reason` is tested. -/
  | enter
  | suppress
  | lock
  /-- The head of the loop; behind the last process the lock is released. -/
  | dump (rest : List (Task × Kmalloc))
  | readHead (node : Cell) (rest : List (Task × Kmalloc))
  /-- `list->head = list->tail = node`, from the right. -/
  | setTail (node : Cell) (rest : List (Task × Kmalloc))
  | setHead (node : Cell) (rest : List (Task × Kmalloc))
  | readTail (node : Cell) (rest : List (Task × Kmalloc))
  | setNext (tail : Option Nat) (node : Cell) (rest : List (Task × Kmalloc))
  | moveTail (node : Cell) (rest : List (Task × Kmalloc))
  | readSize (node : Cell) (rest : List (Task × Kmalloc))
  | setSize (size : Int) (node : Cell) (rest : List (Task × Kmalloc))
  | setReason
  | out

def Place.isLock : Place → Bool
  | .lock => true
  | _ => false

theorem Place.isLock_iff (place : Place) : place.isLock = true ↔ place = .lock := by
  cases place <;> simp [isLock]

instance (place : Place) : Decidable (place = .lock) := decidable_of_iff _ place.isLock_iff

/-- Between `spin_lock_irqsave` and `spin_unlock_irqrestore`. -/
def Place.inside : Place → Bool
  | .enter => false
  | .suppress => false
  | .lock => false
  | .setReason => false
  | .out => false
  | _ => true

variable {Id Lock : Type} [DecidableEq Id] [DecidableEq Lock]

structure State (Id Lock : Type) where
  previousReason : Int
  list : DumpHeap
  /-- The call that holds a lock object. -/
  held : Lock → Option Id
  place : Id → Place
  /-- The additions that have returned 1, which only the proofs read. -/
  added : List (Id × Cell)

/-- The calls and the lock object that each of them takes. -/
structure Calls (Id Lock : Type) where
  call : Id → DumpCall
  carboniteSpinlock : Id → Lock

variable (calls : Calls Id Lock)

/-- The next step of a call. -/
def step (s : State Id Lock) (id : Id) : Except HeapFault (Unit × State Id Lock) :=
  let goes (place : Place) : Id → Place := Function.update s.place id place
  match s.place id with
  | .enter =>
    let suppressed := s.previousReason = afterModuleInit ∧ (calls.call id).why = afterIncident
    .ok ((), { s with place := goes (if suppressed then .suppress else .lock) })
  | .suppress => .ok ((), { s with previousReason := (calls.call id).why, place := goes .out })
  | .lock =>
    match s.held (calls.carboniteSpinlock id) with
    | some _ => .ok ((), s)
    | none => .ok ((), { s with
        held := Function.update s.held (calls.carboniteSpinlock id) (some id)
        place := goes (.dump (calls.call id).processes) })
  | .dump [] => .ok ((), { s with
      held := Function.update s.held (calls.carboniteSpinlock id) none
      place := goes .setReason })
  | .dump ((task, kmalloc) :: rest) =>
    let dump := initTaskDumpFromTask kmalloc (some task)
    match initTaskDumpNode kmalloc.node dump s.list.nodes with
    | none => .ok ((), { s with place := goes (.dump rest) })
    | some (node, nodes) =>
      .ok ((), { s with list := { s.list with nodes := nodes }, place := goes (.readHead (node, dump) rest) })
  | .readHead node rest =>
    .ok ((), { s with place := goes (if s.list.head.isNone then .setTail node rest else .readTail node rest) })
  | .setTail node rest =>
    .ok ((), { s with list := { s.list with tail := some node.1 }, place := goes (.setHead node rest) })
  | .setHead node rest =>
    .ok ((), { s with list := { s.list with head := some node.1 }, place := goes (.readSize node rest) })
  | .readTail node rest => .ok ((), { s with place := goes (.setNext s.list.tail node rest) })
  | .setNext tail node rest =>
    match tail.bind fun tail => s.list.nodes.setNext tail (some node.1) with
    | none => .error .dangling
    | some nodes => .ok ((), { s with list := { s.list with nodes := nodes }, place := goes (.moveTail node rest) })
  | .moveTail node rest =>
    .ok ((), { s with list := { s.list with tail := some node.1 }, place := goes (.readSize node rest) })
  | .readSize node rest => .ok ((), { s with place := goes (.setSize s.list.size node rest) })
  | .setSize size node rest => .ok ((), { s with
      list := { s.list with size := size + 1 }
      place := goes (.dump rest)
      added := s.added ++ [(id, node)] })
  | .setReason => .ok ((), { s with previousReason := (calls.call id).why, place := goes .out })
  | .out => .ok ((), s)

/-! ## What is to hold -/

/-- At most one call is inside. -/
def Exclusive (s : State Id Lock) : Prop :=
  ∀ id other, (s.place id).inside = true → (s.place other).inside = true → id = other

def Finished (s : State Id Lock) : Prop := ∀ id, s.place id = .out

/-- The nodes of before and those that were added. -/
def State.cells (before : List Cell) (s : State Id Lock) : List Cell := before ++ s.added.map Prod.snd

/-- The list leads from `head` to `tail` through as many nodes as `get_size` says: those of before and all that were
added, each once. -/
def Complete (before : List Cell) (s : State Id Lock) : Prop :=
  ∃ cells, Linked s.list cells ∧ cells.Perm (s.cells before)

/-- All states on the way are exclusive, and those in which all calls have finished are complete. -/
def KeepsRecords (start : State Id Lock) (before : List Cell) (ops : List Id) : Prop :=
  ∀ pre s, pre <+: ops → Reaches (step calls) start pre s → Exclusive s ∧ (Finished s → Complete before s)

/-- `DEFINE_SPINLOCK(carbonite_spinlock)` stands in the body of `carbonite`: the lock of a call is its own. -/
def ownLocks (call : Id → DumpCall) : Calls Id Id := ⟨call, fun id => id⟩

/-- A call reaches its lock while another one is inside. -/
def Overlaps (s : State Id Lock) (id : Id) : Prop :=
  s.place id = .lock ∧ ∃ other, other ≠ id ∧ (s.place other).inside = true

instance [Fintype Id] (s : State Id Lock) (id : Id) : Decidable (Overlaps s id) := inferInstanceAs (Decidable (_ ∧ _))

/-- A call takes its lock while another one is inside. -/
def Intrudes (s : State Id Lock) (id : Id) : Prop :=
  s.place id = .lock ∧ s.held (calls.carboniteSpinlock id) = none ∧ ∃ other, other ≠ id ∧ (s.place other).inside = true

/-- What a call adds: the records of the processes for which a node is allocated. -/
def recordsOf (processes : List (Task × Kmalloc)) : List (Option TaskDump) :=
  (processes.filter fun process => process.2.node).map fun process => initTaskDumpFromTask process.2 (some process.1)

/-- The records that a call has added. -/
def State.addedBy (s : State Id Lock) (id : Id) : List (Option TaskDump) :=
  (s.added.filter fun addition => addition.1 = id).map fun addition => addition.2.2

/-- No call has begun, no lock is held, and the list is in order. -/
structure Starts (s : State Id Lock) (before : List Cell) : Prop where
  place : ∀ id, s.place id = .enter
  held : ∀ lock, s.held lock = none
  added : s.added = []
  linked : Linked s.list before

/-! ## One call on the list -/

/-- A node that is not on the list yet. -/
structure Fresh (list : DumpHeap) (cells : List Cell) (node : Cell) : Prop where
  stored : list.nodes.cell node.1 = some ⟨node.2, none⟩
  new : node.1 ∉ cells.map Prod.fst

/-- The list while a call is at this place. -/
def Fits (list : DumpHeap) (cells : List Cell) : Place → Prop
  | .readHead node _ => Linked list cells ∧ Fresh list cells node
  | .setTail node _ => Linked list cells ∧ cells = [] ∧ Fresh list cells node
  | .setHead node _ => cells = [] ∧ Fresh list cells node ∧ list.tail = some node.1 ∧ list.size = 0
  | .readTail node _ => Linked list cells ∧ cells ≠ [] ∧ Fresh list cells node
  | .setNext tail node _ => Linked list cells ∧ cells ≠ [] ∧ Fresh list cells node ∧ tail = list.tail
  | .moveTail node _ => Chain list.nodes list.head (cells ++ [node]) ∧ list.size = cells.length
  | .readSize node _ =>
    Chain list.nodes list.head (cells ++ [node]) ∧ list.tail = some node.1 ∧ list.size = cells.length
  | .setSize size node _ =>
    Chain list.nodes list.head (cells ++ [node]) ∧ list.tail = some node.1 ∧ size = cells.length
  | _ => Linked list cells

theorem fits_outside {list : DumpHeap} {cells : List Cell} {place : Place} (outside : place.inside = false) :
    Fits list cells place ↔ Linked list cells := by
  cases place <;> first | rfl | cases outside

variable {list : DumpHeap} {cells : List Cell} {node : Cell}

/-- With the new size the node belongs to the list. -/
theorem linked_setSize (chain : Chain list.nodes list.head (cells ++ [node])) (tail : list.tail = some node.1) :
    Linked { list with size := (cells.length : Int) + 1 } (cells ++ [node]) where
  chain := chain
  tail := by simpa using tail
  size := by simp

/-! ## Steps -/

section Steps

variable {calls} {s s' : State Id Lock} {before : List Cell} {id : Id} {answer : Unit}

/-- All that a step can do. -/
inductive Move (calls : Calls Id Lock) (s : State Id Lock) (id : Id) : State Id Lock → Prop where
  | enter (stands : s.place id = .enter) :
      Move calls s id { s with
        place := Function.update s.place id
          (if s.previousReason = afterModuleInit ∧ (calls.call id).why = afterIncident then .suppress else .lock) }
  | leave (stands : s.place id = .suppress ∨ s.place id = .setReason) :
      Move calls s id { s with
        previousReason := (calls.call id).why
        place := Function.update s.place id .out }
  | wait {holder : Id} (stands : s.place id = .lock) (held : s.held (calls.carboniteSpinlock id) = some holder) :
      Move calls s id s
  | lock (stands : s.place id = .lock) (free : s.held (calls.carboniteSpinlock id) = none) :
      Move calls s id { s with
        held := Function.update s.held (calls.carboniteSpinlock id) (some id)
        place := Function.update s.place id (.dump (calls.call id).processes) }
  | unlock (stands : s.place id = .dump []) :
      Move calls s id { s with
        held := Function.update s.held (calls.carboniteSpinlock id) none
        place := Function.update s.place id .setReason }
  | fail {task : Task} {kmalloc : Kmalloc} {rest : List (Task × Kmalloc)}
      (stands : s.place id = .dump ((task, kmalloc) :: rest)) (node : kmalloc.node = false) :
      Move calls s id { s with place := Function.update s.place id (.dump rest) }
  | allocate {task : Task} {kmalloc : Kmalloc} {rest : List (Task × Kmalloc)}
      (stands : s.place id = .dump ((task, kmalloc) :: rest)) (node : kmalloc.node = true) :
      Move calls s id { s with
        list := { s.list with nodes := (s.list.nodes.alloc ⟨initTaskDumpFromTask kmalloc (some task), none⟩).2 }
        place := Function.update s.place id
          (.readHead (s.list.nodes.top, initTaskDumpFromTask kmalloc (some task)) rest) }
  | readHead {node : Cell} {rest : List (Task × Kmalloc)} (stands : s.place id = .readHead node rest) :
      Move calls s id { s with
        place := Function.update s.place id (if s.list.head.isNone then .setTail node rest else .readTail node rest) }
  | setTail {node : Cell} {rest : List (Task × Kmalloc)} (stands : s.place id = .setTail node rest) :
      Move calls s id { s with
        list := { s.list with tail := some node.1 }
        place := Function.update s.place id (.setHead node rest) }
  | setHead {node : Cell} {rest : List (Task × Kmalloc)} (stands : s.place id = .setHead node rest) :
      Move calls s id { s with
        list := { s.list with head := some node.1 }
        place := Function.update s.place id (.readSize node rest) }
  | readTail {node : Cell} {rest : List (Task × Kmalloc)} (stands : s.place id = .readTail node rest) :
      Move calls s id { s with place := Function.update s.place id (.setNext s.list.tail node rest) }
  | setNext {tail : Option Nat} {node : Cell} {rest : List (Task × Kmalloc)} {nodes : Heap (Option TaskDump)}
      (stands : s.place id = .setNext tail node rest)
      (set : (tail.bind fun tail => s.list.nodes.setNext tail (some node.1)) = some nodes) :
      Move calls s id { s with
        list := { s.list with nodes := nodes }
        place := Function.update s.place id (.moveTail node rest) }
  | moveTail {node : Cell} {rest : List (Task × Kmalloc)} (stands : s.place id = .moveTail node rest) :
      Move calls s id { s with
        list := { s.list with tail := some node.1 }
        place := Function.update s.place id (.readSize node rest) }
  | readSize {node : Cell} {rest : List (Task × Kmalloc)} (stands : s.place id = .readSize node rest) :
      Move calls s id { s with place := Function.update s.place id (.setSize s.list.size node rest) }
  | setSize {size : Int} {node : Cell} {rest : List (Task × Kmalloc)} (stands : s.place id = .setSize size node rest) :
      Move calls s id { s with
        list := { s.list with size := size + 1 }
        place := Function.update s.place id (.dump rest)
        added := s.added ++ [(id, node)] }
  | done (stands : s.place id = .out) : Move calls s id s

theorem step_move (next : step calls s id = .ok (answer, s')) : Move calls s id s' := by
  unfold step at next
  split at next
  · cases next
    exact .enter ‹_›
  · cases next
    exact .leave (.inl ‹_›)
  · split at next
    · cases next
      exact .wait ‹_› ‹_›
    · cases next
      exact .lock ‹_› ‹_›
  · cases next
    exact .unlock ‹_›
  · rename_i task kmalloc rest stands
    cases node : kmalloc.node with
    | false =>
      simp only [initTaskDumpNode, node] at next
      cases next
      exact .fail stands node
    | true =>
      simp only [initTaskDumpNode, node] at next
      cases next
      exact .allocate stands node
  · cases next
    exact .readHead ‹_›
  · cases next
    exact .setTail ‹_›
  · cases next
    exact .setHead ‹_›
  · cases next
    exact .readTail ‹_›
  · split at next
    · cases next
    · cases next
      exact .setNext ‹_› ‹_›
  · cases next
    exact .moveTail ‹_›
  · cases next
    exact .readSize ‹_›
  · cases next
    exact .setSize ‹_›
  · cases next
    exact .leave (.inr ‹_›)
  · cases next
    exact .done ‹_›

theorem step_place_of_ne (next : step calls s id = .ok (answer, s')) {other : Id} (different : other ≠ id) :
    s'.place other = s.place other := by
  cases step_move next with
  | wait stands held => rfl
  | done stands => rfl
  | _ => exact Function.update_of_ne different ..

/-- Outside a call leaves the list alone, and only its lock leads it inside. -/
theorem step_outside (outside : (s.place id).inside = false) (next : step calls s id = .ok (answer, s')) :
    s'.list = s.list ∧ s'.added = s.added ∧ ((s'.place id).inside = true →
      s.place id = .lock ∧ s.held (calls.carboniteSpinlock id) = none ∧ s'.place id = .dump (calls.call id).processes) := by
  cases step_move next with
  | enter stands =>
    refine ⟨rfl, rfl, fun inside => ?_⟩
    simp only [Function.update_self] at inside
    split at inside <;> cases inside
  | leave stands =>
    refine ⟨rfl, rfl, fun inside => ?_⟩
    simp [Place.inside] at inside
  | wait stands held =>
    refine ⟨rfl, rfl, fun inside => ?_⟩
    rw [stands] at inside
    cases inside
  | lock stands free => exact ⟨rfl, rfl, fun _ => ⟨stands, free, Function.update_self ..⟩⟩
  | done stands =>
    refine ⟨rfl, rfl, fun inside => ?_⟩
    rw [stands] at inside
    cases inside
  | _ stands =>
    rw [stands] at outside
    cases outside

/-- Inside a call does its part of an addition. -/
theorem step_inside (inside : (s.place id).inside = true) (fits : Fits s.list (s.cells before) (s.place id))
    (next : step calls s id = .ok (answer, s')) : Fits s'.list (s'.cells before) (s'.place id) := by
  cases step_move next with
  | enter stands | wait stands | lock stands | done stands => simp [stands, Place.inside] at inside
  | leave stands => rcases stands with stands | stands <;> simp [stands, Place.inside] at inside
  | unlock stands | fail stands | readSize stands =>
    rw [stands] at fits
    simp only [Function.update_self]
    exact fits
  | allocate stands node =>
    rw [stands] at fits
    simp only [Function.update_self]
    exact ⟨Linked.alloc fits _, Heap.alloc_new _ _, Linked.top_fresh fits⟩
  | readHead stands =>
    rw [stands] at fits
    obtain ⟨linked, fresh⟩ := fits
    simp only [Function.update_self, Option.isNone_iff_eq_none, linked.head_eq_none_iff]
    split
    · exact ⟨linked, ‹_›, fresh⟩
    · exact ⟨linked, ‹_›, fresh⟩
  | setTail stands =>
    rw [stands] at fits
    obtain ⟨linked, empty, fresh⟩ := fits
    have size := linked.size
    rw [empty] at size
    simp only [Function.update_self]
    exact ⟨empty, ⟨fresh.stored, fresh.new⟩, rfl, size⟩
  | @setHead node rest stands =>
    rw [stands] at fits
    obtain ⟨empty, fresh, tail, size⟩ := fits
    simp only [Function.update_self]
    refine ⟨?_, tail, ?_⟩
    · show Chain s.list.nodes (some node.1) (s.cells before ++ [node])
      rw [empty]
      exact (Segment.first node fresh.stored).chain
    · show s.list.size = (s.cells before).length
      rw [empty, size]
      rfl
  | readTail stands =>
    rw [stands] at fits
    simp only [Function.update_self]
    exact ⟨fits.1, fits.2.1, fits.2.2, rfl⟩
  | setNext stands set =>
    rw [stands] at fits
    obtain ⟨linked, nonempty, fresh, rfl⟩ := fits
    obtain ⟨nodes', set', chain⟩ := linked.setNext nonempty _ fresh.stored fresh.new
    rw [set, Option.some.injEq] at set'
    subst set'
    simp only [Function.update_self]
    exact ⟨chain, linked.size⟩
  | moveTail stands =>
    rw [stands] at fits
    simp only [Function.update_self]
    exact ⟨fits.1, rfl, fits.2⟩
  | setSize stands =>
    rw [stands] at fits
    obtain ⟨chain, tail, rfl⟩ := fits
    simp only [Function.update_self, State.cells, List.map_append, ← List.append_assoc]
    exact linked_setSize chain tail

/-! ## Runs without an intrusion -/

/-- The call that is inside, if there is one, has the list to itself. -/
structure Sound (before : List Cell) (s : State Id Lock) : Prop where
  exclusive : Exclusive s
  inside : ∀ id, (s.place id).inside = true → Fits s.list (s.cells before) (s.place id)
  outside : (∀ id, (s.place id).inside = false) → Linked s.list (s.cells before)

omit [DecidableEq Id] [DecidableEq Lock] in
theorem Starts.sound (starts : Starts s before) : Sound before s where
  exclusive id other inside := by
    rw [starts.place] at inside
    cases inside
  inside id inside := by
    rw [starts.place] at inside
    cases inside
  outside _ := by
    rw [State.cells, starts.added, List.map_nil, List.append_nil]
    exact starts.linked

omit [DecidableEq Lock] in
/-- When all others are outside, what one call finds is all that matters. -/
theorem Sound.of_alone (alone : ∀ other, other ≠ id → (s.place other).inside = false)
    (fits : Fits s.list (s.cells before) (s.place id)) : Sound before s where
  exclusive := by
    have only : ∀ other, (s.place other).inside = true → other = id := by
      intro other inside
      by_contra different
      rw [alone other different] at inside
      cases inside
    intro first second inside inside'
    rw [only first inside, only second inside']
  inside other inside := by
    by_cases same : other = id
    · rw [same]
      exact fits
    · rw [alone other same] at inside
      cases inside
  outside out := (fits_outside (out id)).1 fits

theorem step_sound (sound : Sound before s) (calm : ¬ Intrudes calls s id) (next : step calls s id = .ok (answer, s')) :
    Sound before s' := by
  have others := fun other (different : other ≠ id) => step_place_of_ne next different
  cases place : (s.place id).inside with
  | true =>
    apply Sound.of_alone _ (step_inside place (sound.inside id place) next)
    intro other different
    rw [others other different, Bool.eq_false_iff]
    exact fun inside => different (sound.exclusive other id inside place)
  | false =>
    obtain ⟨list, added, enters⟩ := step_outside place next
    have cells : s'.cells before = s.cells before := by rw [State.cells, added, State.cells]
    cases place' : (s'.place id).inside with
    | true =>
      obtain ⟨stands, free, stands'⟩ := enters place'
      have alone : ∀ other, other ≠ id → (s.place other).inside = false := by
        intro other different
        rw [Bool.eq_false_iff]
        exact fun inside => calm ⟨stands, free, other, different, inside⟩
      have all : ∀ other, (s.place other).inside = false := by
        intro other
        by_cases same : other = id
        · rw [same, place]
        · exact alone other same
      have still : ∀ other, other ≠ id → (s'.place other).inside = false := by
        intro other different
        rw [others other different, alone other different]
      apply Sound.of_alone still
      · rw [stands', list, cells]
        exact sound.outside all
    | false =>
      have same : ∀ other, (s'.place other).inside = true → s'.place other = s.place other := by
        intro other inside
        by_cases here : other = id
        · rw [here, place'] at inside
          cases inside
        · exact others other here
      refine ⟨?_, ?_, ?_⟩
      · intro first second inside inside'
        rw [same first inside] at inside
        rw [same second inside'] at inside'
        exact sound.exclusive first second inside inside'
      · intro other inside
        rw [list, cells, same other inside]
        rw [same other inside] at inside
        exact sound.inside other inside
      · intro out
        rw [list, cells]
        apply sound.outside
        intro other
        by_cases here : other = id
        · rw [here, place]
        · rw [← others other here, out other]

omit [DecidableEq Id] [DecidableEq Lock] in
theorem Sound.complete (sound : Sound before s) (finished : Finished s) : Complete before s := by
  refine ⟨s.cells before, sound.outside fun id => ?_, .refl _⟩
  rw [finished id]
  rfl

theorem keeps_records_of_calm {start : State Id Lock} (starts : Starts start before) {ops : List Id}
    (calm : Along (step calls) (fun s id => ¬ Intrudes calls s id) ops start) : KeepsRecords calls start before ops := by
  intro pre s front reaches
  obtain ⟨post, rfl⟩ := front
  have sound := invariant_of_along (Sound before) (fun _ _ _ _ inv calm next => step_sound inv calm next)
    starts.sound calm.front reaches
  exact ⟨sound.exclusive, sound.complete⟩

/-- Behind an intrusion two calls are inside. -/
theorem Intrudes.not_exclusive (intrudes : Intrudes calls s id) :
    ∃ s', step calls s id = .ok ((), s') ∧ ¬ Exclusive s' := by
  obtain ⟨stands, free, other, different, inside⟩ := intrudes
  have next : step calls s id = .ok ((), { s with
      held := Function.update s.held (calls.carboniteSpinlock id) (some id)
      place := Function.update s.place id (.dump (calls.call id).processes) }) := by
    simp only [step, stands, free]
  refine ⟨_, next, fun exclusive => different (exclusive other id ?_ ?_)⟩
  · rw [step_place_of_ne next different]
    exact inside
  · simp [Place.inside]

/-! ## Locks -/

/-- A lock object is held by the call that is inside with it. -/
def Guarded (calls : Calls Id Lock) (s : State Id Lock) : Prop :=
  ∀ lock id, s.held lock = some id ↔ calls.carboniteSpinlock id = lock ∧ (s.place id).inside = true

omit [DecidableEq Id] [DecidableEq Lock] in
theorem Starts.guarded (starts : Starts s before) : Guarded calls s := by
  intro lock id
  rw [starts.held, starts.place]
  simp [Place.inside]

/-- What a step does to the locks. -/
inductive LockMove (calls : Calls Id Lock) (s : State Id Lock) (id : Id) (s' : State Id Lock) : Prop where
  | none (held : s'.held = s.held) (inside : (s'.place id).inside = (s.place id).inside)
  | lock (free : s.held (calls.carboniteSpinlock id) = none)
      (held : s'.held = Function.update s.held (calls.carboniteSpinlock id) (some id)) (inside : (s'.place id).inside = true)
  | unlock (before : (s.place id).inside = true)
      (held : s'.held = Function.update s.held (calls.carboniteSpinlock id) none) (outside : (s'.place id).inside = false)

theorem step_lockMove (next : step calls s id = .ok (answer, s')) : LockMove calls s id s' := by
  cases step_move next with
  | enter stands =>
    refine .none rfl ?_
    simp only [Function.update_self, stands]
    split <;> rfl
  | leave stands => exact .none rfl (by rcases stands with stands | stands <;> simp [stands, Place.inside])
  | wait stands held => exact .none rfl rfl
  | lock stands free => exact .lock free rfl (by simp [Place.inside])
  | unlock stands => exact .unlock (by rw [stands]; rfl) rfl (by simp [Place.inside])
  | readHead stands =>
    refine .none rfl ?_
    simp only [Function.update_self, stands]
    split <;> rfl
  | done stands => exact .none rfl rfl
  | _ stands => exact .none rfl (by simp [stands, Place.inside])

omit [DecidableEq Id] [DecidableEq Lock] in
/-- Two calls with the same lock are not inside together. -/
theorem Guarded.same (guarded : Guarded calls s) {other : Id} (inside : (s.place id).inside = true)
    (inside' : (s.place other).inside = true) (same : calls.carboniteSpinlock other = calls.carboniteSpinlock id) :
    other = id := by
  have first := (guarded _ id).2 ⟨rfl, inside⟩
  have second := (guarded _ other).2 ⟨same, inside'⟩
  rw [first] at second
  exact (Option.some.inj second).symm

theorem step_guarded (guarded : Guarded calls s) (next : step calls s id = .ok (answer, s')) : Guarded calls s' := by
  have others := fun other (different : other ≠ id) => step_place_of_ne next different
  intro lock other
  have elsewhere : lock ≠ calls.carboniteSpinlock id →
      ((calls.carboniteSpinlock other = lock ∧ (s.place other).inside = true) ↔
        (calls.carboniteSpinlock other = lock ∧ (s'.place other).inside = true)) := by
    intro away
    apply and_congr_right
    rintro rfl
    rw [others other fun same => away (congrArg _ same)]
  cases step_lockMove next with
  | none held inside =>
    rw [held, guarded]
    by_cases same : other = id
    · rw [same, inside]
    · rw [others other same]
  | lock free held inside =>
    by_cases here : lock = calls.carboniteSpinlock id
    · subst here
      rw [held, Function.update_self, Option.some.injEq]
      constructor
      · rintro rfl
        exact ⟨rfl, inside⟩
      · rintro ⟨same, inside'⟩
        by_contra different
        have different := Ne.symm different
        rw [others other different] at inside'
        rw [(guarded _ other).2 ⟨same, inside'⟩] at free
        cases free
    · rw [held, Function.update_of_ne here, guarded, elsewhere here]
  | unlock before held outside =>
    by_cases here : lock = calls.carboniteSpinlock id
    · subst here
      rw [held, Function.update_self]
      simp only [reduceCtorEq, false_iff]
      rintro ⟨same, inside⟩
      by_cases equal : other = id
      · rw [equal, outside] at inside
        cases inside
      · rw [others other equal] at inside
        exact equal (guarded.same before inside same)
    · rw [held, Function.update_of_ne here, guarded, elsewhere here]

theorem guarded_of_reaches {start : State Id Lock} (starts : Starts start before) {ops : List Id}
    (reaches : Reaches (step calls) start ops s) : Guarded calls s :=
  invariant_of_reaches (Guarded calls) (fun _ _ _ _ inv next => step_guarded inv next) starts.guarded reaches

/-- One lock for all calls would keep every record in every run. -/
theorem shared_lock_keeps_records {start : State Id Lock} (starts : Starts start before) (ops : List Id)
    (shared : ∀ id other, calls.carboniteSpinlock other = calls.carboniteSpinlock id) :
    KeepsRecords calls start before ops := by
  apply keeps_records_of_calm starts
  rw [along_iff]
  rintro pre id post s - reaches ⟨stands, free, other, different, inside⟩
  have held := (guarded_of_reaches starts reaches (calls.carboniteSpinlock id) other).2 ⟨shared id other, inside⟩
  rw [held] at free
  cases free

end Steps

/-! ## The locks of the code -/

section OwnLocks

variable {call : Id → DumpCall} {s start : State Id Id} {before : List Cell}

omit [DecidableEq Id] in
/-- A call never waits for a lock of its own. -/
theorem intrudes_iff {id : Id} (guarded : Guarded (ownLocks call) s) : Intrudes (ownLocks call) s id ↔ Overlaps s id := by
  constructor
  · rintro ⟨stands, -, overlap⟩
    exact ⟨stands, overlap⟩
  · rintro ⟨stands, overlap⟩
    refine ⟨stands, ?_, overlap⟩
    cases held : s.held ((ownLocks call).carboniteSpinlock id) with
    | none => rfl
    | some holder =>
      obtain ⟨rfl, inside⟩ := (guarded _ _).1 held
      rw [show s.place holder = .lock from stands] at inside
      cases inside

/-- **Which runs keep every record**: those in which no call reaches its lock while another one is inside. -/
theorem keeps_records_iff (call : Id → DumpCall) (starts : Starts start before) (ops : List Id) :
    KeepsRecords (ownLocks call) start before ops ↔
      Along (step (ownLocks call)) (fun s id => ¬ Overlaps s id) ops start := by
  constructor
  · intro keeps
    rw [along_iff]
    rintro pre id post s rfl reaches overlaps
    obtain ⟨s', next, both⟩ := ((intrudes_iff (guarded_of_reaches starts reaches)).2 overlaps).not_exclusive
    have reaches' := reaches_append.2 ⟨s, reaches, reaches_cons.2 ⟨_, _, next, reaches_nil.2 rfl⟩⟩
    exact both (keeps (pre ++ [id]) s' ⟨post, by simp⟩ reaches').1
  · intro calm
    apply keeps_records_of_calm starts
    rw [along_iff] at calm ⊢
    intro pre id post s split reaches intrudes
    exact calm pre id post s split reaches ((intrudes_iff (guarded_of_reaches starts reaches)).1 intrudes)

end OwnLocks

/-! ## The records of a call -/

section Records

variable {calls} {s s' start : State Id Lock} {before : List Cell} {id : Id} {answer : Unit}

/-- What a call at this place has yet to add. -/
def Place.remaining (processes : List (Task × Kmalloc)) : Place → List (Option TaskDump)
  | .enter => recordsOf processes
  | .suppress => []
  | .lock => recordsOf processes
  | .dump rest => recordsOf rest
  | .readHead node rest => node.2 :: recordsOf rest
  | .setTail node rest => node.2 :: recordsOf rest
  | .setHead node rest => node.2 :: recordsOf rest
  | .readTail node rest => node.2 :: recordsOf rest
  | .setNext _ node rest => node.2 :: recordsOf rest
  | .moveTail node rest => node.2 :: recordsOf rest
  | .readSize node rest => node.2 :: recordsOf rest
  | .setSize _ node rest => node.2 :: recordsOf rest
  | .setReason => []
  | .out => []

/-- A call adds its records one after the other, or it is suppressed and adds none. -/
def Adds (calls : Calls Id Lock) (s : State Id Lock) (id : Id) : Prop :=
  s.addedBy id ++ (s.place id).remaining (calls.call id).processes = recordsOf (calls.call id).processes ∨
    s.addedBy id = [] ∧ (s.place id).remaining (calls.call id).processes = []

theorem recordsOf_cons (process : Task × Kmalloc) (rest : List (Task × Kmalloc)) : recordsOf (process :: rest) =
    if process.2.node then initTaskDumpFromTask process.2 (some process.1) :: recordsOf rest else recordsOf rest := by
  cases node : process.2.node <;> simp [recordsOf, node]

/-- A step adds what it takes from the remaining records, or the call is suppressed. -/
theorem step_adds (next : step calls s id = .ok (answer, s')) :
    s'.addedBy id ++ (s'.place id).remaining (calls.call id).processes =
        s.addedBy id ++ (s.place id).remaining (calls.call id).processes ∨
      s'.addedBy id = s.addedBy id ∧ s.place id = .enter ∧ s'.place id = .suppress := by
  cases step_move next with
  | enter stands =>
    simp only [Function.update_self, stands]
    split
    · exact .inr ⟨rfl, trivial, rfl⟩
    · exact .inl rfl
  | leave stands =>
    left
    rcases stands with stands | stands <;> simp only [Function.update_self, stands] <;> rfl
  | wait stands held => exact .inl rfl
  | done stands => exact .inl rfl
  | fail stands node =>
    simp only [Function.update_self, stands, Place.remaining, recordsOf_cons, node]
    exact .inl rfl
  | allocate stands node =>
    simp only [Function.update_self, stands, Place.remaining, recordsOf_cons, node]
    exact .inl rfl
  | readHead stands =>
    simp only [Function.update_self, stands]
    split <;> exact .inl rfl
  | setSize stands =>
    left
    simp [State.addedBy, Place.remaining, stands]
  | _ stands =>
    simp only [Function.update_self, stands]
    exact .inl rfl

theorem step_addedBy_of_ne (next : step calls s id = .ok (answer, s')) {other : Id} (different : other ≠ id) :
    s'.addedBy other = s.addedBy other := by
  have same : s'.added = s.added ∨ ∃ node, s'.added = s.added ++ [(id, node)] := by
    cases step_move next with
    | setSize stands => exact .inr ⟨_, rfl⟩
    | _ => exact .inl rfl
  rcases same with same | ⟨node, same⟩
  · rw [State.addedBy, same, State.addedBy]
  · simp [State.addedBy, same, Ne.symm different]

theorem step_keeps_adds (adds : ∀ id, Adds calls s id) (next : step calls s id = .ok (answer, s')) (other : Id) :
    Adds calls s' other := by
  by_cases here : other = id
  · subst here
    rcases step_adds next with same | ⟨same, enters, suppressed⟩
    · rw [Adds, same, ← List.append_eq_nil_iff, same, List.append_eq_nil_iff]
      exact adds other
    · have none_yet : s.addedBy other = [] := by
        rcases adds other with all | ⟨nothing, -⟩
        · rw [enters, Place.remaining] at all
          exact List.append_left_eq_self.1 all
        · exact nothing
      rw [Adds, same, suppressed]
      exact .inr ⟨none_yet, rfl⟩
  · rw [Adds, step_addedBy_of_ne next here, step_place_of_ne next here]
    exact adds other

/-- **A call that has finished has added one record for each process with a node**, unless it was suppressed. -/
theorem addedBy_of_finished (starts : Starts start before) {ops : List Id} (reaches : Reaches (step calls) start ops s)
    (out : s.place id = .out) :
    s.addedBy id = recordsOf (calls.call id).processes ∨ s.addedBy id = [] := by
  have adds := invariant_of_reaches (fun s => ∀ id, Adds calls s id)
    (fun _ _ _ _ inv next => step_keeps_adds inv next)
    (fun id => by
      left
      rw [starts.place, State.addedBy, starts.added]
      rfl) reaches id
  rcases adds with all | ⟨nothing, -⟩
  · rw [out, Place.remaining, List.append_nil] at all
    exact .inl all
  · exact .inr nothing

end Records

/-! ## A call by itself -/

section Alone

variable {s : State Id Lock} {id : Id}

/-- Undisturbed, the steps of an addition make up `dump_task`. -/
theorem addition_alone {task : Task} {kmalloc : Kmalloc} {rest : List (Task × Kmalloc)} {ret : Bool} {list' : DumpHeap}
    (stands : s.place id = .dump ((task, kmalloc) :: rest)) (dumped : DumpHeap.dumpTask kmalloc task s.list = .ok (ret, list')) :
    ∃ n s', Reaches (step calls) s (List.replicate n id) s' ∧ s'.place id = .dump rest ∧ s'.list = list' ∧
      s'.previousReason = s.previousReason := by
  rw [DumpHeap.dumpTask, DumpHeap.addTaskDumpToList] at dumped
  cases node : kmalloc.node with
  | false =>
    simp only [initTaskDumpNode, node, Bool.false_eq_true, if_false] at dumped
    cases dumped
    refine ⟨1, _, reaches_cons.2 ⟨_, _, by simp only [step, stands, initTaskDumpNode, node]; rfl, reaches_nil.2 rfl⟩, ?_⟩
    simp
  | true =>
    simp only [initTaskDumpNode, node, if_true] at dumped
    cases head : s.list.head with
    | none =>
      simp only [head] at dumped
      cases dumped
      refine ⟨6, ?_⟩
      simp [Reaches, List.replicate, run, step, stands, initTaskDumpNode, node, head]
    | some first =>
      simp only [head] at dumped
      split at dumped
      · cases dumped
      · rename_i nodes set
        cases dumped
        simp only [Heap.alloc_fst] at set
        refine ⟨7, ?_⟩
        simp [Reaches, List.replicate, run, step, stands, initTaskDumpNode, node, head, set]

/-- So do those of the walk over the processes. -/
theorem additions_alone {rest : List (Task × Kmalloc)} {failed : List Task} {list' : DumpHeap}
    (stands : s.place id = .dump rest) (dumped : DumpHeap.forEachProcess rest s.list = .ok (failed, list')) :
    ∃ n s', Reaches (step calls) s (List.replicate n id) s' ∧ s'.place id = .dump [] ∧ s'.list = list' ∧
      s'.previousReason = s.previousReason := by
  induction rest generalizing s failed with
  | nil =>
    cases dumped
    exact ⟨0, s, reaches_nil.2 rfl, stands, rfl, rfl⟩
  | cons process rest ih =>
    obtain ⟨task, kmalloc⟩ := process
    rw [DumpHeap.forEachProcess] at dumped
    cases first : DumpHeap.dumpTask kmalloc task s.list with
    | error fault => simp [first, bind, Except.bind] at dumped
    | ok r =>
      obtain ⟨ret, list₁⟩ := r
      cases others : DumpHeap.forEachProcess rest list₁ with
      | error fault => simp [first, others, bind, Except.bind] at dumped
      | ok r' =>
        obtain ⟨failed', list₂⟩ := r'
        simp only [first, others, bind, Except.bind, pure, Except.pure, Except.ok.injEq, Prod.mk.injEq] at dumped
        obtain ⟨-, rfl⟩ := dumped
        obtain ⟨n, s₁, reaches, stands₁, rfl, reason⟩ := addition_alone calls stands first
        obtain ⟨m, s', reaches', stands', list, reason'⟩ := ih stands₁ others
        refine ⟨n + m, s', ?_, stands', list, reason'.trans reason⟩
        rw [List.replicate_add]
        exact reaches_append.2 ⟨s₁, reaches, reaches'⟩

/-- **Undisturbed, the steps of a call make up `carbonite`.** -/
theorem call_alone {why : Int} {processes : List (Task × Kmalloc)} {outcome : Outcome} {kept : HeapSnapshots}
    (call : calls.call id = ⟨why, processes⟩) (stands : s.place id = .enter)
    (free : s.held (calls.carboniteSpinlock id) = none)
    (ran : DumpHeap.carbonite why processes ⟨s.previousReason, s.list⟩ = .ok (outcome, kept)) :
    ∃ n s', Reaches (step calls) s (List.replicate n id) s' ∧ s'.place id = .out ∧ s'.list = kept.dumpList ∧
      s'.previousReason = kept.previousReason := by
  rw [DumpHeap.carbonite] at ran
  by_cases suppressed : s.previousReason = afterModuleInit ∧ why = afterIncident
  · rw [if_pos suppressed] at ran
    cases ran
    refine ⟨2, ?_⟩
    simp [Reaches, List.replicate, run, step, stands, call, suppressed]
  · rw [if_neg suppressed] at ran
    cases walked : DumpHeap.forEachProcess processes s.list with
    | error fault => simp [walked, bind, Except.bind] at ran
    | ok r =>
      simp only [walked, bind, Except.bind, pure, Except.pure, Except.ok.injEq, Prod.mk.injEq] at ran
      obtain ⟨-, rfl⟩ := ran
      obtain ⟨s₁, entered, stands₁, list₁, reason₁⟩ : ∃ s₁, Reaches (step calls) s [id, id] s₁ ∧
          s₁.place id = .dump processes ∧ s₁.list = s.list ∧ s₁.previousReason = s.previousReason := by
        simp [Reaches, run, step, stands, call, suppressed, free]
      rw [← list₁] at walked
      obtain ⟨n, s₂, added, stands₂, list₂, -⟩ := additions_alone calls stands₁ walked
      obtain ⟨s₃, left, stands₃, list₃, reason₃⟩ : ∃ s₃, Reaches (step calls) s₂ [id, id] s₃ ∧
          s₃.place id = .out ∧ s₃.list = s₂.list ∧ s₃.previousReason = why := by
        simp [Reaches, run, step, stands₂, call]
      refine ⟨2 + (n + 2), s₃, ?_, stands₃, list₃.trans list₂, reason₃⟩
      rw [List.replicate_add, List.replicate_add]
      exact reaches_append.2 ⟨s₁, entered, reaches_append.2 ⟨s₂, added, left⟩⟩

end Alone

/-! ### Two calls -/

/-- A task with this pid. -/
def processOf (pid : Int32) : Task × Kmalloc := (⟨pid, 0, 0, 0, [], 0, 0⟩, .succeeds)

def triggered (second : Bool) : DumpCall := ⟨onDemand, [processOf (if second then 2 else 1)]⟩

/-- The list is empty. -/
def loaded : State Bool Bool := ⟨noReason, initTaskDumpList, fun _ => none, fun _ => .enter, []⟩

theorem loaded_starts : Starts loaded [] where
  place _ := rfl
  held _ := rfl
  added := rfl
  linked := .init

/-- The second call begins when the first one is at its end. -/
theorem keeps_records_in_turn :
    KeepsRecords (ownLocks triggered) loaded [] (List.replicate 10 false ++ List.replicate 10 true) := by
  apply (keeps_records_iff triggered loaded_starts _).2
  decide +kernel

/-- Both calls find the list empty, and the second one makes its node the head of the list. -/
def lostUpdate : List Bool :=
  List.replicate 4 false ++ List.replicate 4 true ++ List.replicate 6 false ++ List.replicate 6 true

theorem keeps_records_fails : ¬ ∀ ops, KeepsRecords (ownLocks triggered) loaded [] ops := by
  intro keeps
  have reaches : ∃ s, Reaches (step (ownLocks triggered)) loaded lostUpdate s ∧ (s.place false = .out ∧ s.place true = .out) ∧
      s.list.size = 2 ∧ Chain s.list.nodes s.list.head [(1, some (processOf 2).1.record)] :=
    ⟨_, ⟨_, rfl⟩, ⟨rfl, rfl⟩, rfl, rfl, none, rfl, rfl⟩
  obtain ⟨s, reaches, finished, size, chain⟩ := reaches
  obtain ⟨cells, linked, -⟩ := (keeps lostUpdate lostUpdate s (List.prefix_refl _) reaches).2 (Bool.forall_bool.2 finished)
  have counted := linked.size
  rw [size, linked.chain.unique chain] at counted
  cases counted

end Carbonite.Concurrent
