import Mathlib.Data.List.Nodup
import Mathlib.Data.List.Perm.Subperm
import Mathlib.Data.Set.Insert
import Mathlib.Logic.Function.Basic
import Mathlib.Tactic.Common

/-!
# Linked nodes in a heap

Nodes with a value and a link, at numbered addresses. An address from `top` on was never handed out
(`unused`). `Chain` says what is found by following the links: a chain is determined by its first
link, so no address comes twice in it, and a new node behind its last one extends it by one value. A
`Segment` is a chain whose last node is known, as a queue keeps it; its nodes can be freed one after the other. Where
links are changed out of turn there may be no chain; that addresses are `Closed` still says that no link leads to nowhere.
-/

namespace LinkedHeap
set_option autoImplicit false

universe u
variable {α : Type u}

structure Node (α : Type u) where
  value : α
  next : Option Nat

structure Heap (α : Type u) where
  cell : Nat → Option (Node α)
  top : Nat
  unused : ∀ a, top ≤ a → cell a = none

namespace Heap

/-- Before the first allocation. -/
def empty : Heap α := ⟨fun _ => none, 0, fun _ _ => rfl⟩

/-- The address of a new node, and the heap with it. -/
def alloc (node : Node α) (h : Heap α) : Nat × Heap α where
  fst := h.top
  snd :=
    { cell := Function.update h.cell h.top (some node)
      top := h.top + 1
      unused := by
        intro a above
        rw [Function.update_of_ne (by omega)]
        exact h.unused a (by omega) }

/-- Store a link in a node; `none` where there is no node. -/
def setNext (a : Nat) (link : Option Nat) (h : Heap α) : Option (Heap α) :=
  match found : h.cell a with
  | none => none
  | some node => some
    { cell := Function.update h.cell a (some { node with next := link })
      top := h.top
      unused := by
        intro b above
        have other : b ≠ a := by
          rintro rfl
          rw [h.unused b above] at found
          cases found
        rw [Function.update_of_ne other]
        exact h.unused b above }

/-- Take a node out of the heap; `none` where there is no node. -/
def free (a : Nat) (h : Heap α) : Option (Heap α) :=
  match h.cell a with
  | none => none
  | some _ => some
    { cell := Function.update h.cell a none
      top := h.top
      unused := by
        intro b above
        by_cases same : b = a
        · rw [same, Function.update_self]
        · rw [Function.update_of_ne same]
          exact h.unused b above }

/-- The same nodes with other values. -/
def map {β : Type u} (f : α → β) (h : Heap α) : Heap β where
  cell a := (h.cell a).map fun node => ⟨f node.value, node.next⟩
  top := h.top
  unused := by
    intro a above
    rw [h.unused a above, Option.map_none]

theorem lt_top {h : Heap α} {a : Nat} {node : Node α} (found : h.cell a = some node) : a < h.top := by
  by_contra above
  rw [h.unused a (by omega)] at found
  cases found

@[simp] theorem alloc_fst (node : Node α) (h : Heap α) : (h.alloc node).1 = h.top := rfl

theorem alloc_new (node : Node α) (h : Heap α) : (h.alloc node).2.cell h.top = some node :=
  Function.update_self _ _ _

theorem alloc_old (node : Node α) (h : Heap α) {a : Nat} (old : a < h.top) :
    (h.alloc node).2.cell a = h.cell a :=
  Function.update_of_ne (by omega) _ _

theorem setNext_some {h : Heap α} {a : Nat} {node : Node α} (found : h.cell a = some node) (link : Option Nat) :
    ∃ h', h.setNext a link = some h' ∧ h'.top = h.top ∧ h'.cell a = some { node with next := link } ∧
      ∀ b, b ≠ a → h'.cell b = h.cell b := by
  unfold setNext
  split
  · rename_i missing
    rw [found] at missing
    cases missing
  · rename_i node' found'
    rw [found] at found'
    cases found'
    exact ⟨_, rfl, rfl, Function.update_self _ _ _, fun b other => Function.update_of_ne other _ _⟩

theorem free_some {h : Heap α} {a : Nat} {node : Node α} (found : h.cell a = some node) :
    ∃ h', h.free a = some h' ∧ h'.top = h.top ∧ h'.cell a = none ∧ ∀ b, b ≠ a → h'.cell b = h.cell b := by
  rw [free, found]
  exact ⟨_, rfl, rfl, Function.update_self _ _ _, fun b other => Function.update_of_ne other _ _⟩

end Heap

/-- The nodes at the addresses, each linked to the one behind it, hold the values. -/
def Chain (h : Heap α) : Option Nat → List (Nat × α) → Prop
  | link, [] => link = none
  | link, (a, v) :: cells => link = some a ∧ ∃ next, h.cell a = some ⟨v, next⟩ ∧ Chain h next cells

namespace Chain

variable {h h' : Heap α} {link : Option Nat} {cells : List (Nat × α)}

theorem unique {cells' : List (Nat × α)} (chain : Chain h link cells) (chain' : Chain h link cells') : cells = cells' := by
  induction cells generalizing link cells' with
  | nil =>
    cases cells' with
    | nil => rfl
    | cons cell' cells' =>
      rw [show link = none from chain] at chain'
      cases chain'.1
  | cons cell cells ih =>
    obtain ⟨a, v⟩ := cell
    obtain ⟨rfl, next, found, rest⟩ := chain
    cases cells' with
    | nil => cases chain'
    | cons cell' cells' =>
      obtain ⟨b, w⟩ := cell'
      obtain ⟨same, next', found', rest'⟩ := chain'
      cases same
      rw [found] at found'
      cases found'
      rw [ih rest rest']

/-- What is behind an address is the chain from there on. -/
theorem behind {before : List (Nat × α)} {cell : Nat × α} {rest : List (Nat × α)}
    (chain : Chain h link (before ++ cell :: rest)) : Chain h (some cell.1) (cell :: rest) := by
  induction before generalizing link with
  | nil =>
    obtain ⟨rfl, next⟩ := chain
    exact ⟨rfl, next⟩
  | cons first before ih =>
    obtain ⟨-, next, -, later⟩ := chain
    exact ih later

/-- Every address of a chain holds its value. -/
theorem found {cell : Nat × α} (chain : Chain h link cells) (member : cell ∈ cells) :
    ∃ next, h.cell cell.1 = some ⟨cell.2, next⟩ := by
  obtain ⟨before, later, rfl⟩ := List.append_of_mem member
  obtain ⟨-, next, found, -⟩ := chain.behind
  exact ⟨next, found⟩

/-- A chain that ends passes every address once. -/
theorem nodup (chain : Chain h link cells) : (cells.map Prod.fst).Nodup := by
  induction cells generalizing link with
  | nil => exact .nil
  | cons cell cells ih =>
    have whole := chain
    obtain ⟨rfl, next, found, rest⟩ := chain
    rw [List.map_cons, List.nodup_cons]
    refine ⟨?_, ih rest⟩
    intro again
    obtain ⟨cell', member, same⟩ := List.mem_map.1 again
    obtain ⟨before, later, rfl⟩ := List.append_of_mem member
    have loop := rest.behind
    rw [same] at loop
    have lengths := congrArg List.length (unique whole loop)
    simp only [List.length_cons, List.length_append] at lengths
    omega

theorem lt_top (chain : Chain h link cells) : ∀ a ∈ cells.map Prod.fst, a < h.top := by
  induction cells generalizing link with
  | nil => simp
  | cons cell cells ih =>
    obtain ⟨-, next, found, rest⟩ := chain
    rw [List.map_cons]
    exact List.forall_mem_cons.2 ⟨Heap.lt_top found, ih rest⟩

/-- Only the nodes of the chain count. -/
theorem congr (chain : Chain h link cells) (kept : ∀ a ∈ cells.map Prod.fst, h'.cell a = h.cell a) : Chain h' link cells := by
  induction cells generalizing link with
  | nil => exact chain
  | cons cell cells ih =>
    obtain ⟨rfl, next, found, rest⟩ := chain
    rw [List.map_cons, List.forall_mem_cons] at kept
    exact ⟨rfl, next, kept.1.trans found, ih rest kept.2⟩

theorem map {β : Type u} (chain : Chain h link cells) (f : α → β) :
    Chain (h.map f) link (cells.map fun cell => (cell.1, f cell.2)) := by
  induction cells generalizing link with
  | nil => exact chain
  | cons cell cells ih =>
    obtain ⟨rfl, next, found, rest⟩ := chain
    exact ⟨rfl, next, by simp [Heap.map, found], ih rest⟩

theorem alloc (chain : Chain h link cells) (node : Node α) : Chain (h.alloc node).2 link cells :=
  chain.congr fun a member => Heap.alloc_old node h (chain.lt_top a member)

/-- The last node is linked to a new one. -/
theorem extend {last new : Nat} {v w : α} (chain : Chain h link (cells ++ [(last, v)]))
    (linked : h'.cell last = some ⟨v, some new⟩) (stored : h'.cell new = some ⟨w, none⟩)
    (kept : ∀ a ∈ cells.map Prod.fst, a ≠ last → h'.cell a = h.cell a) :
    Chain h' link (cells ++ [(last, v), (new, w)]) := by
  have distinct := chain.nodup
  induction cells generalizing link with
  | nil =>
    obtain ⟨rfl, -⟩ := chain
    exact ⟨rfl, _, linked, rfl, _, stored, rfl⟩
  | cons cell cells ih =>
    obtain ⟨rfl, next, found, rest⟩ := chain
    rw [List.cons_append, List.map_cons, List.nodup_cons] at distinct
    rw [List.map_cons, List.forall_mem_cons] at kept
    have other : cell.1 ≠ last := by
      rintro rfl
      exact distinct.1 (by simp)
    exact ⟨rfl, next, (kept.1 other).trans found, ih rest kept.2 distinct.2⟩

/-- The rest of a chain stays when its first node is freed. -/
theorem free {a : Nat} {v : α} (chain : Chain h link ((a, v) :: cells)) :
    ∃ next h', h.cell a = some ⟨v, next⟩ ∧ h.free a = some h' ∧ Chain h' next cells ∧
      h'.cell a = none ∧ ∀ b, b ≠ a → h'.cell b = h.cell b := by
  have distinct := chain.nodup
  rw [List.map_cons, List.nodup_cons] at distinct
  obtain ⟨-, next, found, rest⟩ := chain
  obtain ⟨h', freed, -, gone, kept⟩ := Heap.free_some found
  refine ⟨next, h', found, freed, rest.congr fun b member => kept b ?_, gone, kept⟩
  rintro rfl
  exact distinct.1 member

/-- There are at most as many nodes as addresses have been handed out. -/
theorem length_le_top (chain : Chain h link cells) : cells.length ≤ h.top := by
  have inside : cells.map Prod.fst ⊆ List.range h.top := fun a member => List.mem_range.2 (chain.lt_top a member)
  have short := (chain.nodup.subperm inside).length_le
  rwa [List.length_map, List.length_range] at short

end Chain

/-! ## Closed addresses -/

/-- A link is null or leads to one of these addresses. -/
def Leads (known : Set Nat) (link : Option Nat) : Prop := ∀ a, link = some a → a ∈ known

theorem Leads.none (known : Set Nat) : Leads known none := by
  intro a leads
  cases leads

theorem leads_some {known : Set Nat} {a : Nat} : Leads known (some a) ↔ a ∈ known := by
  simp [Leads]

theorem Leads.mono {known more : Set Nat} {link : Option Nat} (leads : Leads known link) (wider : known ⊆ more) :
    Leads more link :=
  fun a same => wider (leads a same)

/-- There is a node at each of these addresses, and none of them leads elsewhere. -/
def Closed (h : Heap α) (known : Set Nat) : Prop := ∀ a ∈ known, ∃ node, h.cell a = some node ∧ Leads known node.next

namespace Closed

variable {h : Heap α} {known : Set Nat}

theorem alloc (closed : Closed h known) {node : Node α} (leads : Leads known node.next) :
    Closed (h.alloc node).2 (insert h.top known) := by
  have wider : known ⊆ insert h.top known := Set.subset_insert ..
  intro a member
  rcases Set.mem_insert_iff.1 member with rfl | old
  · exact ⟨node, Heap.alloc_new node h, leads.mono wider⟩
  · obtain ⟨node', found, leads'⟩ := closed a old
    exact ⟨node', (Heap.alloc_old node h (Heap.lt_top found)).trans found, leads'.mono wider⟩

/-- A link may be changed to any of the addresses. -/
theorem setNext (closed : Closed h known) {a : Nat} {link : Option Nat} (member : a ∈ known) (leads : Leads known link) :
    ∃ h', h.setNext a link = some h' ∧ Closed h' known := by
  obtain ⟨node, found, -⟩ := closed a member
  obtain ⟨h', set, -, changed, kept⟩ := Heap.setNext_some found link
  refine ⟨h', set, fun b other => ?_⟩
  by_cases same : b = a
  · subst same
    exact ⟨_, changed, leads⟩
  · obtain ⟨node', found', leads'⟩ := closed b other
    exact ⟨node', (kept b same).trans found', leads'⟩

end Closed

/-- The addresses of a chain are closed. -/
theorem Chain.closed {h : Heap α} {link : Option Nat} {cells : List (Nat × α)} (chain : Chain h link cells) :
    Leads {a | a ∈ cells.map Prod.fst} link ∧ Closed h {a | a ∈ cells.map Prod.fst} := by
  induction cells generalizing link with
  | nil =>
    obtain rfl : link = none := chain
    exact ⟨.none _, fun a member => by cases member⟩
  | cons cell cells ih =>
    obtain ⟨rfl, next, found, rest⟩ := chain
    obtain ⟨leads, closed⟩ := ih rest
    have wider : {a | a ∈ cells.map Prod.fst} ⊆ {a | a ∈ (cell :: cells).map Prod.fst} :=
      fun a member => List.mem_cons_of_mem _ member
    refine ⟨leads_some.2 List.mem_cons_self, fun a member => ?_⟩
    rcases List.mem_cons.1 member with rfl | later
    · exact ⟨_, found, leads.mono wider⟩
    · obtain ⟨node, found', leads'⟩ := closed a later
      exact ⟨node, found', leads'.mono wider⟩

/-! ## Queues -/

/-- A chain, with the addresses of its first and its last node. -/
structure Segment (h : Heap α) (head tail : Option Nat) (cells : List (Nat × α)) : Prop where
  chain : Chain h head cells
  tail : tail = cells.getLast?.map Prod.fst

namespace Segment

variable {h : Heap α} {head tail : Option Nat} {cells : List (Nat × α)}

theorem head_eq_none_iff (segment : Segment h head tail cells) : head = none ↔ cells = [] := by
  have chain := segment.chain
  cases cells with
  | nil => simp [show head = none from chain]
  | cons cell cells => simp [chain.1]

theorem tail_eq_none_iff (segment : Segment h head tail cells) : tail = none ↔ cells = [] := by
  rw [segment.tail, Option.map_eq_none_iff, List.getLast?_eq_none_iff]

/-- The last node leads nowhere. -/
theorem last_next (segment : Segment h head tail cells) {a : Nat} (last : tail = some a) :
    ∃ v, h.cell a = some ⟨v, none⟩ := by
  have nonempty : cells ≠ [] := fun empty => by
    rw [segment.tail_eq_none_iff.2 empty] at last
    cases last
  obtain ⟨front, ⟨b, v⟩, rfl⟩ := (List.eq_nil_or_concat' cells).resolve_left nonempty
  obtain rfl : b = a := by simpa [last] using segment.tail.symm
  obtain ⟨next, found, rest⟩ := (show Chain h head (front ++ (b, v) :: []) from segment.chain).behind.2
  obtain rfl : next = none := rest
  exact ⟨v, found⟩

theorem alloc (segment : Segment h head tail cells) (node : Node α) : Segment (h.alloc node).2 head tail cells where
  chain := segment.chain.alloc node
  tail := segment.tail

/-- The address of a new node is not in the queue. -/
theorem top_fresh (segment : Segment h head tail cells) : h.top ∉ cells.map Prod.fst :=
  fun member => Nat.lt_irrefl _ (segment.chain.lt_top _ member)

/-- The first node of a queue. -/
theorem first (node : Nat × α) (stored : h.cell node.1 = some ⟨node.2, none⟩) :
    Segment h (some node.1) (some node.1) [node] where
  chain := ⟨rfl, none, stored, rfl⟩
  tail := rfl

/-- The last node is made to lead to a new one. -/
theorem setNext (segment : Segment h head tail cells) (nonempty : cells ≠ []) (node : Nat × α)
    (stored : h.cell node.1 = some ⟨node.2, none⟩) (fresh : node.1 ∉ cells.map Prod.fst) :
    ∃ h', (tail.bind fun last => h.setNext last (some node.1)) = some h' ∧ h'.top = h.top ∧
      Segment h' head (some node.1) (cells ++ [node]) := by
  obtain ⟨front, ⟨last, v⟩, rfl⟩ := (List.eq_nil_or_concat' cells).resolve_left nonempty
  have tail_eq : tail = some last := by simpa using segment.tail
  obtain ⟨next, found, rest⟩ := (show Chain h head (front ++ (last, v) :: []) from segment.chain).behind.2
  obtain rfl : next = none := rest
  obtain ⟨h', set, top, linkedLast, kept⟩ := Heap.setNext_some found (some node.1)
  have other : node.1 ≠ last := by
    intro same
    apply fresh
    rw [same]
    simp
  refine ⟨h', by rw [tail_eq, Option.bind_some, set], top, ?_, by simp⟩
  rw [List.append_assoc]
  exact segment.chain.extend linkedLast ((kept _ other).trans stored) fun a _ => kept a

/-- A new node is the first of an empty queue. -/
theorem push_first (segment : Segment h none tail cells) (v : α) :
    Segment (h.alloc ⟨v, none⟩).2 (some h.top) (some h.top) (cells ++ [(h.top, v)]) := by
  obtain rfl := segment.head_eq_none_iff.1 rfl
  exact first (_, v) (Heap.alloc_new ⟨v, none⟩ h)

/-- A new node goes behind the last one. -/
theorem push_last {a : Nat} (segment : Segment h (some a) tail cells) (v : α) :
    ∃ h', (tail.bind fun last => (h.alloc ⟨v, none⟩).2.setNext last (some h.top)) = some h' ∧
      Segment h' (some a) (some h.top) (cells ++ [(h.top, v)]) := by
  have nonempty : cells ≠ [] := fun empty => by cases segment.head_eq_none_iff.2 empty
  obtain ⟨h', set, -, longer⟩ := (segment.alloc ⟨v, none⟩).setNext nonempty (_, v) (Heap.alloc_new ⟨v, none⟩ h)
    segment.top_fresh
  exact ⟨h', set, longer⟩

end Segment

end LinkedHeap
