import Mathlib.Data.List.Perm.Basic
import Mathlib.Data.List.Range

/-!
# Allocated objects

What an allocator has handed out: the objects that are live and those that were freed. Objects are numbered
in the order of their allocation, and each of them is in exactly one of the two lists
(`accounted`). Freeing an object that is not live is a fault.
-/

set_option autoImplicit false

/-- The objects of an allocator. -/
structure Ledger where
  next : Nat
  live : List Nat
  freed : List Nat
  accounted : (live ++ freed).Perm (List.range next)

namespace Ledger

inductive BadFree where
  /-- The object was never allocated, or it has been freed already. -/
  | notLive
deriving DecidableEq, Repr

/-- Before the first allocation. -/
def empty : Ledger := ⟨0, [], [], .refl _⟩

/-- The object that is allocated next, and the ledger with it. -/
def alloc (l : Ledger) : Nat × Ledger where
  fst := l.next
  snd :=
    { next := l.next + 1
      live := l.live ++ [l.next]
      freed := l.freed
      accounted := by
        rw [List.range_succ, List.append_assoc]
        refine (List.perm_append_comm.append_left l.live).trans ?_
        rw [← List.append_assoc]
        exact l.accounted.append_right [l.next] }

def free (l : Ledger) (a : Nat) : Except BadFree Ledger :=
  if live : a ∈ l.live then
    .ok
      { next := l.next
        live := l.live.erase a
        freed := a :: l.freed
        accounted := by
          refine List.perm_middle.trans ?_
          rw [← List.cons_append]
          exact ((List.perm_cons_erase live).symm.append_right l.freed).trans l.accounted }
  else .error .notLive

/-- Free one object after the other. -/
def freeAll : List Nat → Ledger → Except BadFree Ledger
  | [], l => .ok l
  | a :: objects, l =>
    match l.free a with
    | .error fault => .error fault
    | .ok l => freeAll objects l

theorem nodup (l : Ledger) : (l.live ++ l.freed).Nodup := l.accounted.nodup_iff.2 List.nodup_range

theorem live_nodup (l : Ledger) : l.live.Nodup := (List.nodup_append.1 l.nodup).1

theorem lt_next {l : Ledger} {a : Nat} (live : a ∈ l.live) : a < l.next :=
  List.mem_range.1 (l.accounted.subset (List.mem_append_left _ live))

/-- A new object is not live yet. -/
theorem next_fresh (l : Ledger) : l.next ∉ l.live := fun live => Nat.lt_irrefl _ (lt_next live)

@[simp] theorem alloc_live (l : Ledger) : l.alloc.2.live = l.live ++ [l.next] := rfl

@[simp] theorem alloc_next (l : Ledger) : l.alloc.2.next = l.next + 1 := rfl

theorem free_live {l : Ledger} {a : Nat} (live : a ∈ l.live) :
    ∃ l', l.free a = .ok l' ∧ l'.live = l.live.erase a ∧ l'.next = l.next := by
  rw [free, dif_pos live]
  exact ⟨_, rfl, rfl, rfl⟩

theorem free_error {l : Ledger} {a : Nat} (dead : a ∉ l.live) : l.free a = .error .notLive := dif_neg dead

/-- An object that is freed right after its allocation leaves the others as they are. -/
theorem free_alloc (l : Ledger) : ∃ l', l.alloc.2.free l.next = .ok l' ∧ l'.live = l.live := by
  obtain ⟨l', freed, live, -⟩ := free_live (l := l.alloc.2) (a := l.next) (by simp)
  refine ⟨l', freed, ?_⟩
  rw [live, alloc_live, List.erase_append_right _ l.next_fresh]
  simp

/-- Distinct live objects can all be freed, and the others stay. -/
theorem freeAll_live {objects : List Nat} {l : Ledger} (distinct : objects.Nodup) (live : ∀ a ∈ objects, a ∈ l.live) :
    ∃ l', freeAll objects l = .ok l' ∧ l'.next = l.next ∧ ∀ a, a ∈ l'.live ↔ a ∈ l.live ∧ a ∉ objects := by
  induction objects generalizing l with
  | nil => exact ⟨l, rfl, rfl, by simp⟩
  | cons a objects ih =>
    obtain ⟨first, rest⟩ := List.nodup_cons.1 distinct
    obtain ⟨l₁, freed, erased, next⟩ := free_live (live a (by simp))
    have member : ∀ b, b ∈ l₁.live ↔ b ≠ a ∧ b ∈ l.live := by
      intro b
      rw [erased, l.live_nodup.mem_erase_iff]
    obtain ⟨l', all, next', left⟩ := ih rest (l := l₁) fun b inside =>
      (member b).2 ⟨fun same => first (same ▸ inside), live b (List.mem_cons_of_mem _ inside)⟩
    refine ⟨l', ?_, next'.trans next, ?_⟩
    · rw [freeAll, freed]
      exact all
    · intro b
      rw [left, member, List.mem_cons, not_or]
      tauto

end Ledger
