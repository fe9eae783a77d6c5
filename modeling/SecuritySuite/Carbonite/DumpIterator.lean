import SecuritySuite.Carbonite.TaskDump
import SecuritySuite.Foundation.Ledger

/-!
# The iterator of the dump file

`task_dump_seq_start`, `task_dump_seq_next` and `task_dump_seq_stop`. An iterator is a counter that `start`
allocates, or the position variable that the driver passed to `start`. `stop` frees whatever it is
given, so a bracket of calls is clean when a new counter arrives there, and otherwise only if
nothing does.
-/

namespace Carbonite
set_option autoImplicit false

/-- What the `void *` points to, with the counter's value. -/
inductive Iterator where
  | allocated (object : Nat) (position : Int)
  | driverPosition
deriving DecidableEq

/-- The variables of the driver: the one passed to `start`, and the one passed to `next`. -/
structure Positions where
  pos : Int
  next : Int

structure Started where
  iterator : Option Iterator
  pos : Int
  ledger : Ledger

def taskDumpSeqStart (list : Option DumpList) (kmalloc : Bool) (pos : Int) (ledger : Ledger) : Started :=
  if pos = 0 then
    if kmalloc then ⟨some (.allocated ledger.alloc.1 pos), pos, ledger.alloc.2⟩
    else ⟨none, pos, ledger⟩
  else if getSize list < pos then ⟨none, 0, ledger⟩
  else ⟨some .driverPosition, pos, ledger⟩

/-- `*pos = ++(*spos)`: an iterator that is the driver's variable advances that variable. -/
def taskDumpSeqNext (list : Option DumpList) (iterator : Iterator) (p : Positions) : Option Iterator × Positions :=
  if getSize list + 1 < p.next then (none, p)
  else match iterator with
    | .allocated object position => (some (.allocated object (position + 1)), { p with next := position + 1 })
    | .driverPosition => (some .driverPosition, ⟨p.pos + 1, p.pos + 1⟩)

inductive IteratorFault where
  /-- `kfree` of memory that is not a live object of the module. -/
  | badFree
deriving DecidableEq, Repr

def taskDumpSeqStop (iterator : Option Iterator) (ledger : Ledger) : Except IteratorFault Ledger :=
  match iterator with
  | none => .ok ledger
  | some .driverPosition => .error .badFree
  | some (.allocated object _) =>
    match ledger.free object with
    | .error _ => .error .badFree
    | .ok ledger => .ok ledger

/-! ## A bracket -/

/-- The last iterator after `calls` calls of `next`, unless one of them returned NULL before. The driver passes
a copy of its position, and adopts it afterwards. -/
def nexts (list : Option DumpList) : (calls : Nat) → Option Iterator → (pos : Int) → Option Iterator
  | 0, iterator, _ => iterator
  | _ + 1, none, _ => none
  | calls + 1, some iterator, pos =>
    let r := taskDumpSeqNext list iterator ⟨pos, pos⟩
    nexts list calls r.1 r.2.next

/-- `start` at the saved index, the calls of `next`, and `stop` on what the last call returned. -/
def bracket (list : Option DumpList) (kmalloc : Bool) (index : Int) (calls : Nat) (ledger : Ledger) :
    Except IteratorFault Ledger :=
  let started := taskDumpSeqStart list kmalloc index ledger
  taskDumpSeqStop (nexts list calls started.iterator started.pos) started.ledger

/-- Every `kfree` is of an object that the bracket allocated and that is live, and nothing that it
allocated is left. -/
def Clean (list : Option DumpList) (kmalloc : Bool) (index : Int) (calls : Nat) (ledger : Ledger) : Prop :=
  ∃ ledger', bracket list kmalloc index calls ledger = .ok ledger' ∧ ledger'.live = ledger.live

/-- `start` or a call of `next` returns NULL. -/
def RunsOut (list : Option DumpList) (index : Int) (calls : Nat) : Prop :=
  (index ≠ 0 ∧ getSize list < index) ∨ getSize list + 3 ≤ index + calls

theorem nexts_none (list : Option DumpList) (calls : Nat) (pos : Int) : nexts list calls none pos = none := by
  cases calls <;> rfl

/-- The iterator of a bracket that stands at a position. -/
def Iterator.at (object : Option Nat) (pos : Int) : Iterator :=
  match object with
  | none => .driverPosition
  | some object => .allocated object pos

/-- One call moves an iterator by one, unless the position is behind the list. -/
theorem taskDumpSeqNext_at (list : Option DumpList) (object : Option Nat) (pos : Int) :
    taskDumpSeqNext list (.at object pos) ⟨pos, pos⟩ =
      if getSize list + 1 < pos then (none, ⟨pos, pos⟩)
      else (some (.at object (pos + 1)), ⟨if object.isSome then pos else pos + 1, pos + 1⟩) := by
  unfold taskDumpSeqNext
  cases object <;> rfl

theorem nexts_at (list : Option DumpList) (object : Option Nat) (calls : Nat) (pos : Int)
    (inside : pos ≤ getSize list + 2) :
    nexts list calls (some (.at object pos)) pos =
      if getSize list + 3 ≤ pos + calls then none else some (.at object (pos + calls)) := by
  induction calls generalizing pos with
  | zero =>
    rw [nexts, if_neg (by omega)]
    simp
  | succ calls ih =>
    rw [nexts, taskDumpSeqNext_at]
    by_cases behind : getSize list + 1 < pos
    · rw [if_pos behind, nexts_none, if_pos (by omega)]
    · rw [if_neg behind]
      simp only [ih (pos + 1) (by omega)]
      rw [show pos + 1 + (calls : Int) = pos + ((calls + 1 : Nat) : Int) by omega]

theorem getSize_nonneg (list : Option DumpList) : 0 ≤ getSize list := by
  cases list with
  | none => exact Int.le_refl 0
  | some list => exact Int.natCast_nonneg _

/-- **Which brackets are clean**: at index 0, those whose allocation fails or in which no call returns NULL;
elsewhere, those in which one does. -/
theorem clean_iff (list : Option DumpList) (kmalloc : Bool) (index : Int) (calls : Nat) (ledger : Ledger) :
    Clean list kmalloc index calls ledger ↔
      if index = 0 then kmalloc = false ∨ ¬ RunsOut list index calls else RunsOut list index calls := by
  have size := getSize_nonneg list
  rw [Clean, bracket, taskDumpSeqStart]
  by_cases first : index = 0
  · rw [if_pos first, if_pos first]
    cases kmalloc with
    | false => exact iff_of_true ⟨ledger, by rw [if_neg (by simp), nexts_none]; rfl, rfl⟩ (.inl rfl)
    | true =>
      have moved := nexts_at list (some ledger.alloc.1) calls index (by omega)
      rw [Iterator.at] at moved
      simp only [if_pos, moved]
      by_cases last : getSize list + 3 ≤ index + calls
      · rw [if_pos last]
        refine iff_of_false ?_ (by simp [RunsOut, last])
        intro clean
        obtain ⟨ledger', stopped, live⟩ := clean
        cases stopped
        simp at live
      · rw [if_neg last]
        obtain ⟨ledger', freed, live⟩ := ledger.free_alloc
        refine iff_of_true ⟨ledger', ?_, live⟩ (.inr fun out => out.elim (fun start => start.1 first) last)
        simp only [Iterator.at, taskDumpSeqStop]
        rw [show ledger.alloc.1 = ledger.next from rfl, freed]
  · rw [if_neg first, if_neg first]
    by_cases behind : getSize list < index
    · rw [if_pos behind]
      exact iff_of_true ⟨ledger, by rw [nexts_none]; rfl, rfl⟩ (.inl ⟨first, behind⟩)
    · have moved := nexts_at list none calls index (by omega)
      rw [Iterator.at] at moved
      rw [if_neg behind]
      simp only [moved]
      by_cases last : getSize list + 3 ≤ index + calls
      · rw [if_pos last]
        exact iff_of_true ⟨ledger, rfl, rfl⟩ (.inr last)
      · rw [if_neg last]
        refine iff_of_false ?_ (by simp [RunsOut, last, behind])
        intro clean
        obtain ⟨ledger', stopped, -⟩ := clean
        cases stopped

def initDump : TaskDump := ⟨1, 0, 0, CString.bytes "S", CString.bytes "init", 0⟩

/-- A bracket that resumes behind the header frees the driver's variable, and one that reaches the end from the
header on leaves its counter behind. -/
theorem clean_fails :
    ¬ Clean (some [some initDump]) true 1 0 .empty ∧ ¬ Clean (some [some initDump]) true 0 4 .empty := by
  constructor
  · intro clean
    obtain ⟨ledger, stopped, -⟩ := clean
    rw [show bracket (some [some initDump]) true 1 0 .empty = .error .badFree from rfl] at stopped
    cases stopped
  · intro clean
    obtain ⟨ledger, stopped, live⟩ := clean
    rw [show bracket (some [some initDump]) true 0 4 .empty = .ok Ledger.empty.alloc.2 from rfl] at stopped
    cases stopped
    cases live

end Carbonite
