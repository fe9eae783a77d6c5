import SecuritySuite.Carbonite.DumpHeap

/-!
# The dump list as a log of snapshots

Calls of `carbonite` one after the other, every allocation succeeding. What `get_task_dump` reads at the
indices below `get_size` is one record for each process of each call that is not left out, in the order
of the calls; a later call adds nodes behind those that are there.
-/

namespace Carbonite
set_option autoImplicit false
open CString LinkedHeap Runs DumpHeap

/-- A call of `carbonite`: its reason, and the processes it finds. -/
structure DispatchCall where
  why : Int
  processes : List Task

def dispatch (kept : HeapSnapshots) (call : DispatchCall) : Except HeapFault (Outcome × HeapSnapshots) :=
  DumpHeap.carbonite call.why (call.processes.map fun task => (task, .succeeds)) kept

/-- Before the first call. -/
def firstSnapshots : HeapSnapshots := ⟨noReason, initTaskDumpList⟩

/-- An incident whose preceding call, left out or not, came after the initialization of a module. -/
def LeftOut (previous : Option Int) (call : DispatchCall) : Prop :=
  call.why = afterIncident ∧ previous = some afterModuleInit

instance (previous : Option Int) (call : DispatchCall) : Decidable (LeftOut previous call) :=
  inferInstanceAs (Decidable (_ ∧ _))

/-- The processes of the calls that are not left out, in order, behind a call with the reason `previous`. -/
def logged : (previous : Option Int) → List DispatchCall → List Task
  | _, [] => []
  | previous, call :: calls =>
    (if LeftOut previous call then [] else call.processes) ++ logged (some call.why) calls

/-- The record of a process: its ids, and its name as far as it goes into the array. -/
structure Holds (task : Task) (dump : TaskDump) : Prop where
  pid : dump.pid = task.pid
  uid : dump.uid = task.uid
  gid : dump.gid = task.gid
  comm : text dump.comm = (text task.comm).take taskCommLen

/-- The list holds the records of the log, and nothing behind them. -/
structure SnapshotLog (log : List Task) (list : DumpHeap) : Prop where
  size : list.getSize = log.length
  records : ∀ (i : Nat) task, log[i]? = some task → ∀ fuel, log.length < fuel →
    ∃ dump, list.getTaskDump fuel i = .ok (some (some dump)) ∧ Holds task dump
  beyond : ∀ n, list.getSize ≤ n → ∀ fuel, log.length < fuel → list.getTaskDump fuel n = .ok (some none)

/-- The second list has the nodes of the first one, with the same records in the same places. -/
structure Extends (list list' : DumpHeap) : Prop where
  nodes : ∃ cells more, Linked list cells ∧ Linked list' (cells ++ more)
  reads : ∀ n, 0 ≤ n → n < list.getSize → ∀ fuel : Nat, list'.getSize < fuel →
    list'.getTaskDump fuel n = list.getTaskDump fuel n

/-! ## Records -/

theorem holds_record (task : Task) : Holds task task.record where
  pid := rfl
  uid := rfl
  gid := rfl
  comm := text_strncpy taskCommLen task.comm

theorem DumpHeap.Linked.snapshotLog {log : List Task} {list : DumpHeap} {cells : List (Nat × Option TaskDump)}
    (linked : Linked list cells) (holds : cells.map Prod.snd = records log) : SnapshotLog log list := by
  have size : list.getSize = log.length := by
    rw [linked.getSize, holds, Carbonite.getSize, records, List.length_map]
  have length : cells.length = log.length := by
    have lengths := congrArg List.length holds
    simpa [records] using lengths
  have reads : ∀ n fuel, log.length < fuel → list.getTaskDump fuel n =
      .ok (some (Carbonite.getTaskDump (records log) n)) := by
    intro n fuel enough
    rw [← holds]
    exact linked.getTaskDump (by omega) n
  refine ⟨size, ?_, ?_⟩
  · intro i task at_i fuel enough
    refine ⟨task.record, ?_, holds_record task⟩
    rw [reads i fuel enough]
    simp [Carbonite.getTaskDump, records, at_i]
  · intro n past fuel enough
    rw [size] at past
    rw [reads n fuel enough, Carbonite.getTaskDump, if_pos (by omega),
      List.getElem?_eq_none (by simp [records]; omega)]
    rfl

theorem DumpHeap.Linked.extends {list list' : DumpHeap} {cells more : List (Nat × Option TaskDump)}
    (linked : Linked list cells) (linked' : Linked list' (cells ++ more)) : Extends list list' := by
  refine ⟨⟨cells, more, linked, linked'⟩, ?_⟩
  intro n nonneg inside fuel enough
  rw [DumpHeap.getSize, linked.size] at inside
  rw [DumpHeap.getSize, linked'.size, List.length_append] at enough
  rw [linked.getTaskDump (by omega), linked'.getTaskDump (by rw [List.length_append]; omega), Carbonite.getTaskDump,
    Carbonite.getTaskDump, if_pos nonneg, if_pos nonneg, List.map_append,
    List.getElem?_append_left (by rw [List.length_map]; omega)]

/-! ## Calls -/

/-- What one call adds to the list. -/
theorem dispatch_ok {kept : HeapSnapshots} {cells : List (Nat × Option TaskDump)} (linked : Linked kept.dumpList cells)
    (call : DispatchCall) :
    ∃ outcome kept' more, dispatch kept call = .ok (outcome, kept') ∧ Linked kept'.dumpList (cells ++ more) ∧
      kept'.previousReason = call.why ∧
      (cells ++ more).map Prod.snd =
        cells.map Prod.snd ++ records (if LeftOut (some kept.previousReason) call then [] else call.processes) := by
  obtain ⟨outcome, kept', more, done, linked', same⟩ :=
    linked.carbonite call.why (call.processes.map fun task => (task, .succeeds))
  refine ⟨outcome, kept', more, done, linked', ?_⟩
  rw [Carbonite.carbonite] at same
  by_cases out : LeftOut (some kept.previousReason) call
  · rw [if_pos ⟨Option.some.inj out.2, out.1⟩] at same
    obtain ⟨-, reason, list⟩ : _ ∧ call.why = kept'.previousReason ∧ _ := by simpa using same
    rw [if_pos out, list]
    simp [records, reason]
  · have allowed : ¬ (kept.previousReason = afterModuleInit ∧ call.why = afterIncident) :=
      fun both => out ⟨both.2, by rw [both.1]⟩
    rw [if_neg allowed, forEachProcess_succeeds] at same
    simp only [Prod.mk.injEq, Snapshots.mk.injEq, Option.some.injEq] at same
    obtain ⟨-, reason, list⟩ := same
    rw [if_neg out, ← list]
    exact ⟨reason.symm, rfl⟩

theorem logged_snoc (previous : Option Int) (calls : List DispatchCall) (call : DispatchCall) :
    logged previous (calls ++ [call]) = logged previous calls ++
      if LeftOut ((calls.getLast?.map DispatchCall.why).or previous) call then [] else call.processes := by
  induction calls generalizing previous with
  | nil =>
    simp only [List.nil_append, logged, List.append_nil]
    rfl
  | cons first calls ih =>
    have last : ((first :: calls).getLast?.map DispatchCall.why).or previous =
        (calls.getLast?.map DispatchCall.why).or (some first.why) := by
      cases calls with
      | nil => rfl
      | cons second calls =>
        rw [List.getLast?_cons_cons, List.getLast?_eq_some_getLast (by simp)]
        rfl
    rw [List.cons_append, logged, ih, ← last, logged, List.append_assoc]

/-- What a run keeps is the log of its calls. -/
theorem logged_of_reaches {calls : List DispatchCall} {kept : HeapSnapshots}
    (reaches : Reaches dispatch firstSnapshots calls kept) :
    ∃ cells, Linked kept.dumpList cells ∧ cells.map Prod.snd = records (logged none calls) ∧
      kept.previousReason = (calls.getLast?.map DispatchCall.why).getD noReason := by
  refine history_of_reaches (fun calls kept => ∃ cells, Linked kept.dumpList cells ∧
    cells.map Prod.snd = records (logged none calls) ∧
      kept.previousReason = (calls.getLast?.map DispatchCall.why).getD noReason) ?_ ?_ reaches
  · exact ⟨[], .init, rfl, rfl⟩
  intro calls kept call outcome kept' before past done
  obtain ⟨cells, linked, holds, reason⟩ := past
  obtain ⟨_, _, more, done', linked', reason', holds'⟩ := dispatch_ok linked call
  rw [done] at done'
  cases done'
  refine ⟨cells ++ more, linked', ?_, by simp [reason']⟩
  have same : LeftOut (some kept.previousReason) call ↔ LeftOut (calls.getLast?.map DispatchCall.why) call := by
    rw [reason]
    cases calls.getLast?.map DispatchCall.why with
    | none => simp [LeftOut, noReason, afterModuleInit]
    | some why => rfl
  rw [holds', holds, logged_snoc, Option.or_none]
  simp only [same, records, List.map_append]

/-- Nodes are only added. -/
theorem linked_of_reaches {calls : List DispatchCall} {kept kept' : HeapSnapshots}
    {cells : List (Nat × Option TaskDump)} (linked : Linked kept.dumpList cells) (reaches : Reaches dispatch kept calls kept') :
    ∃ more, Linked kept'.dumpList (cells ++ more) := by
  refine invariant_of_reaches (fun kept => ∃ more, Linked kept.dumpList (cells ++ more)) ?_ ⟨[], by simpa using linked⟩ reaches
  intro kept call outcome kept' grown done
  obtain ⟨more, linked⟩ := grown
  obtain ⟨_, _, more', done', linked', -⟩ := dispatch_ok linked call
  rw [done] at done'
  cases done'
  exact ⟨more ++ more', by rwa [List.append_assoc] at linked'⟩

/-- Calls never follow a pointer that leads nowhere. -/
theorem dispatches (calls : List DispatchCall) : ∃ kept, Reaches dispatch firstSnapshots calls kept := by
  induction calls using List.reverseRecOn with
  | nil => exact ⟨firstSnapshots, reaches_nil.2 rfl⟩
  | append_singleton calls call ih =>
    obtain ⟨kept, reaches⟩ := ih
    obtain ⟨cells, linked, -⟩ := logged_of_reaches reaches
    obtain ⟨outcome, kept', more, done, -⟩ := dispatch_ok linked call
    exact ⟨kept', reaches_append.2 ⟨kept, reaches, reaches_cons.2 ⟨outcome, kept', done, reaches_nil.2 rfl⟩⟩⟩

/-- **The dump is an append-only log of snapshots**: after any calls it holds the records of the log, and
extends what it held after each earlier call. -/
theorem append_only_log (calls : List DispatchCall) :
    ∃ kept, Reaches dispatch firstSnapshots calls kept ∧ SnapshotLog (logged none calls) kept.dumpList ∧
      ∀ before kept₁, before <+: calls → Reaches dispatch firstSnapshots before kept₁ →
        Extends kept₁.dumpList kept.dumpList := by
  obtain ⟨kept, reaches⟩ := dispatches calls
  obtain ⟨cells, linked, holds, -⟩ := logged_of_reaches reaches
  refine ⟨kept, reaches, linked.snapshotLog holds, ?_⟩
  intro before kept₁ front reaches₁
  obtain ⟨behind, rfl⟩ := front
  obtain ⟨kept₂, reaches₂, rest⟩ := reaches_append.1 reaches
  obtain rfl := reaches₂.unique reaches₁
  obtain ⟨cells₁, linked₁, -⟩ := logged_of_reaches reaches₁
  obtain ⟨more, linked'⟩ := linked_of_reaches linked₁ rest
  exact linked₁.extends linked'

end Carbonite
