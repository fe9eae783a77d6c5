import SecuritySuite.Carbonite.Dispatch
import SecuritySuite.Carbonite.DumpReading
import SecuritySuite.Foundation.Delivery

/-!
# Reading the dump file while snapshots come

An open file is read call by call, and `carbonite` adds records to the list in between. The file grows at its end, so
a reader that has not come there finds the new records behind the old ones. At its end `task_dump_seq_next` moves the
position past the last record, twice, before it gives up, and the next snapshot puts its first records in front of the
position that is saved.
-/

namespace Carbonite.Following
set_option autoImplicit false
open CString Runs

/-- What `carbonite` keeps, and a file that is open. -/
structure State where
  kept : Snapshots
  file : SeqFile

inductive Op where
  /-- A call of `carbonite` with the processes there are, in which every allocation succeeds. -/
  | carbonite (why : Int) (processes : List Task)
  | read (call : ReadCall)

/-- A file that is opened over these records, after a call with this reason. -/
def opened (previous : Int) (records : List TaskDump) : State := ⟨⟨previous, some (records.map some)⟩, .opened⟩

variable (printf : Printf) (capacity : Nat)

/-- A step answers with the bytes that are delivered. -/
def step (s : State) : Op → Except ReadFault (List Byte × State)
  | .carbonite why processes =>
    .ok ([], { s with kept := (Carbonite.carbonite why (processes.map fun task => (task, .succeeds)) s.kept).2 })
  | .read call =>
    match (DumpFile.mk printf s.kept.dumpList capacity).seqRead s.file call with
    | .error fault => .error fault
    | .ok (delivered, file) => .ok (delivered, { s with file })

/-! ## What is to hold -/

def State.records (s : State) : List TaskDump := (s.kept.dumpList.getD []).filterMap id

/-- The lines of the file. There is no header without a record. -/
def shown (records : List TaskDump) : List (List Byte) := if records = [] then [] else dumpLines printf records

def State.shown (s : State) : List (List Byte) := Following.shown printf s.records

/-- The call is left out by `carbonite`. -/
def LeftOut (s : State) (why : Int) : Prop := s.kept.previousReason = afterModuleInit ∧ why = afterIncident

instance (s : State) (why : Int) : Decidable (LeftOut s why) := inferInstanceAs (Decidable (_ ∧ _))

/-- The next read resumes past the end of the file. -/
def State.PastEnd (s : State) : Prop := (s.shown printf).length < (DumpFile.resumed s.file).toNat

instance (s : State) : Decidable (s.PastEnd printf) := inferInstanceAs (Decidable (_ < _))

/-- A read drops a record that does not fit, or a snapshot comes while the reader is past the end. -/
def Loses (s : State) : Op → Prop
  | .carbonite why processes => ¬ LeftOut s why ∧ processes ≠ [] ∧ s.PastEnd printf
  | .read call => Drops capacity (s.shown printf) s.file call

/-- Every line that is added fits the driver's buffer. -/
def Fits : Op → Prop
  | .carbonite _ processes => ∀ task ∈ processes, (printf.expand (dumpLine task.record)).length < capacity
  | .read _ => True

/-! ## The list -/

/-- What every step keeps. -/
structure Recorded (s : State) : Prop where
  nonneg : 0 ≤ s.file.index
  list : s.kept.dumpList = some (s.records.map some)
  holds : ∀ line ∈ dumpLines printf s.records, line.length < capacity

theorem records_map (dumps : List TaskDump) : (dumps.map some).filterMap id = dumps := by
  rw [List.filterMap_map]
  exact List.filterMap_some

theorem opened_records (previous : Int) (dumps : List TaskDump) : (opened previous dumps).records = dumps :=
  records_map dumps

/-- The processes that a call adds to the list. -/
def adds (s : State) (why : Int) (processes : List Task) : List Task := if LeftOut s why then [] else processes

variable {printf capacity} {s : State}

theorem carbonite_records (recorded : Recorded printf capacity s) (why : Int) (processes : List Task) :
    (Carbonite.carbonite why (processes.map fun task => (task, .succeeds)) s.kept).2.dumpList =
      some ((s.records ++ (adds s why processes).map Task.record).map some) := by
  rw [Carbonite.carbonite, adds]
  by_cases out : s.kept.previousReason = afterModuleInit ∧ why = afterIncident
  · rw [if_pos out, if_pos (show LeftOut s why from out), List.map_nil, List.append_nil]
    exact recorded.list
  · rw [if_neg out, if_neg (show ¬ LeftOut s why from out), recorded.list, forEachProcess_succeeds]
    simp [Carbonite.records, Function.comp_def]

theorem adds_eq_nil (why : Int) (processes : List Task) : adds s why processes = [] ↔ LeftOut s why ∨ processes = [] := by
  unfold adds
  split
  · simp [*]
  · simp [*]

/-! ## Growth -/

/-- Behind the end of the file there is what is added to it, apart from what the saved position has passed. -/
theorem remaining_append {file : SeqFile} (nonneg : 0 ≤ file.index) (lines more : List (List Byte)) :
    remaining (lines ++ more) file =
      remaining lines file ++ (more.drop ((DumpFile.resumed file).toNat - lines.length)).flatten := by
  unfold remaining DumpFile.resumed
  split
  · rw [List.drop_append, List.flatten_append]
  · rw [List.drop_append, List.flatten_append, List.append_assoc, show (file.index + 1).toNat = file.index.toNat + 1 by omega]

/-- The lines that new records add, with the header where there was none. -/
theorem shown_append (printf : Printf) (dumps new : List TaskDump) :
    ∃ more, shown printf (dumps ++ new) = shown printf dumps ++ more ∧ (more = [] ↔ new = []) ∧
      ∀ line ∈ more, line ∈ dumpLines printf (dumps ++ new) := by
  by_cases first : dumps = []
  · refine ⟨shown printf new, ?_, ?_, ?_⟩
    · simp [first, shown]
    · unfold shown
      split
      · simp [*]
      · simp [*, dumpLines]
    · intro line member
      unfold shown at member
      split at member
      · cases member
      · simpa [first] using member
  · refine ⟨new.map fun dump => printf.expand (dumpLine dump), ?_, by simp, ?_⟩
    · rw [shown, shown, if_neg first, if_neg (by simp [first]), dumpLines, dumpLines, List.map_append, List.cons_append]
    · intro line member
      rw [dumpLines, List.map_append]
      exact List.mem_cons_of_mem _ (List.mem_append_right _ member)

/-- A snapshot hands out nothing, and loses what it puts in front of the saved position. -/
theorem grows {file : SeqFile} (nonneg : 0 ≤ file.index) (lines : List (List Byte)) {more : List (List Byte)}
    (filled : ∀ line ∈ more, line ≠ []) :
    ((more = [] ∨ ¬ lines.length < (DumpFile.resumed file).toNat) →
        remaining (lines ++ more) file = remaining lines file ++ more.flatten) ∧
      (more ≠ [] ∧ lines.length < (DumpFile.resumed file).toNat →
        (remaining (lines ++ more) file).length < (remaining lines file ++ more.flatten).length) := by
  rw [remaining_append nonneg]
  constructor
  · rintro (rfl | before)
    · simp
    · rw [show (DumpFile.resumed file).toNat - lines.length = 0 by omega, List.drop_zero]
  · rintro ⟨some_line, past⟩
    obtain ⟨line, more, rfl⟩ := List.exists_cons_of_ne_nil some_line
    obtain ⟨n, passed⟩ : ∃ n, (DumpFile.resumed file).toNat - lines.length = n + 1 :=
      ⟨(DumpFile.resumed file).toNat - lines.length - 1, by omega⟩
    have positive := List.length_pos_iff.2 (filled line (by simp))
    have fewer : more.flatten.length = (more.take n).flatten.length + (more.drop n).flatten.length := by
      rw [← List.length_append, ← List.flatten_append, List.take_append_drop]
    rw [passed, List.drop_succ_cons, List.length_append, List.length_append, List.flatten_cons, List.length_append]
    omega

/-- The record of a process is never NULL, so the list stays one of records. -/
theorem snapshot_step (recorded : Recorded printf capacity s) {why : Int} {processes : List Task}
    (fits : Fits printf capacity (.carbonite why processes)) :
    ∃ s' added, step printf capacity s (.carbonite why processes) = .ok ([], s') ∧ Recorded printf capacity s' ∧
      HandsOut (fun s => (s.shown printf).flatten) (fun s => remaining (s.shown printf) s.file)
        (Loses printf capacity s (.carbonite why processes)) s [] s' added := by
  have list := carbonite_records recorded why processes
  obtain ⟨more, longer, empty, inside⟩ :=
    shown_append printf s.records ((adds s why processes).map Task.record)
  have filled : ∀ line ∈ more, line ≠ [] := fun line member => dumpLines_ne_nil (inside line member)
  obtain ⟨whole, less⟩ := grows recorded.nonneg (s.shown printf) filled
  have loses : Loses printf capacity s (.carbonite why processes) ↔ more ≠ [] ∧ s.PastEnd printf := by
    rw [Loses, ne_eq, ne_eq, empty, List.map_eq_nil_iff, adds_eq_nil, not_or, and_assoc]
  refine ⟨_, more.flatten, rfl, ?_⟩
  generalize reached : ({ s with kept :=
    (Carbonite.carbonite why (processes.map fun task => (task, .succeeds)) s.kept).2 } : State) = s'
  have file : s'.file = s.file := by rw [← reached]
  have records : s'.records = s.records ++ (adds s why processes).map Task.record := by
    rw [← reached, State.records, list, Option.getD_some, records_map]
  have shows_ : s'.shown printf = s.shown printf ++ more := by rw [State.shown, records, longer, State.shown]
  refine ⟨⟨?_, ?_, ?_⟩, ?_, ?_, ?_⟩
  · rw [file]
    exact recorded.nonneg
  · rw [records, ← list, ← reached]
  · intro line member
    rw [records, dumpLines, List.map_append, ← List.cons_append, List.mem_append] at member
    rcases member with old | new
    · exact recorded.holds line old
    · rw [List.map_map, List.mem_map] at new
      obtain ⟨task, added, rfl⟩ := new
      have process : task ∈ processes := by
        unfold adds at added
        split at added
        · cases added
        · exact added
      exact fits task process
  · simp only [shows_, List.flatten_append]
  · intro calm
    simp only [file, shows_, List.nil_append]
    apply whole
    rw [loses] at calm
    exact or_iff_not_imp_left.2 fun some_line past => calm ⟨some_line, past⟩
  · intro loss
    simp only [file, shows_, List.nil_append]
    exact less (loses.1 loss)

/-! ## Reads -/

/-- Without records there is no first line, and the position has been moved past the end twice. -/
theorem firstLine_empty (printf : Printf) (capacity object : Nat) :
    (recordFile printf capacity []).firstLine 3 (.allocated object 0) 0 = .ok (.ended 2) := by
  simp [DumpFile.firstLine, recordFile, taskDumpSeqNext, taskDumpSeqShow, getSize]

/-- A read of a list without records delivers what is left. -/
theorem seqRead_empty (printf : Printf) (capacity : Nat) {file : SeqFile} (nonneg : 0 ≤ file.index) (call : ReadCall) :
    ∃ delivered file', (recordFile printf capacity []).seqRead file call = .ok (delivered, file') ∧ 0 ≤ file'.index ∧
      delivered ++ file'.left = file.left ∧ (0 < call.size → delivered = [] → file.left = []) := by
  rw [DumpFile.seqRead]
  split
  · refine ⟨_, _, rfl, ?_, List.take_append_drop .., fun asked nothing => ?_⟩
    · split
      · exact Int.add_nonneg nonneg (by decide)
      · exact nonneg
    · exact (List.take_eq_nil_iff.1 nothing).resolve_left (by omega)
  obtain ⟨index, resumed⟩ : ∃ index : Nat, DumpFile.resumed file = index := by
    apply Int.eq_ofNat_of_zero_le
    unfold DumpFile.resumed
    split
    · exact nonneg
    · omega
  obtain ⟨file', read, nonneg', left⟩ : ∃ file', (recordFile printf capacity []).bracketRead
      (call.size - file.left.length) call.kmalloc (DumpFile.resumed file) = .ok ([], file') ∧ 0 ≤ file'.index ∧
        file'.left = [] := by
    rw [resumed, DumpFile.bracketRead]
    cases index with
    | zero =>
      cases call.kmalloc with
      | false => exact ⟨⟨0, []⟩, rfl, Int.le_refl 0, rfl⟩
      | true =>
        refine ⟨⟨2, []⟩, ?_, by decide, rfl⟩
        have started : taskDumpSeqStart (recordFile printf capacity []).list true ((0 : Nat) : Int) .empty =
            ⟨some (.allocated 0 0), 0, Ledger.empty.alloc.2⟩ := rfl
        have fuel : (getSize (recordFile printf capacity []).list).toNat + 3 = 3 := rfl
        simp only [started, fuel, firstLine_empty, bind, Except.bind]
        rfl
    | succ index =>
      refine ⟨⟨(index + 1 : Nat), []⟩, ?_, Int.natCast_nonneg _, rfl⟩
      have started : taskDumpSeqStart (recordFile printf capacity []).list call.kmalloc ((index + 1 : Nat) : Int) .empty =
          ⟨none, 0, .empty⟩ := by
        rw [taskDumpSeqStart, if_neg (by omega), if_pos]
        simp [recordFile, getSize]
      simp only [started]
  simp only [read]
  exact ⟨file.left ++ [], file', rfl, nonneg', by simp [left], fun _ nothing => by simpa using nothing⟩

/-- A read hands out the front of what remains, unless it drops a record. -/
theorem read_step (recorded : Recorded printf capacity s) (call : ReadCall) :
    ∃ delivered s', step printf capacity s (.read call) = .ok (delivered, s') ∧ Recorded printf capacity s' ∧
      HandsOut (fun s => (s.shown printf).flatten) (fun s => remaining (s.shown printf) s.file)
        (Loses printf capacity s (.read call)) s delivered s' [] ∧
      (0 < call.size → delivered = [] → remaining (s.shown printf) s.file = [] ∨ Starved s.file call) := by
  have same : DumpFile.mk printf s.kept.dumpList capacity = recordFile printf capacity s.records := by
    rw [recorded.list]
    rfl
  rw [step, same]
  by_cases none_yet : s.records = []
  · obtain ⟨delivered, file', read, nonneg, left, ends⟩ := seqRead_empty printf capacity recorded.nonneg call
    have nothing : ∀ file : SeqFile, remaining ([] : List (List Byte)) file = file.left := by
      intro file
      unfold remaining
      split
      · simp [*]
      · simp
    have lines : s.shown printf = [] := by rw [State.shown, shown, if_pos none_yet]
    rw [none_yet, read]
    refine ⟨delivered, { s with file := file' }, rfl, ⟨nonneg, recorded.list, recorded.holds⟩,
      ⟨(List.append_nil _).symm, fun _ => ?_, ?_⟩, fun asked nothing_read => ?_⟩
    · show delivered ++ remaining (s.shown printf) file' = remaining (s.shown printf) s.file ++ []
      rw [lines, nothing, nothing, List.append_nil, left]
    · rintro ⟨-, -, skips⟩
      rw [lines, List.drop_nil] at skips
      exact skips.elim
    · rw [lines, nothing]
      exact .inl (ends asked nothing_read)
  · obtain ⟨delivered, file', read, advances⟩ := seqRead_advances printf none_yet recorded.holds recorded.nonneg call
    have lines : s.shown printf = dumpLines printf s.records := by rw [State.shown, shown, if_neg none_yet]
    rw [read]
    refine ⟨delivered, { s with file := file' }, rfl, ⟨advances.nonneg, recorded.list, recorded.holds⟩,
      ⟨(List.append_nil _).symm, ?_, ?_⟩, ?_⟩
    · intro calm
      rw [Loses, lines] at calm
      show delivered ++ remaining (s.shown printf) file' = remaining (s.shown printf) s.file ++ []
      rw [lines, List.append_nil]
      exact advances.whole calm
    · intro drops
      rw [Loses, lines] at drops
      show (delivered ++ remaining (s.shown printf) file').length < (remaining (s.shown printf) s.file ++ []).length
      rw [lines, List.append_nil]
      exact advances.lost drops
    · rw [lines]
      exact advances.ends

/-! ## Runs -/

theorem opened_recorded (previous : Int) {records : List TaskDump}
    (holds : ∀ line ∈ dumpLines printf records, line.length < capacity) :
    Recorded printf capacity (opened previous records) where
  nonneg := Int.le_refl 0
  list := by rw [opened_records]; rfl
  holds := by rwa [opened_records]

theorem opened_remaining (previous : Int) (records : List TaskDump) :
    remaining ((opened previous records).shown printf) (opened previous records).file =
      ((opened previous records).shown printf).flatten := rfl

/-- A run completes, and what was delivered and what remains are the file exactly if nothing is lost. -/
theorem run_delivers (printf : Printf) {capacity : Nat} (previous : Int) {records : List TaskDump}
    (holds : ∀ line ∈ dumpLines printf records, line.length < capacity) {ops : List Op}
    (fits : ∀ op ∈ ops, Fits printf capacity op) :
    ∃ answers s, run (step printf capacity) ops (opened previous records) = .ok (answers, s) ∧ Recorded printf capacity s ∧
      (answers.flatten ++ remaining (s.shown printf) s.file = (s.shown printf).flatten ↔
        Along (step printf capacity) (fun s op => ¬ Loses printf capacity s op) ops (opened previous records)) := by
  have always : Along (step printf capacity) (fun _ op => Fits printf capacity op ∧ True) ops (opened previous records) :=
    Along.and fits (.of_forall (fun _ _ => trivial) ops _)
  exact delivered_iff (Recorded printf capacity)
    (fun s op recorded fits => by
      cases op with
      | carbonite why processes =>
        obtain ⟨s', added, next, recorded', hands⟩ := snapshot_step recorded fits.1
        exact ⟨[], s', added, next, recorded', hands⟩
      | read call =>
        obtain ⟨delivered, s', next, recorded', hands, -⟩ := read_step recorded call
        exact ⟨delivered, s', [], next, recorded', hands⟩)
    (opened_recorded previous holds) (opened_remaining previous records) always

/-- A shell. -/
def shell : Task := ⟨2, 0, 0, 1, bytes "sh", 0, 0⟩

end Carbonite.Following
