import SecuritySuite.Carbonite.DumpReading
import SecuritySuite.Foundation.FormatText

/-!
# Lines that are formats

`task_dump_seq_show` formats the line of a record, and then passes that line as the format to `seq_printf` and to
`print_log`. A process chooses its name, so it chooses part of a format.
-/

namespace Carbonite
set_option autoImplicit false
open CString

/-- A `printf` for which `unpassed` comes of a conversion without its argument. -/
def withoutArguments (unpassed : List Byte → List Byte) : Printf where
  expand := expand unpassed
  plain := fun _ plain => expand_plain unpassed plain
  front := by
    intro format rest plain
    rw [expand_append unpassed plain]
    exact List.prefix_append _ _

/-- `log` at a position, unless nothing is printed there. -/
def taskDumpSeqLog (list : Option DumpList) (spos : Int) : Option (List Byte) :=
  match list with
  | none => none
  | some dumps =>
    if getSize list = 0 then none
    else if spos = 0 then some dumpHeader
    else (getTaskDump dumps (spos - 1)).map dumpLine

/-- What `print_log` makes of `log`. -/
def taskDumpSeqPrintLog (printf : Printf) (list : Option DumpList) (spos : Int) : Option (List Byte) :=
  (taskDumpSeqLog list spos).map printf.expand

/-- The line of a record is what is in the file and in the log, whatever stands where arguments would be. -/
structure ShowsLine (dumps : DumpList) (i : Nat) (dump : TaskDump) : Prop where
  file : ∀ unpassed, taskDumpSeqShow (withoutArguments unpassed) (some dumps) (i + 1) = dumpLine dump
  log : ∀ unpassed, taskDumpSeqPrintLog (withoutArguments unpassed) (some dumps) (i + 1) = some (dumpLine dump)

/-- The file and the log get the same format. -/
theorem taskDumpSeqShow_eq (printf : Printf) (list : Option DumpList) (spos : Int) :
    taskDumpSeqShow printf list spos = ((taskDumpSeqLog list spos).map printf.expand).getD [] := by
  rw [taskDumpSeqShow.eq_def, taskDumpSeqLog.eq_def]
  cases list with
  | none => rfl
  | some dumps =>
    dsimp only
    split
    · rfl
    split
    · rfl
    cases getTaskDump dumps (spos - 1) <;> rfl

theorem taskDumpSeqLog_record {dumps : DumpList} {i : Nat} {dump : TaskDump} (recorded : dumps[i]? = some (some dump)) :
    taskDumpSeqLog (some dumps) (i + 1) = some (dumpLine dump) := by
  obtain ⟨inside, -⟩ := List.getElem?_eq_some_iff.1 recorded
  have size : ¬ getSize (some dumps) = 0 := by
    simp only [getSize]
    omega
  rw [taskDumpSeqLog, if_neg size, if_neg (by omega), getTaskDump, if_pos (by omega),
    show ((i : Int) + 1 - 1).toNat = i by omega, recorded]
  rfl

/-! ## Where a `'%'` comes from -/

theorem getTaskState_plain (task : Task) : 37 ∉ text (getTaskState task) := by
  have table : ∀ n, 37 ∉ bytes (taskStateArray.getD n "") := by
    intro n
    match n with
    | 0 | 1 | 2 | 3 | 4 | 5 => decide +kernel
    | n + 6 => simp [taskStateArray, bytes]
  intro member
  rw [getTaskState, text_strncpy] at member
  exact table _ (List.takeWhile_subset _ (List.mem_of_mem_take member))

theorem padding_plain (n : Nat) : 37 ∉ List.replicate n (32 : Byte) := fun member =>
  absurd (List.mem_replicate.1 member).2 (by decide)

theorem padLeft_plain_iff {width : Nat} {s : List Byte} : 37 ∈ padLeft width s ↔ 37 ∈ s := by
  rw [padLeft, List.mem_append]
  exact or_iff_right (padding_plain _)

theorem signedDecimal_plain (x : Int) : 37 ∉ signedDecimal x := fun member =>
  (padLeft_signedDecimal 0 x).2 37 (padLeft_plain_iff.2 member) rfl

/-- The line is in front of the name, the name, and behind it. -/
theorem dumpLine_split (task : Task) : ∃ before behind, dumpLine task.record = before ++ (text task.record.comm ++ behind) ∧
    37 ∉ before ∧ 37 ∉ behind := by
  have state : 37 ∉ text task.record.state := getTaskState_plain task
  have gap : 37 ∉ bytes "    " := by decide +kernel
  refine ⟨padLeft 4 (signedDecimal task.record.pid.toInt) ++ 9 :: (padLeft 4 (signedDecimal task.record.uid.toInt32.toInt) ++
    9 :: (padLeft 4 (signedDecimal task.record.gid.toInt32.toInt) ++ 9 :: (text task.record.state ++ (bytes "    " ++
      List.replicate (15 - (text task.record.comm).length) 32)))), 9 :: (signedDecimal task.record.startTime.toInt ++ [10]),
    ?_, ?_, ?_⟩
  · simp only [dumpLine, padLeft, List.append_assoc, List.cons_append]
  · simp only [List.mem_append, List.mem_cons, padLeft_plain_iff, signedDecimal_plain, state, gap, padding_plain]
    decide
  · simp only [List.mem_append, List.mem_cons, signedDecimal_plain]
    decide

/-- Only the name can bring one into the line. -/
theorem dumpLine_percent_iff (task : Task) : 37 ∈ dumpLine task.record ↔ 37 ∈ text task.record.comm := by
  obtain ⟨before, behind, line, plain, plain'⟩ := dumpLine_split task
  rw [line, List.mem_append, List.mem_append]
  exact (or_iff_right plain).trans (or_iff_left plain')

/-- **Which names cannot alter the dump**: those without `'%'`. -/
theorem shows_line_iff {dumps : DumpList} {i : Nat} {task : Task} (recorded : dumps[i]? = some (some task.record)) :
    ShowsLine dumps i task.record ↔ 37 ∉ text task.record.comm := by
  have format := taskDumpSeqLog_record recorded
  have shown : ∀ unpassed, taskDumpSeqShow (withoutArguments unpassed) (some dumps) (i + 1) =
      expand unpassed (dumpLine task.record) := by
    intro unpassed
    rw [taskDumpSeqShow_eq, format]
    rfl
  have logged : ∀ unpassed, taskDumpSeqPrintLog (withoutArguments unpassed) (some dumps) (i + 1) =
      some (expand unpassed (dumpLine task.record)) := by
    intro unpassed
    rw [taskDumpSeqPrintLog, format]
    rfl
  rw [← dumpLine_percent_iff, ← expand_eq_self_iff]
  constructor
  · intro shows unpassed
    rw [← shown]
    exact shows.file unpassed
  · intro same
    exact ⟨fun unpassed => by rw [shown, same], fun unpassed => by rw [logged, same]⟩

/-- A name whose `'%'`s are all doubled is altered whatever stands there. -/
theorem doubled_altered {dumps : DumpList} {i : Nat} {task : Task} (recorded : dumps[i]? = some (some task.record))
    (doubled : Doubled (text task.record.comm)) (member : 37 ∈ text task.record.comm) (unpassed : List Byte → List Byte) :
    taskDumpSeqShow (withoutArguments unpassed) (some dumps) (i + 1) ≠ dumpLine task.record := by
  obtain ⟨before, behind, line, plain, plain'⟩ := dumpLine_split task
  have whole : Doubled (dumpLine task.record) := by
    rw [line]
    exact (Doubled.of_plain plain).append (doubled.append (.of_plain plain'))
  rw [taskDumpSeqShow_eq, taskDumpSeqLog_record recorded]
  exact whole.expand_ne unpassed ((dumpLine_percent_iff task).2 member)

/-- A process with a name. -/
def namedTask (name : String) : Task := ⟨4021, 1000, 1000, 0, bytes name, 12, 0⟩

theorem shows_line_sshd : ShowsLine [some (namedTask "sshd").record] 0 (namedTask "sshd").record :=
  (shows_line_iff rfl).2 (by decide +kernel)

/-- The name `rm%%` is shown as `rm%`. -/
theorem shows_line_fails : ¬ ShowsLine [some (namedTask "rm%%").record] 0 (namedTask "rm%%").record := by
  intro shows
  have same := shows.file fun _ => []
  revert same
  decide +kernel

end Carbonite
