import SecuritySuite.Carbonite.DumpFile

/-!
# What a reader of the dump file gets

A read that resumes at the header has a counter of its own, and a record that does not fit is shown again by the
next read. A read that resumes behind the header moves the driver's own position with each record it tries, so
the driver's position is already behind a record that does not fit, and nobody shows it again.
-/

namespace Carbonite
set_option autoImplicit false
open CString Runs

/-- The header and the records, as they are shown. -/
def dumpLines (printf : Printf) (records : List TaskDump) : List (List Byte) :=
  printf.expand dumpHeader :: records.map fun dump => printf.expand (dumpLine dump)

/-- A file of records, none of which is NULL. -/
def recordFile (printf : Printf) (capacity : Nat) (records : List TaskDump) : DumpFile where
  printf := printf
  list := some (records.map some)
  capacity := capacity

/-- One of the lines comes when the request is not met and does not fit behind those before it. -/
def Overflows (capacity request : Nat) : (count : Nat) → List (List Byte) → Prop
  | _, [] => False
  | count, line :: lines =>
    count < request ∧ (capacity ≤ count + line.length ∨ Overflows capacity request (count + line.length) lines)

instance Overflows.decidable (capacity request : Nat) : (count : Nat) → (lines : List (List Byte)) →
    Decidable (Overflows capacity request count lines)
  | _, [] => inferInstanceAs (Decidable False)
  | count, line :: lines =>
    have := Overflows.decidable capacity request (count + line.length) lines
    inferInstanceAs (Decidable (_ ∧ (_ ∨ _)))

/-- A bracket that resumes at an index behind the header passes a line that does not fit. -/
def Skips (capacity request : Nat) (lines : List (List Byte)) (index : Nat) : Prop :=
  1 ≤ index ∧ match lines.drop index with
    | [] => False
    | line :: rest => Overflows capacity request line.length rest

/-- A read has a bracket if it asks for more than what is left. -/
def Brackets (file : SeqFile) (call : ReadCall) : Prop := file.left = [] ∨ file.left.length < call.size

/-- The read resumes behind the header, and a record does not fit. -/
def Drops (capacity : Nat) (lines : List (List Byte)) (file : SeqFile) (call : ReadCall) : Prop :=
  Brackets file call ∧ Skips capacity (call.size - file.left.length) lines (DumpFile.resumed file).toNat

/-- The counter for the header cannot be allocated. -/
def Starved (file : SeqFile) (call : ReadCall) : Prop :=
  file = .opened ∧ call.kmalloc = false

/-- What is still to be delivered. -/
def remaining (lines : List (List Byte)) (file : SeqFile) : List Byte :=
  if file.left = [] then (lines.drop file.index.toNat).flatten
  else file.left ++ (lines.drop (file.index.toNat + 1)).flatten

/-! ## Lines -/

theorem dumpLines_length (printf : Printf) (records : List TaskDump) :
    (dumpLines printf records).length = records.length + 1 := by
  simp [dumpLines]

theorem front_ne_nil (printf : Printf) {b : Byte} (plain : b ≠ 37) (rest : List Byte) : printf.expand (b :: rest) ≠ [] := by
  intro nothing
  have front := printf.front [b] rest (by simpa using plain.symm)
  rw [List.singleton_append, nothing] at front
  simp at front

theorem dumpHeader_ne_nil (printf : Printf) : printf.expand dumpHeader ≠ [] := by
  have starts : dumpHeader = 32 :: dumpHeader.tail := by decide +kernel
  rw [starts]
  exact front_ne_nil printf (by decide) _

theorem padLeft_signedDecimal (width : Nat) (x : Int) :
    padLeft width (signedDecimal x) ≠ [] ∧ ∀ b ∈ padLeft width (signedDecimal x), b ≠ 37 := by
  have digits := decimal_ne_nil x.natAbs
  have plain : ∀ b ∈ decimal x.natAbs, b ≠ 37 := by
    rintro b member rfl
    have := decimal_digit member
    revert this
    decide
  constructor
  · unfold padLeft signedDecimal
    split <;> simp [digits]
  · intro b member
    rw [padLeft, List.mem_append, List.mem_replicate] at member
    rcases member with ⟨-, rfl⟩ | member
    · decide
    · unfold signedDecimal at member
      split at member
      · rcases List.mem_cons.1 member with rfl | digit
        · decide
        · exact plain b digit
      · exact plain b member

/-- A line starts with a space, a sign or a digit. -/
theorem dumpLine_front (dump : TaskDump) : ∃ b rest, dumpLine dump = b :: rest ∧ b ≠ 37 := by
  obtain ⟨nonempty, plain⟩ := padLeft_signedDecimal 4 dump.pid.toInt
  obtain ⟨b, rest, starts⟩ := List.exists_cons_of_ne_nil nonempty
  rw [dumpLine, starts]
  exact ⟨b, _, rfl, plain b (by simp [starts])⟩

theorem dumpLines_ne_nil {printf : Printf} {records : List TaskDump} {line : List Byte}
    (member : line ∈ dumpLines printf records) : line ≠ [] := by
  rw [dumpLines, List.mem_cons, List.mem_map] at member
  rcases member with rfl | ⟨dump, -, rfl⟩
  · exact dumpHeader_ne_nil printf
  · obtain ⟨b, rest, starts, plain⟩ := dumpLine_front dump
    rw [starts]
    exact front_ne_nil printf plain rest

/-- The line at a position, and nothing behind the last record. -/
theorem taskDumpSeqShow_record (printf : Printf) {records : List TaskDump} (nonempty : records ≠ []) (pos : Nat) :
    taskDumpSeqShow printf (some (records.map some)) pos = ((dumpLines printf records)[pos]?).getD [] := by
  have size : getSize (some (records.map some)) ≠ 0 := by
    simpa [getSize] using nonempty
  rw [taskDumpSeqShow]
  simp only [if_neg size]
  cases pos with
  | zero => rfl
  | succ i =>
    rw [if_neg (by omega), getTaskDump, if_pos (by omega), show (((i + 1 : Nat) : Int) - 1).toNat = i by omega, dumpLines,
      List.getElem?_cons_succ, List.getElem?_map, List.getElem?_map]
    cases records[i]? <;> rfl

theorem getSize_recordFile (printf : Printf) (capacity : Nat) (records : List TaskDump) :
    getSize (recordFile printf capacity records).list = records.length := by
  simp [recordFile, getSize]

/-- What an iterator at a position shows, where the driver's variable is at that position too if it is the
iterator. -/
theorem taskDumpSeqShow_at (printf : Printf) (capacity : Nat) {records : List TaskDump} (nonempty : records ≠ [])
    (object : Option Nat) (pos : Nat) (p : Positions) (driver : object = none → p.pos = pos) :
    taskDumpSeqShow (recordFile printf capacity records).printf (recordFile printf capacity records).list
      ((Iterator.at object pos).value p) = ((dumpLines printf records)[pos]?).getD [] := by
  have value : (Iterator.at object pos).value p = pos := by
    cases object with
    | none => exact driver rfl
    | some object => rfl
  rw [value]
  exact taskDumpSeqShow_record printf nonempty pos

/-- Where `start` finds something to show and gets its counter, an iterator stands at the index: the counter for
the header, and the driver's variable behind it. -/
theorem taskDumpSeqStart_at (printf : Printf) (capacity : Nat) {records : List TaskDump} {kmalloc : Bool} {index : Nat}
    (inside : index ≤ records.length) (fed : ¬ (index = 0 ∧ kmalloc = false)) :
    ∃ object ledger, taskDumpSeqStart (recordFile printf capacity records).list kmalloc index .empty =
      ⟨some (.at object index), index, ledger⟩ ∧ (object = none ↔ 1 ≤ index) := by
  by_cases start : index = 0
  · have allocates : kmalloc = true := by
      cases kmalloc with
      | true => rfl
      | false => exact absurd ⟨start, rfl⟩ fed
    refine ⟨some 0, Ledger.empty.alloc.2, ?_, by simp [start]⟩
    rw [taskDumpSeqStart, if_pos (by omega), if_pos allocates]
    rfl
  · refine ⟨none, .empty, ?_, iff_of_true rfl (Nat.pos_of_ne_zero start)⟩
    rw [taskDumpSeqStart, if_neg (by omega), getSize_recordFile, if_neg (by omega)]
    rfl

/-! ## The loop -/

/-- One round of the loop. -/
theorem fill_step (printf : Printf) (capacity : Nat) {records : List TaskDump} (nonempty : records ≠ [])
    (request fuel : Nat) (object : Option Nat) (pos : Nat) (buf : List Byte) :
    (recordFile printf capacity records).fill request (fuel + 1) (.at object pos) pos buf =
      if buf.length < request ∧ pos ≤ records.length + 1 then
        let line := ((dumpLines printf records)[pos + 1]?).getD []
        if buf.length + line.length < capacity then
          (recordFile printf capacity records).fill request fuel (.at object ((pos + 1 : Nat) : Int)) ((pos + 1 : Nat) : Int)
            (buf ++ line)
        else .ok ((if object.isSome then pos else pos + 1 : Nat), buf)
      else .ok (pos, buf) := by
  rw [DumpFile.fill, taskDumpSeqNext_at, getSize_recordFile]
  by_cases met : buf.length < request
  case neg => rw [if_neg met, if_neg (by tauto)]
  by_cases behind : pos ≤ records.length + 1
  case neg => rw [if_pos met, if_pos (show (records.length : Int) + 1 < pos by omega), if_neg (by tauto)]
  rw [if_pos met, if_neg (show ¬ (records.length : Int) + 1 < pos by omega),
    if_pos (show buf.length < request ∧ pos ≤ records.length + 1 from ⟨met, behind⟩)]
  have line := taskDumpSeqShow_at printf capacity nonempty object (pos + 1)
    ⟨if object.isSome = true then (pos : Int) else pos + 1, pos + 1⟩ (by rintro rfl; rfl)
  rw [Nat.cast_succ] at line
  simp only [line]
  cases object <;> rfl

/-- A line that does not fit is looked at by the loop. -/
theorem Overflows.runs (printf : Printf) {capacity request length pos : Nat} {records : List TaskDump}
    (overflows : Overflows capacity request length ((dumpLines printf records).drop (pos + 1))) :
    length < request ∧ pos ≤ records.length + 1 := by
  cases lines : (dumpLines printf records).drop (pos + 1) with
  | nil => simp [lines, Overflows] at overflows
  | cons line lines' =>
    rw [lines, Overflows] at overflows
    have size := dumpLines_length printf records
    have inside := congrArg List.length lines
    rw [List.length_drop, List.length_cons] at inside
    exact ⟨overflows.1, by omega⟩

/-- What the loop does from a position on: it takes lines up to one that does not fit, and where the iterator is
the driver's variable, the position has passed that one too. -/
theorem fill_spec (printf : Printf) {capacity : Nat} {records : List TaskDump} (nonempty : records ≠ [])
    (request : Nat) (object : Option Nat) (fuel pos : Nat) (buf : List Byte)
    (enough : records.length + 3 ≤ pos + fuel) (more : 0 < fuel) (short : buf.length < capacity) :
    ∃ (pos' : Nat) (taken rest : List (List Byte)),
      (recordFile printf capacity records).fill request fuel (.at object pos) pos buf = .ok (pos', buf ++ taken.flatten) ∧
      (dumpLines printf records).drop (pos + 1) = taken ++ rest ∧
      (¬ (object = none ∧ Overflows capacity request buf.length ((dumpLines printf records).drop (pos + 1))) →
        (dumpLines printf records).drop (pos' + 1) = rest) ∧
      (object = none ∧ Overflows capacity request buf.length ((dumpLines printf records).drop (pos + 1)) →
        ∃ line, rest = line :: (dumpLines printf records).drop (pos' + 1)) := by
  have length := dumpLines_length printf records
  induction fuel generalizing pos buf with
  | zero => omega
  | succ fuel ih =>
    rw [fill_step printf capacity nonempty]
    by_cases runs : buf.length < request ∧ pos ≤ records.length + 1
    case neg =>
      rw [if_neg runs]
      exact ⟨pos, [], _, by simp, rfl, fun _ => rfl, fun lost => absurd (lost.2.runs printf) runs⟩
    rw [if_pos runs]
    cases at_pos : (dumpLines printf records)[pos + 1]? with
    | none =>
      -- Behind the last record nothing is shown, and the position moves on.
      have behind := List.getElem?_eq_none_iff.1 at_pos
      obtain ⟨pos', taken, rest, filled, split, kept, lost⟩ := ih (pos + 1) buf (by omega) (by omega) short
      have nothing : (dumpLines printf records).drop (pos + 1) = [] := List.drop_eq_nil_of_le (by omega)
      have nothing' : (dumpLines printf records).drop (pos + 1 + 1) = [] := List.drop_eq_nil_of_le (by omega)
      rw [nothing'] at split kept lost
      rw [nothing]
      refine ⟨pos', taken, rest, ?_, split, kept, lost⟩
      simp only [Option.getD_none, List.length_nil, Nat.add_zero, if_pos short, List.append_nil]
      exact filled
    | some line =>
      have here : (dumpLines printf records).drop (pos + 1) = line :: (dumpLines printf records).drop (pos + 1 + 1) := by
        obtain ⟨inside, rfl⟩ := List.getElem?_eq_some_iff.1 at_pos
        exact List.drop_eq_getElem_cons inside
      rw [Option.getD_some, here]
      by_cases fits : buf.length + line.length < capacity
      · obtain ⟨pos', taken, rest, filled, split, kept, lost⟩ := ih (pos + 1) (buf ++ line) (by omega) (by omega)
          (by rw [List.length_append]; exact fits)
        have same : Overflows capacity request buf.length (line :: (dumpLines printf records).drop (pos + 1 + 1)) ↔
            Overflows capacity request (buf ++ line).length ((dumpLines printf records).drop (pos + 1 + 1)) := by
          rw [Overflows, List.length_append, and_iff_right runs.1, or_iff_right (by omega)]
        rw [same]
        refine ⟨pos', line :: taken, rest, ?_, by rw [split]; rfl, kept, lost⟩
        simp only [if_pos fits, filled]
        simp
      · have full : Overflows capacity request buf.length (line :: (dumpLines printf records).drop (pos + 1 + 1)) :=
          ⟨runs.1, .inl (by omega)⟩
        simp only [if_neg fits]
        refine ⟨if object.isSome then pos else pos + 1, [], _, by simp, rfl, ?_, ?_⟩
        · intro own
          obtain ⟨counter, rfl⟩ := Option.ne_none_iff_exists'.1 fun none => own ⟨none, full⟩
          exact here
        · intro lost
          obtain ⟨rfl, -⟩ := lost
          exact ⟨line, rfl⟩

/-! ## Reads -/

/-- A record that shows something is the first line. -/
theorem firstLine_shown (f : DumpFile) (fuel : Nat) {iterator : Iterator} {pos : Int} {line : List Byte}
    (shown : taskDumpSeqShow f.printf f.list (iterator.value ⟨pos, pos⟩) = line) (nonempty : line ≠ []) :
    f.firstLine (fuel + 1) iterator pos = .ok (.shown iterator pos line) := by
  rw [DumpFile.firstLine]
  simp only [shown, if_neg nonempty]

/-- The bracket that resumes at an index delivers or keeps what is shown from there on, unless it skips a
record. -/
structure Delivers (capacity : Nat) (lines : List (List Byte)) (request : Nat) (kmalloc : Bool) (index : Nat)
    (delivered : List Byte) (file : SeqFile) : Prop where
  nonneg : 0 ≤ file.index
  whole : ¬ Skips capacity request lines index → delivered ++ remaining lines file = (lines.drop index).flatten
  lost : Skips capacity request lines index →
    (delivered ++ remaining lines file).length < (lines.drop index).flatten.length
  nothing : 0 < request → delivered = [] → lines.drop index = [] ∨ index = 0 ∧ kmalloc = false

theorem saved_nonneg (left : List Byte) (pos : Nat) : (0 : Int) ≤ if left = [] then (pos : Int) + 1 else pos := by
  split
  · exact Int.natCast_nonneg (pos + 1)
  · exact Int.natCast_nonneg pos

/-- What is left of the buffer, and then the lines from the next position on. -/
theorem remaining_behind (lines : List (List Byte)) (pos : Nat) (left : List Byte) :
    remaining lines ⟨if left = [] then (pos : Int) + 1 else pos, left⟩ = left ++ (lines.drop (pos + 1)).flatten := by
  unfold remaining
  by_cases empty : left = []
  · simp only [if_pos empty]
    rw [empty, List.nil_append, show ((pos : Int) + 1).toNat = pos + 1 by omega]
  · simp only [if_neg empty, Int.toNat_natCast]

/-- An iterator stands at the line with the index. -/
theorem bracketRead_started (printf : Printf) {capacity : Nat} {records : List TaskDump} (nonempty : records ≠ [])
    (holds : ∀ line ∈ dumpLines printf records, line.length < capacity) (request : Nat) {kmalloc : Bool} {index : Nat}
    (behind : ¬ records.length < index) (starved : ¬ (index = 0 ∧ kmalloc = false)) :
    ∃ delivered file, (recordFile printf capacity records).bracketRead request kmalloc index = .ok (delivered, file) ∧
      Delivers capacity (dumpLines printf records) request kmalloc index delivered file := by
  have length := dumpLines_length printf records
  have inside : index < (dumpLines printf records).length := by omega
  obtain ⟨object, ledger, started, header⟩ := taskDumpSeqStart_at printf capacity (Nat.not_lt.1 behind) starved
  have here := List.drop_eq_getElem_cons inside
  have first := taskDumpSeqShow_at printf capacity nonempty object index ⟨index, index⟩ fun _ => rfl
  rw [List.getElem?_eq_getElem inside, Option.getD_some] at first
  obtain ⟨pos, taken, rest, filled, split, kept, lost⟩ := fill_spec printf nonempty request object (records.length + 3) index
    (dumpLines printf records)[index] (by omega) (by omega) (holds _ (List.getElem_mem inside))
  have skips : Skips capacity request (dumpLines printf records) index ↔
      object = none ∧ Overflows capacity request (dumpLines printf records)[index].length
        ((dumpLines printf records).drop (index + 1)) := by
    rw [Skips, header, here]
  have result : (recordFile printf capacity records).bracketRead request kmalloc index =
      .ok (((dumpLines printf records)[index] ++ taken.flatten).take request,
        ⟨if ((dumpLines printf records)[index] ++ taken.flatten).drop request = [] then (pos : Int) + 1 else pos,
          ((dumpLines printf records)[index] ++ taken.flatten).drop request⟩) := by
    have starts := firstLine_shown (recordFile printf capacity records) (records.length + 2) first
      (dumpLines_ne_nil (List.getElem_mem inside))
    rw [DumpFile.bracketRead, started]
    simp only [getSize_recordFile, Int.toNat_natCast, starts, filled, bind, Except.bind]
    rfl
  have buffered : ((dumpLines printf records)[index] ++ taken.flatten).take request ++ remaining (dumpLines printf records)
      ⟨if ((dumpLines printf records)[index] ++ taken.flatten).drop request = [] then (pos : Int) + 1 else pos,
        ((dumpLines printf records)[index] ++ taken.flatten).drop request⟩ =
      (dumpLines printf records)[index] ++ taken.flatten ++ ((dumpLines printf records).drop (pos + 1)).flatten := by
    rw [remaining_behind, ← List.append_assoc, List.take_append_drop]
  refine ⟨_, _, result, ⟨?_, ?_, ?_, ?_⟩⟩
  · exact saved_nonneg _ pos
  · intro kept_all
    rw [buffered, kept (fun both => kept_all (skips.2 both)), here, List.flatten_cons, split, List.flatten_append,
      List.append_assoc]
  · intro skip
    obtain ⟨line, passed⟩ := lost (skips.1 skip)
    have member : line ∈ dumpLines printf records := by
      apply List.mem_of_mem_drop (i := index + 1)
      rw [split, passed]
      simp
    have positive := List.length_pos_iff.2 (dumpLines_ne_nil member)
    rw [buffered, here, List.flatten_cons, split, List.flatten_append, passed, List.flatten_cons]
    simp only [List.length_append]
    omega
  · intro asked empty
    have shown := dumpLines_ne_nil (List.getElem_mem inside)
    rw [List.take_eq_nil_iff, List.append_eq_nil_iff] at empty
    rcases empty with none_asked | ⟨absent, -⟩
    · omega
    · exact absurd absent shown

theorem bracketRead_spec (printf : Printf) {capacity : Nat} {records : List TaskDump} (nonempty : records ≠ [])
    (holds : ∀ line ∈ dumpLines printf records, line.length < capacity) (request : Nat) (kmalloc : Bool) (index : Nat) :
    ∃ delivered file, (recordFile printf capacity records).bracketRead request kmalloc index = .ok (delivered, file) ∧
      Delivers capacity (dumpLines printf records) request kmalloc index delivered file := by
  have length := dumpLines_length printf records
  by_cases behind : records.length < index
  · -- `start` ends the sequence.
    have nothing : (dumpLines printf records).drop index = [] := List.drop_eq_nil_of_le (by omega)
    refine ⟨[], ⟨index, []⟩, ?_, ⟨Int.natCast_nonneg _, fun _ => ?_, ?_, fun _ _ => .inl nothing⟩⟩
    · rw [DumpFile.bracketRead, taskDumpSeqStart, if_neg (by omega), getSize_recordFile, if_pos (by omega)]
    · simp [remaining]
    · intro skips
      rw [Skips, nothing] at skips
      exact skips.2.elim
  by_cases starved : index = 0 ∧ kmalloc = false
  · obtain ⟨rfl, rfl⟩ := starved
    refine ⟨[], ⟨0, []⟩, rfl, ⟨Int.le_refl 0, fun _ => ?_, fun lost => absurd lost.1 (by omega), fun _ _ => .inr ⟨rfl, rfl⟩⟩⟩
    simp [remaining]
  exact bracketRead_started printf nonempty holds request behind starved

/-- One read delivers the front of what remains, unless it drops a record. -/
structure Advances (capacity : Nat) (lines : List (List Byte)) (file : SeqFile) (call : ReadCall)
    (delivered : List Byte) (file' : SeqFile) : Prop where
  nonneg : 0 ≤ file'.index
  whole : ¬ Drops capacity lines file call → delivered ++ remaining lines file' = remaining lines file
  lost : Drops capacity lines file call → (delivered ++ remaining lines file').length < (remaining lines file).length
  ends : 0 < call.size → delivered = [] → remaining lines file = [] ∨ Starved file call

theorem seqRead_advances (printf : Printf) {capacity : Nat} {records : List TaskDump} (nonempty : records ≠ [])
    (holds : ∀ line ∈ dumpLines printf records, line.length < capacity) {file : SeqFile} (nonneg : 0 ≤ file.index)
    (call : ReadCall) :
    ∃ delivered file', (recordFile printf capacity records).seqRead file call = .ok (delivered, file') ∧
      Advances capacity (dumpLines printf records) file call delivered file' := by
  obtain ⟨index, left⟩ := file
  obtain ⟨index, rfl⟩ := Int.eq_ofNat_of_zero_le nonneg
  rw [DumpFile.seqRead]
  by_cases flush : left ≠ [] ∧ call.size ≤ left.length
  · -- What is left meets the request.
    have calm : ¬ Drops capacity (dumpLines printf records) ⟨index, left⟩ call := by
      intro drops
      rcases drops.1 with empty | more
      · exact flush.1 empty
      · exact absurd flush.2 (Nat.not_le.2 more)
    rw [if_pos flush]
    refine ⟨_, _, rfl, ⟨?_, fun _ => ?_, fun drops => absurd drops calm, ?_⟩⟩
    · exact saved_nonneg _ index
    · rw [remaining_behind, ← List.append_assoc, List.take_append_drop, remaining]
      simp only [if_neg flush.1, Int.toNat_natCast]
    · intro asked empty
      rcases List.take_eq_nil_iff.1 empty with none_asked | absent
      · omega
      · exact absurd absent flush.1
  · have brackets : Brackets ⟨index, left⟩ call := by
      by_cases empty : left = []
      · exact .inl empty
      · exact .inr (Nat.lt_of_not_le fun few => flush ⟨empty, few⟩)
    obtain ⟨start, resumed, before⟩ : ∃ start : Nat, DumpFile.resumed ⟨index, left⟩ = start ∧
        remaining (dumpLines printf records) ⟨index, left⟩ = left ++ ((dumpLines printf records).drop start).flatten := by
      have behind := remaining_behind (dumpLines printf records)
      by_cases empty : left = []
      · exact ⟨index, if_pos empty, by simp [remaining, empty]⟩
      · exact ⟨index + 1, if_neg empty, by simp [remaining, empty]⟩
    obtain ⟨delivered, file', read, delivers⟩ := bracketRead_spec printf nonempty holds (call.size - left.length)
      call.kmalloc start
    have drops : Drops capacity (dumpLines printf records) ⟨index, left⟩ call ↔
        Skips capacity (call.size - left.length) (dumpLines printf records) start := by
      rw [Drops, and_iff_right brackets, resumed, Int.toNat_natCast]
    rw [if_neg flush]
    simp only [resumed, read]
    refine ⟨left ++ delivered, file', rfl, ⟨delivers.nonneg, ?_, ?_, ?_⟩⟩
    · intro calm
      rw [before, List.append_assoc, delivers.whole fun skips => calm (drops.2 skips)]
    · intro dropped
      have fewer := delivers.lost (drops.1 dropped)
      rw [before, List.append_assoc]
      simp only [List.length_append] at fewer ⊢
      omega
    · intro asked empty
      obtain ⟨rfl, nothing⟩ := List.append_eq_nil_iff.1 empty
      rcases delivers.nothing (by simpa using asked) nothing with last | ⟨rfl, fails⟩
      · exact .inl (by rw [before, last]; rfl)
      · rw [DumpFile.resumed, if_pos rfl] at resumed
        obtain rfl : index = 0 := Int.ofNat.inj resumed
        exact .inr ⟨rfl, fails⟩

/-! ## Runs of reads -/

/-- No read drops a record. -/
def Complete (printf : Printf) (capacity : Nat) (records : List TaskDump) (calls : List ReadCall) : Prop :=
  Along (recordFile printf capacity records).seqRead
    (fun file call => ¬ Drops capacity (dumpLines printf records) file call) calls .opened

theorem length_le_of_lost {p : Prop} {x y : List Byte} (whole : p → x = y) (lost : ¬ p → x.length < y.length) :
    x.length ≤ y.length := by
  by_cases holds : p
  · exact (congrArg List.length (whole holds)).le
  · exact (lost holds).le

/-- What was delivered and what remains are the file together, unless a read dropped a record. -/
theorem delivered_of_run (printf : Printf) {capacity : Nat} {records : List TaskDump} (nonempty : records ≠ [])
    (holds : ∀ line ∈ dumpLines printf records, line.length < capacity) (calls : List ReadCall) :
    ∃ answers file, run (recordFile printf capacity records).seqRead calls .opened = .ok (answers, file) ∧ 0 ≤ file.index ∧
      (Complete printf capacity records calls →
        answers.flatten ++ remaining (dumpLines printf records) file = (dumpLines printf records).flatten) ∧
      (¬ Complete printf capacity records calls →
        (answers.flatten ++ remaining (dumpLines printf records) file).length < (dumpLines printf records).flatten.length) := by
  induction calls using List.reverseRecOn with
  | nil => exact ⟨[], .opened, rfl, Int.le_refl 0, fun _ => rfl, fun drops => absurd trivial drops⟩
  | append_singleton calls call ih =>
    obtain ⟨answers, file, before, nonneg, whole, lost⟩ := ih
    obtain ⟨delivered, file', read, advances⟩ := seqRead_advances printf nonempty holds nonneg call
    have complete : Complete printf capacity records (calls ++ [call]) ↔
        Complete printf capacity records calls ∧ ¬ Drops capacity (dumpLines printf records) file call :=
      along_snoc ⟨answers, before⟩
    refine ⟨answers ++ [delivered], file', run_snoc.2 ⟨answers, file, delivered, before, read, rfl⟩, advances.nonneg, ?_, ?_⟩
    · intro all
      obtain ⟨calm, last⟩ := complete.1 all
      rw [List.flatten_append, List.flatten_singleton, List.append_assoc, advances.whole last, whole calm]
    · intro drops
      have bound := length_le_of_lost whole lost
      rw [List.flatten_append, List.flatten_singleton, List.append_assoc]
      by_cases last : Drops capacity (dumpLines printf records) file call
      · have fewer := advances.lost last
        simp only [List.length_append] at bound fewer ⊢
        omega
      · rw [advances.whole last]
        exact lost fun calm => drops (complete.2 ⟨calm, last⟩)

/-- **What the reads up to the end of the file deliver**: the header and every record once, in order, exactly when
no read that resumes behind the header drops a record and the counter of the header was allocated. The reads
before the end deliver no more than the file has, so a reader gets to the end. -/
theorem reads_every_record_iff (printf : Printf) {capacity : Nat} {records : List TaskDump} (nonempty : records ≠ [])
    (holds : ∀ line ∈ dumpLines printf records, line.length < capacity) (calls : List ReadCall) :
    ∃ answers file, run (recordFile printf capacity records).seqRead calls .opened = .ok (answers, file) ∧
      answers.flatten.length ≤ (dumpLines printf records).flatten.length ∧
      ∀ (last : ReadCall) file', 0 < last.size → (recordFile printf capacity records).seqRead file last = .ok ([], file') →
        (answers.flatten = (dumpLines printf records).flatten ↔
          Complete printf capacity records calls ∧ ¬ Starved file last) := by
  obtain ⟨answers, file, ran, nonneg, whole, lost⟩ := delivered_of_run printf nonempty holds calls
  have bound := length_le_of_lost whole lost
  rw [List.length_append] at bound
  refine ⟨answers, file, ran, by omega, ?_⟩
  intro last file' asked read
  obtain ⟨delivered, file'', read', advances⟩ := seqRead_advances printf nonempty holds nonneg last
  rw [read] at read'
  cases read'
  constructor
  · intro all
    have nothing : remaining (dumpLines printf records) file = [] := by
      rw [all] at bound
      exact List.length_eq_zero_iff.1 (by omega)
    constructor
    · by_contra drops
      have fewer := lost drops
      rw [nothing, List.append_nil, all] at fewer
      exact Nat.lt_irrefl _ fewer
    · intro starved
      rw [starved.1] at nothing
      exact dumpHeader_ne_nil printf (List.append_eq_nil_iff.1 nothing).1
  · intro given
    obtain ⟨calm, fed⟩ := given
    rw [← whole calm, (advances.ends asked rfl).resolve_right fed, List.append_nil]

/-- A `seq_printf` that copies its format. -/
def plainPrintf : Printf := ⟨id, fun _ _ => rfl, fun _ _ _ => List.prefix_append _ _⟩

/-- Two records, and a reader that asks for 60 bytes at a time. -/
def twoRecords : List TaskDump := [initDump, { initDump with pid := 2, comm := bytes "sh" }]

def sixties : List ReadCall := List.replicate 3 ⟨60, true⟩

theorem sixties_run : ∃ answers file,
    run (recordFile plainPrintf 4096 twoRecords).seqRead sixties .opened = .ok (answers, file) ∧
      answers.map List.length = [60, 60, 15] ∧ answers.flatten = bytes ("  PID     UID     GID  STATE         NAME       Start Time\n" ++
        "   1\t   0\t   0\tS               init\t0\n" ++ "   2\t   0\t   0\tS                 sh\t0\n") ∧
      ∃ file', (recordFile plainPrintf 4096 twoRecords).seqRead file ⟨60, true⟩ = .ok ([], file') :=
  ⟨_, _, rfl, by decide +kernel, by decide +kernel, _, rfl⟩

/-- The end comes in the middle of the third read, and no read has dropped a record. -/
theorem reads_every_record_page : ∃ answers file,
    run (recordFile plainPrintf 4096 twoRecords).seqRead sixties .opened = .ok (answers, file) ∧
      answers.flatten = bytes ("  PID     UID     GID  STATE         NAME       Start Time\n" ++
        "   1\t   0\t   0\tS               init\t0\n" ++ "   2\t   0\t   0\tS                 sh\t0\n") ∧
      Complete plainPrintf 4096 twoRecords sixties := by
  obtain ⟨answers, file, ran, -, shown, file', last⟩ := sixties_run
  have all : answers.flatten = (dumpLines plainPrintf twoRecords).flatten := by
    rw [shown]
    decide +kernel
  have holds : ∀ line ∈ dumpLines plainPrintf twoRecords, line.length < 4096 := by decide +kernel
  have nonempty : twoRecords ≠ [] := List.cons_ne_nil _ _
  obtain ⟨answers', file₁, ran', -, whole⟩ := reads_every_record_iff plainPrintf nonempty holds sixties
  rw [ran] at ran'
  cases ran'
  exact ⟨answers, file, ran, shown, ((whole ⟨60, true⟩ file' (by decide) last).1 all).1⟩

/-- Two records and a buffer that holds one: the second one is never delivered. -/
theorem reads_every_record_fails :
    ∃ answers file file',
      run (recordFile plainPrintf 70 [initDump, initDump]).seqRead [⟨4096, true⟩, ⟨4096, true⟩] .opened = .ok (answers, file) ∧
      (recordFile plainPrintf 70 [initDump, initDump]).seqRead file ⟨4096, true⟩ = .ok ([], file') ∧
      (∀ line ∈ dumpLines plainPrintf [initDump, initDump], line.length < 70) ∧
      answers.flatten = (dumpLines plainPrintf [initDump]).flatten ∧
      answers.flatten ≠ (dumpLines plainPrintf [initDump, initDump]).flatten := by
  refine ⟨_, _, _, rfl, rfl, by decide +kernel, by decide +kernel, by decide +kernel⟩

end Carbonite
