import SecuritySuite.Carbonite.DumpFormat
import SecuritySuite.Carbonite.GrowingDump
import SecuritySuite.Carbonite.SnapshotLog
import SecuritySuite.Foundation.Framing

/-!
# What the dump file tells

A line of the dump file has fields without delimiters of their own, and the name of a process is one of them. Names go
up to the width of their column, so a line is still read in one way, apart from blanks at the beginning of a name.
Two readers that missed nothing have the same bytes exactly if the same has been dumped (`read_back_iff`).
-/

namespace Carbonite.Following
set_option autoImplicit false
open CString Runs

/-- What a line shows of a record: of the name, not the blanks at its beginning. -/
def look (dump : TaskDump) : TaskDump :=
  { dump with state := text dump.state, comm := (text dump.comm).dropWhile (· == 32) }

/-- A process with a name that ends in its `comm`, and in which there is no conversion. -/
structure Named (task : Task) : Prop where
  ends : (text task.comm).length < taskCommLen
  plain : 37 ∉ text task.comm

/-- The calls of `carbonite` in a run. -/
def snapshots (ops : List Op) : List DispatchCall :=
  ops.filterMap fun op =>
    match op with
    | .carbonite why processes => some ⟨why, processes⟩
    | .read _ => none

/-- The processes that a run has dumped. -/
def dumped (ops : List Op) : List Task := logged none (snapshots ops)

/-- A reader that opens the file when the module has been loaded, misses nothing and comes to the end. -/
structure Reading (printf : Printf) (capacity : Nat) (ops : List Op) (answers : List (List Byte)) (s : State) : Prop where
  ran : run (step printf capacity) ops (opened noReason []) = .ok (answers, s)
  named : ∀ task ∈ dumped ops, Named task
  header : dumpHeader.length < capacity
  fits : ∀ op ∈ ops, Fits printf capacity op
  lossless : Along (step printf capacity) (fun s op => ¬ Loses printf capacity s op) ops (opened noReason [])
  done : ∃ last s', 0 < last.size ∧ step printf capacity s (.read last) = .ok ([], s') ∧ ¬ Starved s.file last

/-! ## Fields -/

theorem dropWhile_padLeft (width : Nat) (s : List Byte) : (padLeft width s).dropWhile (· == 32) = s.dropWhile (· == 32) := by
  rw [padLeft]
  induction width - s.length with
  | zero => rfl
  | succ n ih => simp [List.replicate_succ, ih]

/-- Blanks at the beginning of a text are those of the column. -/
theorem padLeft_dropWhile {width : Nat} {s : List Byte} (fits : s.length ≤ width) :
    padLeft width s = padLeft width (s.dropWhile (· == 32)) := by
  obtain ⟨n, split⟩ : ∃ n, s = List.replicate n 32 ++ s.dropWhile (· == 32) := by
    refine ⟨(s.takeWhile (· == 32)).length, ?_⟩
    have blanks : s.takeWhile (· == 32) = List.replicate (s.takeWhile (· == 32)).length 32 :=
      List.eq_replicate_of_mem fun b member => beq_iff_eq.1 (List.mem_takeWhile_imp (p := fun b : Byte => b == 32) member)
    rw [← blanks, List.takeWhile_append_dropWhile]
  have lengths := congrArg List.length split
  rw [List.length_append, List.length_replicate] at lengths
  conv_lhs => rw [split]
  rw [padLeft, padLeft, ← List.append_assoc, List.replicate_append_replicate, List.length_append, List.length_replicate]
  congr 2
  omega

theorem padLeft_length {width : Nat} {s : List Byte} (fits : s.length ≤ width) : (padLeft width s).length = width := by
  rw [padLeft, List.length_append, List.length_replicate]
  omega

theorem signedDecimal_ne {c : Byte} (other : c = 9 ∨ c = 10 ∨ c = 32) (x : Int) : c ∉ signedDecimal x := by
  intro member
  have character := signedDecimal_character member
  rcases other with rfl | rfl | rfl <;> revert character <;> decide

theorem signedDecimal_dropWhile (x : Int) : (signedDecimal x).dropWhile (· == 32) = signedDecimal x := by
  apply List.dropWhile_eq_self_iff.2
  intro positive blank
  apply signedDecimal_ne (.inr (.inr rfl)) x
  rw [← beq_iff_eq.1 blank]
  exact List.getElem_mem positive

/-- A number in its column, and the tab behind it. -/
theorem column_reads {a b : Int} {x y : List Byte}
    (same : padLeft 4 (signedDecimal a) ++ 9 :: x = padLeft 4 (signedDecimal b) ++ 9 :: y) : a = b ∧ x = y := by
  have tab : ∀ n : Int, 9 ∉ padLeft 4 (signedDecimal n) := by
    intro n member
    rw [padLeft, List.mem_append, List.mem_replicate] at member
    rcases member with ⟨-, blank⟩ | inside
    · exact absurd blank (by decide)
    · exact signedDecimal_ne (.inl rfl) n inside
  obtain ⟨columns, rest⟩ := Framing.first_separator (tab a) (tab b) same
  have numbers := congrArg (List.dropWhile (· == 32)) columns
  rw [dropWhile_padLeft, dropWhile_padLeft, signedDecimal_dropWhile, signedDecimal_dropWhile] at numbers
  exact ⟨signedDecimal_injective numbers, rest⟩

theorem state_ne_blank (task : Task) : 32 ∉ text (getTaskState task) := by
  have table : ∀ n, 32 ∉ bytes (taskStateArray.getD n "") := by
    intro n
    match n with
    | 0 | 1 | 2 | 3 | 4 | 5 => decide +kernel
    | n + 6 => simp [taskStateArray, bytes]
  intro member
  rw [getTaskState, text_strncpy] at member
  exact table _ (List.takeWhile_subset _ (List.mem_of_mem_take member))

/-- A record whose state and name do not leave their columns. -/
structure Clear (dump : TaskDump) : Prop where
  state : 32 ∉ text dump.state
  column : (text dump.comm).length ≤ 15

theorem Named.comm {task : Task} (named : Named task) : text task.record.comm = text task.comm := by
  have short := named.ends
  show text (strncpy taskCommLen task.comm) = text task.comm
  rw [text_strncpy, List.take_of_length_le (Nat.le_of_lt short)]

theorem Named.clear {task : Task} (named : Named task) : Clear task.record where
  state := state_ne_blank task
  column := by
    have short := named.ends
    rw [named.comm]
    exact Nat.le_of_lt_succ short

/-! ## Lines -/

theorem toInt32_injective {a b : UInt32} (same : a.toInt32.toInt = b.toInt32.toInt) : a = b := by
  have signed := Int32.toInt_inj.1 same
  rw [← UInt32.toUInt32_toInt32 a, signed, UInt32.toUInt32_toInt32]

/-- A line shows what it holds, and where it ends. -/
theorem dumpLine_reads {dump dump' : TaskDump} (clear_ : Clear dump) (clear' : Clear dump') {x y : List Byte}
    (same : dumpLine dump ++ x = dumpLine dump' ++ y) : look dump = look dump' ∧ x = y := by
  have gap : bytes "    " = 32 :: bytes "   " := by decide
  simp only [dumpLine, List.append_assoc, List.cons_append] at same
  obtain ⟨pid, same⟩ := column_reads same
  obtain ⟨uid, same⟩ := column_reads same
  obtain ⟨gid, same⟩ := column_reads same
  rw [gap, List.cons_append, List.cons_append] at same
  obtain ⟨state, same⟩ := Framing.first_separator clear_.state clear'.state same
  rw [List.append_cancel_left_eq] at same
  obtain ⟨name, same⟩ := List.append_inj same (by rw [padLeft_length clear_.column, padLeft_length clear'.column])
  obtain ⟨-, same⟩ := List.cons.inj same
  obtain ⟨time, rest⟩ := Framing.first_separator (signedDecimal_ne (.inr (.inl rfl)) _) (signedDecimal_ne (.inr (.inl rfl)) _)
    same
  have comm := congrArg (List.dropWhile (· == 32)) name
  rw [dropWhile_padLeft, dropWhile_padLeft] at comm
  refine ⟨?_, rest⟩
  rw [look, look, TaskDump.mk.injEq]
  exact ⟨Int32.toInt_inj.1 pid, toInt32_injective uid, toInt32_injective gid, state, comm,
    Int64.toInt_inj.1 (signedDecimal_injective time)⟩

/-- Records with the same look have the same line. -/
theorem dumpLine_of_look {dump dump' : TaskDump} (clear_ : Clear dump) (clear' : Clear dump')
    (same : look dump = look dump') : dumpLine dump = dumpLine dump' := by
  rw [look, look, TaskDump.mk.injEq] at same
  obtain ⟨pid, uid, gid, state, comm, time⟩ := same
  have column : padLeft 15 (text dump.comm) = padLeft 15 (text dump'.comm) := by
    rw [padLeft_dropWhile clear_.column, padLeft_dropWhile clear'.column, comm]
  rw [dumpLine, dumpLine, pid, uid, gid, state, column, time]

/-- Without a conversion in a name, a line is shown as it is. -/
theorem expand_dumpLine (printf : Printf) {task : Task} (named : Named task) :
    printf.expand (dumpLine task.record) = dumpLine task.record := by
  apply printf.plain
  rw [dumpLine_percent_iff, named.comm]
  exact named.plain

theorem header_plain : 37 ∉ dumpHeader := by decide +kernel

/-- The text of the file. -/
theorem shown_flatten (printf : Printf) {tasks : List Task} (named : ∀ task ∈ tasks, Named task) :
    (shown printf (tasks.map Task.record)).flatten =
      if tasks = [] then [] else dumpHeader ++ tasks.flatMap fun task => dumpLine task.record := by
  by_cases none_yet : tasks = []
  · simp [none_yet, shown]
  · rw [shown, if_neg (by simpa using none_yet), if_neg none_yet, dumpLines, List.map_map, List.flatten_cons,
      printf.plain _ header_plain, List.flatMap_def]
    congr 2
    exact List.map_congr_left fun task member => expand_dumpLine printf (named task member)

/-- The lines tell how each process looks. -/
theorem looks_of_lines {tasks tasks' : List Task} (named : ∀ task ∈ tasks, Named task)
    (named' : ∀ task ∈ tasks', Named task)
    (lines : (tasks.flatMap fun task => dumpLine task.record) = tasks'.flatMap fun task => dumpLine task.record) :
    tasks.map (look ·.record) = tasks'.map (look ·.record) := by
  refine Framing.map_eq_of_flatMap_eq (fun first second => dumpLine_reads first.clear second.clear) ?_ named named' lines
  intro task nothing
  obtain ⟨b, rest, starts, -⟩ := dumpLine_front task.record
  rw [starts] at nothing
  cases nothing

theorem lines_of_looks {tasks tasks' : List Task} (named : ∀ task ∈ tasks, Named task)
    (named' : ∀ task ∈ tasks', Named task) (looks : tasks.map (look ·.record) = tasks'.map (look ·.record)) :
    (tasks.map fun task => dumpLine task.record) = tasks'.map fun task => dumpLine task.record := by
  apply List.ext_getElem (by simpa using congrArg List.length looks)
  intro i here here'
  have at_i := List.getElem_of_eq looks (i := i) (by simpa using here)
  simp only [List.getElem_map] at at_i ⊢
  exact dumpLine_of_look (named _ (List.getElem_mem _)).clear (named' _ (List.getElem_mem _)).clear at_i

theorem shown_flatten_eq_iff (printf printf' : Printf) {tasks tasks' : List Task} (named : ∀ task ∈ tasks, Named task)
    (named' : ∀ task ∈ tasks', Named task) :
    (shown printf (tasks.map Task.record)).flatten = (shown printf' (tasks'.map Task.record)).flatten ↔
      tasks.map (look ·.record) = tasks'.map (look ·.record) := by
  have header : dumpHeader ≠ [] := by decide +kernel
  rw [shown_flatten printf named, shown_flatten printf' named']
  constructor
  · intro same
    apply looks_of_lines named named'
    -- Without processes there is no header either, so the file tells whether something has been dumped.
    by_cases first : tasks = [] <;> by_cases second : tasks' = []
    · rw [first, second]
    · rw [if_pos first, if_neg second] at same
      exact absurd (List.append_eq_nil_iff.1 same.symm).1 header
    · rw [if_neg first, if_pos second] at same
      exact absurd (List.append_eq_nil_iff.1 same).1 header
    · rw [if_neg first, if_neg second] at same
      exact List.append_cancel_left same
  · intro looks
    have empty : tasks = [] ↔ tasks' = [] := by
      rw [← List.map_eq_nil_iff (f := (look ·.record)), looks, List.map_eq_nil_iff]
    simp only [List.flatMap_def, lines_of_looks named named' looks, empty]

/-! ## Runs -/

theorem snapshots_snoc (ops : List Op) (op : Op) : snapshots (ops ++ [op]) = snapshots ops ++ snapshots [op] :=
  List.filterMap_append ..

/-- What `carbonite` keeps after a run. -/
structure Kept (ops : List Op) (s : State) : Prop where
  list : s.kept.dumpList = some (records (dumped ops))
  reason : s.kept.previousReason = ((snapshots ops).getLast?.map DispatchCall.why).getD noReason

theorem kept_of_run {printf : Printf} {capacity : Nat} {ops : List Op} {answers : List (List Byte)} {s : State}
    (ran : run (step printf capacity) ops (opened noReason []) = .ok (answers, s)) : Kept ops s := by
  refine history_of_run (fun ops _ s => Kept ops s) ⟨rfl, rfl⟩ ?_ ran
  intro ops answers s op answer s' before kept next
  cases op with
  | read call =>
    have same : s'.kept = s.kept := by
      rw [step] at next
      split at next
      · cases next
      · cases next
        rfl
    have none_new : snapshots (ops ++ [.read call]) = snapshots ops := by
      rw [snapshots_snoc]
      exact List.append_nil _
    exact ⟨by rw [same, dumped, none_new]; exact kept.list, by rw [same, none_new]; exact kept.reason⟩
  | carbonite why processes =>
    cases next
    have new : snapshots (ops ++ [.carbonite why processes]) = snapshots ops ++ [⟨why, processes⟩] := snapshots_snoc ..
    have out : LeftOut s why ↔ Carbonite.LeftOut ((snapshots ops).getLast?.map DispatchCall.why) ⟨why, processes⟩ := by
      rw [LeftOut, Carbonite.LeftOut, kept.reason, and_comm]
      cases (snapshots ops).getLast?.map DispatchCall.why with
      | none => simp [noReason, afterModuleInit]
      | some previous => simp
    refine ⟨?_, ?_⟩
    · rw [dumped, new, logged_snoc, Option.or_none, Carbonite.carbonite]
      by_cases leftOut : s.kept.previousReason = afterModuleInit ∧ why = afterIncident
      · rw [if_pos leftOut, if_pos (out.1 leftOut), List.append_nil]
        exact kept.list
      · rw [if_neg leftOut, if_neg fun given => leftOut (out.2 given), kept.list, forEachProcess_succeeds]
        simp [records, dumped]
    · rw [new, List.getLast?_concat, Carbonite.carbonite]
      split <;> rfl

/-- A reader that misses nothing gets the lines of what has been dumped. -/
theorem Reading.whole {printf : Printf} {capacity : Nat} {ops : List Op} {answers : List (List Byte)} {s : State}
    (reading : Reading printf capacity ops answers s) :
    answers.flatten = (shown printf ((dumped ops).map Task.record)).flatten := by
  have holds : ∀ line ∈ dumpLines printf [], line.length < capacity := by
    intro line member
    rw [dumpLines, List.map_nil, List.mem_singleton] at member
    rw [member, printf.plain _ header_plain]
    exact reading.header
  obtain ⟨answers', s', ran, recorded, whole⟩ := run_delivers printf noReason holds reading.fits
  rw [reading.ran] at ran
  cases ran
  obtain ⟨last, s₁, asked, nothing, fed⟩ := reading.done
  obtain ⟨delivered, s₂, next, -, -, ends⟩ := read_step recorded last
  rw [nothing] at next
  cases next
  have all := whole.2 reading.lossless
  rw [(ends asked rfl).resolve_right fed, List.append_nil] at all
  have list : s.records = (dumped ops).map Task.record := by
    have split : records (dumped ops) = ((dumped ops).map Task.record).map some := by simp [records]
    rw [State.records, (kept_of_run reading.ran).list, Option.getD_some, split, records_map]
  rw [all, State.shown, list]

/-- **What the dump file tells**: two readers that missed nothing got the same bytes exactly if the processes that had
been dumped look the same, one after the other. -/
theorem read_back_iff {printf printf' : Printf} {capacity capacity' : Nat} {ops ops' : List Op}
    {answers answers' : List (List Byte)} {s s' : State} (reading : Reading printf capacity ops answers s)
    (reading' : Reading printf' capacity' ops' answers' s') :
    answers.flatten = answers'.flatten ↔ (dumped ops).map (look ·.record) = (dumped ops').map (look ·.record) := by
  rw [reading.whole, reading'.whole]
  exact shown_flatten_eq_iff printf printf' reading.named reading'.named

/-- A process is dumped, and the file is read. -/
def dumpAndRead (name : String) : List Op := [.carbonite onDemand [namedTask name], .read ⟨4096, true⟩]

theorem dumpAndRead_lossless (name : String) :
    Along (step plainPrintf 4096) (fun s op => ¬ Loses plainPrintf 4096 s op) (dumpAndRead name) (opened noReason []) := by
  refine ⟨fun loses => absurd loses.2.2 (by decide), fun _ _ next => ⟨?_, fun _ _ _ => trivial⟩⟩
  cases next
  exact fun drops => Nat.not_succ_le_zero 0 drops.2.1

theorem dumpAndRead_reading {name : String} (named : Named (namedTask name))
    (fits : (plainPrintf.expand (dumpLine (namedTask name).record)).length < 4096)
    (ends : (run (step plainPrintf 4096) (dumpAndRead name ++ [.read ⟨4096, true⟩]) (opened noReason [])).toOption.map
      (·.1.getLast?) = some (some [])) : ∃ answers s, Reading plainPrintf 4096 (dumpAndRead name) answers s := by
  cases ran : run (step plainPrintf 4096) (dumpAndRead name ++ [.read ⟨4096, true⟩]) (opened noReason []) with
  | error fault =>
    rw [ran] at ends
    cases ends
  | ok r =>
    obtain ⟨all, s'⟩ := r
    rw [ran] at ends
    obtain ⟨answers, s, last, before, next, rfl⟩ := run_snoc.1 ran
    obtain rfl : last = [] := by simpa [Except.toOption] using ends
    refine ⟨answers, s, before, ?_, by decide +kernel, ?_, dumpAndRead_lossless name, ⟨4096, true⟩, s', by decide, next,
      fun starved => Bool.noConfusion starved.2⟩
    · intro task member
      obtain rfl : task = namedTask name := by simpa [dumped, snapshots, dumpAndRead, logged, Carbonite.LeftOut] using member
      exact named
    · intro op member
      simp only [dumpAndRead, List.mem_cons, List.not_mem_nil, or_false] at member
      rcases member with rfl | rfl
      · intro task process
        rw [List.mem_singleton.1 process]
        exact fits
      · trivial

/-- A blank in front of a name is not seen. -/
theorem read_back_iff_blank : ∃ answers s answers' s', Reading plainPrintf 4096 (dumpAndRead "sh") answers s ∧
    Reading plainPrintf 4096 (dumpAndRead " sh") answers' s' ∧ answers.flatten = answers'.flatten := by
  obtain ⟨answers, s, first⟩ := @dumpAndRead_reading "sh" ⟨by decide +kernel, by decide +kernel⟩ (by decide +kernel)
    (by decide +kernel)
  obtain ⟨answers', s', second⟩ := @dumpAndRead_reading " sh" ⟨by decide +kernel, by decide +kernel⟩ (by decide +kernel)
    (by decide +kernel)
  exact ⟨answers, s, answers', s', first, second, (read_back_iff first second).2 (by decide +kernel)⟩

end Carbonite.Following
