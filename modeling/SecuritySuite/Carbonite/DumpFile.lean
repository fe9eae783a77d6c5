import SecuritySuite.Carbonite.DumpIterator
import SecuritySuite.Foundation.Numeral
import SecuritySuite.Foundation.Runs

/-!
# Reading the dump file

`task_dump_seq_show`, and the driver that calls the iterator of the dump file for each read. The line at
position 0 is the header, and the line at position `i + 1` is that of record `i`. What `stop` frees plays no
part in what is read.
-/

namespace Carbonite
set_option autoImplicit false
open CString

/-- What `seq_printf` writes for a format without arguments. A text in front of the first `'%'` is copied. -/
structure Printf where
  expand : List Byte → List Byte
  plain : ∀ format, 37 ∉ format → expand format = format
  front : ∀ format rest, 37 ∉ format → format <+: expand (format ++ rest)

/-- `%4d` and `%15s` fill up with spaces on the left. -/
def padLeft (width : Nat) (s : List Byte) : List Byte := List.replicate (width - s.length) 32 ++ s

/-- `%d` and `%lld`. -/
def signedDecimal (x : Int) : List Byte :=
  if x < 0 then 45 :: decimal x.natAbs else decimal x.natAbs

theorem signedDecimal_character {x : Int} {b : Byte} (member : b ∈ signedDecimal x) : b = 45 ∨ 48 ≤ b ∧ b ≤ 57 := by
  unfold signedDecimal at member
  split at member
  · rcases List.mem_cons.1 member with rfl | digit
    · exact .inl rfl
    · exact .inr (decimal_digit digit)
  · exact .inr (decimal_digit member)

theorem signedDecimal_injective {x y : Int} (same : signedDecimal x = signedDecimal y) : x = y := by
  have starts : ∀ n : Nat, ∀ rest : List Byte, decimal n ≠ 45 :: rest := by
    intro n rest equal
    have digit := decimal_digit (n := n) (b := 45) (by rw [equal]; exact List.mem_cons_self)
    exact absurd digit.1 (by decide)
  unfold signedDecimal at same
  split at same <;> split at same
  · rw [List.cons.injEq] at same
    have := decimal_injective same.2
    omega
  · exact absurd same.symm (starts _ _)
  · exact absurd same (starts _ _)
  · have := decimal_injective same
    omega

def dumpHeader : List Byte := bytes "  PID     UID     GID  STATE         NAME       Start Time\n"

/-- `"%4d\t%4d\t%4d\t%s    %15s\t%lld\n"`. -/
def dumpLine (dump : TaskDump) : List Byte :=
  padLeft 4 (signedDecimal dump.pid.toInt) ++ 9 :: (padLeft 4 (signedDecimal dump.uid.toInt32.toInt) ++
    9 :: (padLeft 4 (signedDecimal dump.gid.toInt32.toInt) ++ 9 :: (text dump.state ++ (bytes "    " ++
      (padLeft 15 (text dump.comm) ++ 9 :: (signedDecimal dump.startTime.toInt ++ [10]))))))

/-- The text that is added to the file at a position. It also goes to `print_log`, which the reader does not see. -/
def taskDumpSeqShow (printf : Printf) (list : Option DumpList) (spos : Int) : List Byte :=
  match list with
  | none => []
  | some dumps =>
    if getSize list = 0 then []
    else if spos = 0 then printf.expand dumpHeader
    else match getTaskDump dumps (spos - 1) with
      | none => []
      | some dump => printf.expand (dumpLine dump)

/-! ## The driver -/

/-- What the driver keeps between reads: the saved index, and what is left of the last record. -/
structure SeqFile where
  index : Int
  left : List Byte
deriving DecidableEq

/-- A file that has just been opened. -/
def SeqFile.opened : SeqFile := ⟨0, []⟩

/-- A read of up to `size` bytes, and whether an allocation in it succeeds. -/
structure ReadCall where
  size : Nat
  kmalloc : Bool

inductive ReadFault where
  /-- The driver calls `next` more often than there are positions. -/
  | endless
deriving DecidableEq, Repr

/-- The file, apart from its state. -/
structure DumpFile where
  printf : Printf
  list : Option DumpList
  /-- The size of the driver's buffer. -/
  capacity : Nat

/-- The counter behind an iterator. -/
def Iterator.value (iterator : Iterator) (p : Positions) : Int :=
  match iterator with
  | .allocated _ position => position
  | .driverPosition => p.pos

namespace DumpFile

variable (f : DumpFile)

/-- What a bracket has when it has looked for its first line. -/
inductive First where
  | shown (iterator : Iterator) (pos : Int) (line : List Byte)
  /-- There is no line, and this is the index that is saved. -/
  | ended (index : Int)

/-- The first record that shows something. Past one that shows nothing, `next` gets the driver's own position. -/
def firstLine : (fuel : Nat) → Iterator → (pos : Int) → Except ReadFault First
  | 0, _, _ => .error .endless
  | fuel + 1, iterator, pos =>
    let line := taskDumpSeqShow f.printf f.list (iterator.value ⟨pos, pos⟩)
    if line = [] then
      match taskDumpSeqNext f.list iterator ⟨pos, pos⟩ with
      | (none, p) => .ok (.ended p.next)
      | (some iterator, p) => firstLine fuel iterator p.next
    else .ok (.shown iterator pos line)

/-- More records, until the request is met or there is no record that fits. -/
def fill (request : Nat) : (fuel : Nat) → Iterator → (pos : Int) → (buf : List Byte) → Except ReadFault (Int × List Byte)
  | 0, _, _, _ => .error .endless
  | fuel + 1, iterator, pos, buf =>
    if buf.length < request then
      match taskDumpSeqNext f.list iterator ⟨pos, pos⟩ with
      | (none, p) => .ok (p.pos, buf)
      | (some iterator, p) =>
        let line := taskDumpSeqShow f.printf f.list (iterator.value p)
        if buf.length + line.length < f.capacity then fill request fuel iterator p.next (buf ++ line)
        else .ok (p.pos, buf)
    else .ok (pos, buf)

/-- Where a read resumes: the saved index, or the next one when what is left has been flushed. -/
def resumed (file : SeqFile) : Int := if file.left = [] then file.index else file.index + 1

/-- The bracket of a read. -/
def bracketRead (request : Nat) (kmalloc : Bool) (index : Int) : Except ReadFault (List Byte × SeqFile) :=
  let started := taskDumpSeqStart f.list kmalloc index .empty
  match started.iterator with
  | none => .ok ([], ⟨index, []⟩)
  | some iterator => do
    match ← f.firstLine ((getSize f.list).toNat + 3) iterator started.pos with
    | .ended index => return ([], ⟨index, []⟩)
    | .shown iterator pos first =>
      let (pos, buf) ← f.fill request ((getSize f.list).toNat + 3) iterator pos first
      let left := buf.drop request
      return (buf.take request, ⟨if left = [] then pos + 1 else pos, left⟩)

/-- One read: the bytes it delivers, and the state behind it. -/
def seqRead (file : SeqFile) (call : ReadCall) : Except ReadFault (List Byte × SeqFile) :=
  if file.left ≠ [] ∧ call.size ≤ file.left.length then
    let left := file.left.drop call.size
    .ok (file.left.take call.size, ⟨if left = [] then file.index + 1 else file.index, left⟩)
  else do
    let (delivered, file') ← f.bracketRead (call.size - file.left.length) call.kmalloc (resumed file)
    return (file.left ++ delivered, file')

end DumpFile

end Carbonite
