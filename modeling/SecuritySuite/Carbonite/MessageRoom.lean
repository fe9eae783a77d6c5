import SecuritySuite.Carbonite.RemoteLog

/-!
# Room for a message

`remote_udp_log` assembles a message from four texts in a buffer on its stack. What is left is reduced by the whole
length after each of them, so that the first text is counted four times, and the name of the host has a limit of
its own. Which lengths still give a whole message, and which of the calls stay inside the buffer.
-/

namespace Carbonite
set_option autoImplicit false
open CString

/-- A call of `snprintf` or `vsnprintf`: where it writes, and the size it is given. -/
structure SizedCall where
  position : Nat
  size : Int
deriving DecidableEq

/-- The size is positive, and that much of the buffer is left. -/
def SizedCall.Inside (call : SizedCall) : Prop := 0 < call.size ∧ call.position + call.size ≤ bufferSize + 1

/-- A text, and the size that its call is given. -/
structure Part where
  size : Assembly → Int
  formatted : List Byte

/-- `" kernel: " MODULE_NAME ": "`. -/
def kernelTag : List Byte := bytes " kernel: " ++ moduleName ++ bytes ": "

def messageParts (around : LogSurroundings) (message : List Byte) : List Part :=
  [⟨Assembly.remaining, around.timestamp⟩, ⟨fun _ => newUtsLen, around.nodename⟩, ⟨Assembly.remaining, kernelTag⟩,
    ⟨Assembly.remaining, message⟩]

/-- What `buffer`, `length` and `remaining` are at first. -/
def LogSurroundings.start (around : LogSurroundings) : Assembly := ⟨around.stack, 0, bufferSize⟩

/-- One part after the other, unless one does not fit. -/
def Assembly.appendAll : List Part → Assembly → Option Assembly
  | [], a => some a
  | part :: parts, a => a.append (part.size a) part.formatted >>= appendAll parts

/-- The calls that are made. -/
def Assembly.calls : List Part → Assembly → List SizedCall
  | [], _ => []
  | part :: parts, a =>
    ⟨a.length, part.size a⟩ :: match a.append (part.size a) part.formatted with
      | none => []
      | some a' => calls parts a'

def snprintfCalls (around : LogSurroundings) (message : List Byte) : List SizedCall :=
  around.start.calls (messageParts around message)

/-- The four texts in a row. -/
def wholeMessage (around : LogSurroundings) (message : List Byte) : List Byte :=
  around.timestamp ++ around.nodename ++ kernelTag ++ message

/-- The message fits into the buffer, and there is memory for the work. -/
def Owed (around : LogSurroundings) (message : List Byte) : Prop :=
  (wholeMessage around message).length < bufferSize ∧ around.kmallocWork = true ∧ around.kmallocBuffer = true

/-- The logger has its socket and its work queue. -/
structure Logger.Ready (s : Logger) : Prop where
  sock : s.sock = true
  queue : ∃ queue ∈ s.queues.live, s.remoteLogWorkQueue = some queue

/-- A message that fits is queued whole, nothing else is queued, and no call leaves the buffer. -/
structure SendsWhole (s : Logger) (around : LogSurroundings) (message : List Byte) : Prop where
  whole : Owed around message → ∃ answer s' work, s.remoteUdpLog around message = .ok (answer, s') ∧
    s'.queued = s.queued ++ [work] ∧ work.bytes = wholeMessage around message ++ [0]
  nothing : ¬ Owed around message → ∃ answer s', s.remoteUdpLog around message = .ok (answer, s') ∧ s'.queued = s.queued
  inside : ∀ call ∈ snprintfCalls around message, call.Inside
  terminator : ∀ a, assemble around message = some a → a.length < bufferSize + 1

/-- What the four lengths have to satisfy. The first texts are counted once for each check behind them. -/
structure Roomy (around : LogSurroundings) (message : List Byte) : Prop where
  host : around.timestamp.length < bufferSize → around.timestamp.length + newUtsLen ≤ bufferSize + 1
  tag : around.timestamp.length < bufferSize → around.nodename.length < newUtsLen →
    2 * around.timestamp.length + around.nodename.length < bufferSize
  formatted : around.nodename.length < newUtsLen →
    2 * around.timestamp.length + around.nodename.length + kernelTag.length < bufferSize →
    3 * around.timestamp.length + 2 * around.nodename.length + kernelTag.length < bufferSize
  whole : Owed around message → around.nodename.length < newUtsLen ∧
    3 * around.timestamp.length + 2 * around.nodename.length + kernelTag.length + message.length < bufferSize

/-! ## One part -/

namespace Assembly

/-- What a part that fits leaves. -/
def next (a : Assembly) (part : Part) : Assembly where
  buffer := a.buffer.snprintfAt a.length (part.size a).toNat part.formatted
  length := a.length + part.formatted.length
  remaining := a.remaining - (a.length + part.formatted.length : Nat)

@[simp] theorem next_length (a : Assembly) (part : Part) : (a.next part).length = a.length + part.formatted.length := rfl

@[simp] theorem next_remaining (a : Assembly) (part : Part) :
    (a.next part).remaining = a.remaining - (a.length + part.formatted.length : Nat) := rfl

theorem append_fits {a : Assembly} {part : Part} (fits : part.formatted.length < part.size a) :
    a.append (part.size a) part.formatted = some (a.next part) := by
  have positive : ¬ part.size a < 0 := by omega
  have enough : ¬ part.size a ≤ part.formatted.length := by omega
  simp only [append, Buffer.kernelSnprintfAt, if_neg positive, if_neg enough]
  rfl

theorem append_long {a : Assembly} {part : Part} (long : ¬ part.formatted.length < part.size a) :
    a.append (part.size a) part.formatted = none := by
  cases appended : a.append (part.size a) part.formatted with
  | none => rfl
  | some a' => exact absurd (append_spec appended).1 long

theorem appendAll_cons {a : Assembly} {part : Part} (parts : List Part) :
    a.appendAll (part :: parts) = if part.formatted.length < part.size a then (a.next part).appendAll parts else none := by
  rw [appendAll]
  split
  · rename_i fits
    rw [append_fits fits]
    rfl
  · rename_i long
    rw [append_long long]
    rfl

/-- The first call is inside, and those behind it are, if there are any. -/
theorem calls_inside_cons {a : Assembly} {part : Part} (parts : List Part) :
    (∀ call ∈ a.calls (part :: parts), call.Inside) ↔ SizedCall.Inside ⟨a.length, part.size a⟩ ∧
      (part.formatted.length < part.size a → ∀ call ∈ (a.next part).calls parts, call.Inside) := by
  rw [calls, List.forall_mem_cons]
  apply and_congr_right
  intro _
  by_cases fits : part.formatted.length < part.size a
  · rw [append_fits fits]
    exact ⟨fun inside _ => inside, fun inside => inside fits⟩
  · rw [append_long fits]
    simp [fits]

/-- The buffer begins with a text of the length. -/
structure Begins (a : Assembly) (written : List Byte) : Prop where
  length : a.length = written.length
  bytes : written <+: a.buffer.bytes

/-- A part that fits is behind what was there. -/
theorem Begins.next {a : Assembly} {written formatted : List Byte} {size : Assembly → Int} (begins : a.Begins written)
    (fits : formatted.length < size a) (inside : a.length + formatted.length < bufferSize + 1) :
    (a.next ⟨size, formatted⟩).Begins (written ++ formatted) := by
  refine ⟨by simp [begins.length], ?_⟩
  have uncut : formatted.take ((size a).toNat - 1) = formatted := List.take_of_length_le (by omega)
  have front : a.buffer.bytes.take a.length = written := by
    rw [begins.length]
    exact (List.prefix_iff_eq_take.1 begins.bytes).symm
  simp only [Assembly.next, Buffer.snprintfAt, if_neg (show ¬ (size a).toNat = 0 by omega), uncut]
  rw [Buffer.store_bytes _ (by simp only [List.length_append, List.length_singleton]; omega), front]
  simp only [List.append_assoc]
  rw [← List.append_assoc]
  exact List.prefix_append _ _

/-- The copy is the text and its terminator. -/
theorem Begins.copied {a : Assembly} {written : List Byte} (begins : a.Begins written) (free : NulFree written)
    (inside : a.length < bufferSize + 1) : a.copied = written ++ [0] := by
  have front : a.buffer.bytes.take a.length = written := by
    rw [begins.length]
    exact (List.prefix_iff_eq_take.1 begins.bytes).symm
  have stored : (a.buffer.store a.length [0]).bytes = written ++ 0 :: a.buffer.bytes.drop (a.length + 1) := by
    rw [Buffer.store_bytes _ (by simp only [List.length_singleton]; omega), front]
    rfl
  rw [Assembly.copied, stored, strncpy, text_terminated free, begins.length, List.take_of_length_le (by omega),
    show written.length + 1 - written.length = 1 by omega]
  rfl

end Assembly

/-! ## Four parts -/

variable {around : LogSurroundings} {message : List Byte}

theorem assemble_eq (around : LogSurroundings) (message : List Byte) :
    assemble around message = around.start.appendAll (messageParts around message) := by
  simp only [assemble, messageParts, Assembly.appendAll, LogSurroundings.start, kernelTag]
  simp

/-- The assembly behind each of the four parts. -/
def LogSurroundings.timed (around : LogSurroundings) : Assembly := around.start.next ⟨Assembly.remaining, around.timestamp⟩

def LogSurroundings.named (around : LogSurroundings) : Assembly := around.timed.next ⟨fun _ => newUtsLen, around.nodename⟩

def LogSurroundings.tagged (around : LogSurroundings) : Assembly := around.named.next ⟨Assembly.remaining, kernelTag⟩

def LogSurroundings.finished (around : LogSurroundings) (message : List Byte) : Assembly :=
  around.tagged.next ⟨Assembly.remaining, message⟩

theorem timed_length : around.timed.length = around.timestamp.length := by
  simp [LogSurroundings.timed, LogSurroundings.start]

theorem named_length : around.named.length = around.timestamp.length + around.nodename.length := by
  simp [LogSurroundings.named, timed_length]

theorem named_remaining :
    around.named.remaining = bufferSize - (2 * around.timestamp.length + around.nodename.length : Nat) := by
  simp only [LogSurroundings.named, LogSurroundings.timed, LogSurroundings.start, Assembly.next_remaining,
    Assembly.next_length]
  omega

theorem tagged_length :
    around.tagged.length = around.timestamp.length + around.nodename.length + kernelTag.length := by
  simp [LogSurroundings.tagged, named_length]

theorem tagged_remaining : around.tagged.remaining =
    bufferSize - (3 * around.timestamp.length + 2 * around.nodename.length + kernelTag.length : Nat) := by
  simp only [LogSurroundings.tagged, Assembly.next_remaining, named_remaining, named_length]
  omega

/-- The four checks together. -/
structure Passes (around : LogSurroundings) (message : List Byte) : Prop where
  host : around.nodename.length < newUtsLen
  room : 3 * around.timestamp.length + 2 * around.nodename.length + kernelTag.length + message.length < bufferSize

theorem appendAll_parts : around.start.appendAll (messageParts around message) =
    if around.timestamp.length < bufferSize then
      if around.nodename.length < newUtsLen then
        if 2 * around.timestamp.length + around.nodename.length + kernelTag.length < bufferSize then
          if 3 * around.timestamp.length + 2 * around.nodename.length + kernelTag.length + message.length < bufferSize then
            some (around.finished message)
          else none
        else none
      else none
    else none := by
  have first : (around.timestamp.length : Int) < around.start.remaining ↔ around.timestamp.length < bufferSize := by
    simp only [LogSurroundings.start]
    omega
  have third : (kernelTag.length : Int) < around.named.remaining ↔
      2 * around.timestamp.length + around.nodename.length + kernelTag.length < bufferSize := by
    rw [named_remaining]
    omega
  have fourth : (message.length : Int) < around.tagged.remaining ↔
      3 * around.timestamp.length + 2 * around.nodename.length + kernelTag.length + message.length < bufferSize := by
    rw [tagged_remaining]
    omega
  rw [messageParts, Assembly.appendAll_cons, Assembly.appendAll_cons, Assembly.appendAll_cons, Assembly.appendAll_cons]
  exact if_congr first (if_congr Int.ofNat_lt (if_congr third (if_congr fourth rfl rfl) rfl) rfl) rfl

theorem assemble_passes (passes : Passes around message) : assemble around message = some (around.finished message) := by
  obtain ⟨host, room⟩ := passes
  rw [assemble_eq, appendAll_parts, if_pos (by omega), if_pos host, if_pos (by omega), if_pos room]

theorem assemble_stops (stops : ¬ Passes around message) : assemble around message = none := by
  rw [assemble_eq, appendAll_parts]
  by_cases host : around.nodename.length < newUtsLen
  · have room : ¬ 3 * around.timestamp.length + 2 * around.nodename.length + kernelTag.length + message.length < bufferSize :=
      fun room => stops ⟨host, room⟩
    rw [if_neg room, ite_self, ite_self, ite_self]
  · rw [if_neg host, ite_self]

/-- Which calls leave the buffer depends on the lengths of the texts in front of them. -/
theorem snprintfCalls_inside : (∀ call ∈ snprintfCalls around message, call.Inside) ↔
    (around.timestamp.length < bufferSize → around.timestamp.length + newUtsLen ≤ bufferSize + 1 ∧
      (around.nodename.length < newUtsLen → 2 * around.timestamp.length + around.nodename.length < bufferSize ∧
        (2 * around.timestamp.length + around.nodename.length + kernelTag.length < bufferSize →
          3 * around.timestamp.length + 2 * around.nodename.length + kernelTag.length < bufferSize))) := by
  have first : SizedCall.Inside ⟨around.start.length, around.start.remaining⟩ := by
    simp only [SizedCall.Inside, LogSurroundings.start, bufferSize]
    omega
  have second : SizedCall.Inside ⟨around.timed.length, newUtsLen⟩ ↔
      around.timestamp.length + newUtsLen ≤ bufferSize + 1 := by
    simp only [SizedCall.Inside, timed_length, bufferSize, newUtsLen]
    omega
  have third : SizedCall.Inside ⟨around.named.length, around.named.remaining⟩ ↔
      2 * around.timestamp.length + around.nodename.length < bufferSize := by
    simp only [SizedCall.Inside, named_length, named_remaining]
    omega
  have fourth : SizedCall.Inside ⟨around.tagged.length, around.tagged.remaining⟩ ↔
      3 * around.timestamp.length + 2 * around.nodename.length + kernelTag.length < bufferSize := by
    simp only [SizedCall.Inside, tagged_length, tagged_remaining]
    omega
  have timed : (around.timestamp.length : Int) < around.start.remaining ↔ around.timestamp.length < bufferSize := Int.ofNat_lt
  have named : (kernelTag.length : Int) < around.named.remaining ↔
      2 * around.timestamp.length + around.nodename.length + kernelTag.length < bufferSize := by
    rw [named_remaining]
    omega
  rw [snprintfCalls, messageParts, Assembly.calls_inside_cons, Assembly.calls_inside_cons, Assembly.calls_inside_cons,
    Assembly.calls_inside_cons]
  change _ ∧ ((around.timestamp.length : Int) < around.start.remaining →
    SizedCall.Inside ⟨around.timed.length, newUtsLen⟩ ∧ ((around.nodename.length : Int) < newUtsLen →
      SizedCall.Inside ⟨around.named.length, around.named.remaining⟩ ∧ ((kernelTag.length : Int) < around.named.remaining →
        SizedCall.Inside ⟨around.tagged.length, around.tagged.remaining⟩ ∧ _))) ↔ _
  rw [timed, second, Int.ofNat_lt, third, named, fourth]
  simp [first, Assembly.calls]

/-- What the buffer holds behind the four parts. -/
theorem finished_begins (passes : Passes around message) :
    (around.finished message).Begins (wholeMessage around message) := by
  obtain ⟨host, room⟩ := passes
  have empty : around.start.Begins [] := ⟨rfl, List.nil_prefix⟩
  have timed : around.timed.Begins ([] ++ around.timestamp) := by
    apply empty.next
    · change (around.timestamp.length : Int) < bufferSize
      omega
    · change 0 + around.timestamp.length < bufferSize + 1
      omega
  have named : around.named.Begins ([] ++ around.timestamp ++ around.nodename) := by
    apply timed.next
    · exact Int.ofNat_lt.2 host
    · rw [timed_length]
      omega
  have tagged : around.tagged.Begins ([] ++ around.timestamp ++ around.nodename ++ kernelTag) := by
    apply named.next
    · rw [named_remaining]
      omega
    · rw [named_length]
      omega
  apply tagged.next
  · rw [tagged_remaining]
    omega
  · rw [tagged_length]
    omega

theorem wholeMessage_nulFree (time : NulFree around.timestamp) (host : NulFree around.nodename) (free : NulFree message) :
    NulFree (wholeMessage around message) := by
  have tag : NulFree kernelTag := by decide +kernel
  intro b member
  simp only [wholeMessage, List.mem_append] at member
  rcases member with ((inTime | inHost) | inTag) | inMessage
  · exact time b inTime
  · exact host b inHost
  · exact tag b inTag
  · exact free b inMessage

/-! ## The whole message -/

namespace Logger

variable {s : Logger}

/-- A message that passes the checks is queued whole. -/
theorem remoteUdpLog_passes (ready : s.Ready) (passes : Passes around message) (first : around.kmallocWork = true)
    (second : around.kmallocBuffer = true) (free : NulFree (wholeMessage around message)) :
    ∃ answer s' work, s.remoteUdpLog around message = .ok (answer, s') ∧
      s'.queued = s.queued ++ [work] ∧ work.bytes = wholeMessage around message ++ [0] := by
  obtain ⟨sock, queue, live, pointer⟩ := ready
  have begins := finished_begins passes
  have inside : (around.finished message).length < bufferSize + 1 :=
    Nat.lt_succ_of_lt (assemble_length (assemble_passes passes))
  have copied := begins.copied free inside
  refine ⟨((around.finished message).length + 1 : Nat), { s with
    heap := s.heap.alloc.2.alloc.2
    pending := s.pending ++ [(queue, ⟨s.heap.next, s.heap.next + 1, (around.finished message).copied⟩)]
    queued := s.queued ++ [⟨s.heap.next, s.heap.next + 1, (around.finished message).copied⟩] }, _, ?_, rfl, copied⟩
  rw [remoteUdpLog, if_neg (by simp [sock]), assemble_passes passes]
  simp only [first, second, Bool.not_true, Bool.false_eq_true, if_false, queueWork, pointer, if_pos live]
  rfl

/-- A message that does not, or for which there is no memory, is not queued. -/
theorem remoteUdpLog_stops (ready : s.Ready)
    (stops : ¬ (Passes around message ∧ around.kmallocWork = true ∧ around.kmallocBuffer = true)) :
    ∃ answer s', s.remoteUdpLog around message = .ok (answer, s') ∧ s'.queued = s.queued := by
  rw [remoteUdpLog, if_neg (by simp [ready.sock])]
  by_cases passes : Passes around message
  case neg => exact ⟨0, s, by rw [assemble_stops passes], rfl⟩
  rw [assemble_passes passes]
  by_cases first : around.kmallocWork = true
  case neg => exact ⟨0, s, by simp [first], rfl⟩
  have second : around.kmallocBuffer = false := Bool.eq_false_iff.2 fun second => stops ⟨passes, first, second⟩
  have fresh : s.heap.alloc.2.live.Perm (s.heap.next :: s.heap.live) := by
    rw [Ledger.alloc_live]
    exact List.perm_append_singleton _ _
  obtain ⟨heap, freed, -⟩ := kfree_spec (s := { s with heap := s.heap.alloc.2 }) fresh
  refine ⟨0, { s with heap := heap }, ?_, rfl⟩
  simp only [first, second, Bool.not_true, Bool.not_false, Bool.false_eq_true, if_false, if_true]
  rw [show s.heap.alloc.1 = s.heap.next from rfl, freed]

end Logger

/-- **Which messages are sent whole**: the name of the host has less than 64 bytes, and the message still fits when
the texts in front of it are counted again for each check. -/
theorem sends_whole_iff {s : Logger} (around : LogSurroundings) (message : List Byte) (ready : s.Ready)
    (time : NulFree around.timestamp) (host : NulFree around.nodename) (free : NulFree message) :
    SendsWhole s around message ↔ Roomy around message := by
  have whole : NulFree (wholeMessage around message) := wholeMessage_nulFree time host free
  constructor
  · intro sends
    have inside := snprintfCalls_inside.1 sends.inside
    refine ⟨fun fits => (inside fits).1, fun fits short => ((inside fits).2 short).1, fun short fits =>
      ((inside (by omega)).2 short).2 fits, fun owed => ?_⟩
    by_contra long
    obtain ⟨answer, s', work, queues, more, -⟩ := sends.whole owed
    obtain ⟨answer', s'', stops, same⟩ := Logger.remoteUdpLog_stops ready fun all => long ⟨all.1.host, all.1.room⟩
    rw [stops] at queues
    cases queues
    rw [same] at more
    exact absurd more (by simp)
  · intro roomy
    refine ⟨fun owed => ?_, fun free => ?_, ?_, fun a fits => Nat.lt_succ_of_lt (assemble_length fits)⟩
    · obtain ⟨short, room⟩ := roomy.whole owed
      exact Logger.remoteUdpLog_passes ready ⟨short, room⟩ owed.2.1 owed.2.2 whole
    · apply Logger.remoteUdpLog_stops ready
      rintro ⟨passes, first, second⟩
      have := passes.room
      apply free ⟨?_, first, second⟩
      simp only [wholeMessage, List.length_append]
      omega
    · apply snprintfCalls_inside.2
      exact fun fits => ⟨roomy.host fits, fun short => ⟨roomy.tag fits short, roomy.formatted short⟩⟩

/-- A host with a name of 64 bytes. -/
def longNameSurroundings : LogSurroundings := { Logger.noonSurroundings with nodename := List.replicate newUtsLen 104 }

/-- The logger behind its initialization. -/
def readyLogger : Logger := (Logger.loaded.initLogger (some (bytes "10.0.0.1")) true true).2

theorem readyLogger_ready : readyLogger.Ready := ⟨rfl, 0, by decide, rfl⟩

theorem sends_whole_noon : SendsWhole readyLogger Logger.noonSurroundings (bytes "<6>ready") :=
  (sends_whole_iff Logger.noonSurroundings (bytes "<6>ready") readyLogger_ready (by decide +kernel) (by decide +kernel)
    (by decide +kernel)).2 ⟨by decide +kernel, by decide +kernel, by decide +kernel, fun _ => by decide +kernel⟩

/-- On that host nothing is sent. -/
theorem sends_whole_fails : ¬ SendsWhole readyLogger longNameSurroundings (bytes "<6>ready") := by
  intro sends
  obtain ⟨answer, s', work, queues, more, -⟩ := sends.whole ⟨by decide +kernel, rfl, rfl⟩
  have long : ¬ Passes longNameSurroundings (bytes "<6>ready") := fun passes => absurd passes.host (by decide +kernel)
  obtain ⟨answer', s'', stops, same⟩ := Logger.remoteUdpLog_stops readyLogger_ready fun all => long all.1
  rw [stops] at queues
  cases queues
  rw [same] at more
  exact absurd more (by simp)

end Carbonite
