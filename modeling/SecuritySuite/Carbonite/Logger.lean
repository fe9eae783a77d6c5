import SecuritySuite.Carbonite.Dispatch
import SecuritySuite.Foundation.Buffer
import SecuritySuite.Foundation.Ledger

/-!
# `logger.c`

`print_log` cannot send in atomic context, so it queues works, and a worker sends their messages. Three statics
say whether that happens: `log_remote`, `sock` and `remote_log_work_queue`. The address of the messages is left
out.
-/

namespace Carbonite
set_option autoImplicit false
open CString

def bufferSize : Nat := 1920

/-- `__NEW_UTS_LEN`. -/
def newUtsLen : Nat := 64

/-! ## The message -/

/-- `buffer`, `length` and `remaining` of `remote_udp_log`. -/
structure Assembly where
  buffer : Buffer (bufferSize + 1)
  length : Nat
  remaining : Int

/-- One `snprintf` with its check: nothing if it does not fit. What is left is reduced by the whole length, not by what
was written. -/
def Assembly.append (a : Assembly) (size : Int) (formatted : List Byte) : Option Assembly :=
  let (bytesWritten, buffer) := a.buffer.kernelSnprintfAt a.length size formatted
  if size ≤ bytesWritten then none
  else
    let length := a.length + bytesWritten
    some ⟨buffer, length, a.remaining - length⟩

/-- What `vprintk` makes of a format and its arguments, and what `vsnprintf` makes of the same format behind it. Both get
one `va_list`, so `vsnprintf` finds the arguments behind those that `vprintk` has used. -/
structure Message where
  printed : List Byte
  remote : List Byte
deriving DecidableEq

/-- A format without arguments. -/
def Message.plain (text : List Byte) : Message := ⟨text, text⟩

@[simp] theorem Message.plain_printed (text : List Byte) : (Message.plain text).printed = text := rfl

@[simp] theorem Message.plain_remote (text : List Byte) : (Message.plain text).remote = text := rfl

/-- What a call finds: the text of the time, the name of the host, what the stack held, and what the kernel's functions
return. -/
structure LogSurroundings where
  timestamp : List Byte
  nodename : List Byte
  stack : Buffer (bufferSize + 1)
  /-- By the text that is printed. -/
  vprintk : List Byte → Int
  kmallocWork : Bool
  kmallocBuffer : Bool

/-- The four parts of the message, unless they are too long. -/
def assemble (around : LogSurroundings) (message : List Byte) : Option Assembly := do
  let start : Assembly := ⟨around.stack, 0, bufferSize⟩
  let timed ← start.append start.remaining around.timestamp
  let named ← timed.append newUtsLen around.nodename
  let tagged ← named.append named.remaining (bytes " kernel: " ++ moduleName ++ bytes ": ")
  tagged.append tagged.remaining message

/-- The bytes that are copied into the buffer of the work, with `'\0'` behind the message. -/
def Assembly.copied (a : Assembly) : List Byte :=
  strncpy (a.length + 1) (a.buffer.store a.length [0]).bytes

/-! ## Works -/

/-- The object of a work, that of its buffer, and what is in the buffer. -/
structure RemoteLogWork where
  object : Nat
  buffer : Nat
  bytes : List Byte
deriving DecidableEq

/-- A call of `sock_sendmsg`. -/
structure SentMessage where
  work : RemoteLogWork
  payload : List Byte
deriving DecidableEq

/-- The statics, what the kernel holds for the module, and what has been queued and sent so far. -/
structure Logger where
  logRemote : Bool
  /-- `sock` is not NULL. -/
  sock : Bool
  remoteLogWorkQueue : Option Nat
  /-- The work queues that were created, and those that were destroyed. -/
  queues : Ledger
  heap : Ledger
  pending : List (Nat × RemoteLogWork)
  queued : List RemoteLogWork
  sent : List SentMessage

/-- The statics are zero when the module is loaded. -/
def Logger.loaded : Logger := ⟨false, false, none, .empty, .empty, [], [], []⟩

inductive LoggerFault where
  /-- `queue_work` with a pointer that is no work queue. -/
  | queueWork
  /-- `destroy_workqueue` of a work queue that has been destroyed. -/
  | destroyWorkqueue
  /-- `kfree` of an object that is not live. -/
  | badFree
  /-- The step is not one that can come next. -/
  | outOfTurn
deriving DecidableEq, Repr

namespace Logger

def kfree (s : Logger) (object : Nat) : Except LoggerFault Logger :=
  match s.heap.free object with
  | .error _ => .error .badFree
  | .ok heap => .ok { s with heap := heap }

/-- A socket that is there has its `sk`. -/
def ksocketSend (s : Logger) (work : RemoteLogWork) : Except LoggerFault Logger :=
  if s.sock then
    let payload := (text work.bytes).take bufferSize
    match kfree { s with sent := s.sent ++ [⟨work, payload⟩] } work.buffer with
    | .error fault => .error fault
    | .ok s' => s'.kfree work.object
  else .ok s

def queueWork (s : Logger) (work : RemoteLogWork) : Except LoggerFault Logger :=
  match s.remoteLogWorkQueue with
  | none => .error .queueWork
  | some queue =>
    if queue ∈ s.queues.live then
      .ok { s with pending := s.pending ++ [(queue, work)], queued := s.queued ++ [work] }
    else .error .queueWork

def remoteUdpLog (s : Logger) (around : LogSurroundings) (message : List Byte) : Except LoggerFault (Int × Logger) :=
  if !s.sock then .ok (-1, s)
  else match assemble around message with
  | none => .ok (0, s)
  | some assembled =>
    if !around.kmallocWork then .ok (0, s)
    else
      let work := s.heap.alloc
      if !around.kmallocBuffer then
        match kfree { s with heap := work.2 } work.1 with
        | .error fault => .error fault
        | .ok s' => .ok (0, s')
      else
        let buffer := work.2.alloc
        match queueWork { s with heap := buffer.2 } ⟨work.1, buffer.1, assembled.copied⟩ with
        | .error fault => .error fault
        | .ok s' => .ok ((assembled.length + 1 : Nat), s')

/-- A NULL format is `none`. -/
def printLog (s : Logger) (around : LogSurroundings) (message : Option Message) : Except LoggerFault (Int × Logger) :=
  match message with
  | none => .ok (-1, s)
  | some message =>
    let bytes := around.vprintk message.printed
    if s.logRemote then
      match s.remoteUdpLog around message.remote with
      | .error fault => .error fault
      | .ok r => .ok (bytes, r.2)
    else .ok (bytes, s)

/-- `socket` and `workqueue` say whether the kernel creates them. Where the work queue is not created, the
socket and `log_remote` stay. -/
def initLogger (s : Logger) (ip : Option (List Byte)) (socket workqueue : Bool) : Int × Logger :=
  if s.sock then (0, s)
  else match ip with
  | none => (1, s)
  | some _ =>
    if !socket then (0, { s with logRemote := true, sock := false })
    else if !workqueue then (0, { s with logRemote := true, sock := true, remoteLogWorkQueue := none })
    else (1, { s with
      logRemote := true, sock := true, remoteLogWorkQueue := some s.queues.alloc.1, queues := s.queues.alloc.2 })

/-- Works run one after the other. -/
def sendAll : List RemoteLogWork → Logger → Except LoggerFault Logger
  | [], s => .ok s
  | work :: works, s =>
    match s.ksocketSend work with
    | .error fault => .error fault
    | .ok s' => sendAll works s'

/-- The pending works of the queue run first. -/
def destroyWorkqueue (s : Logger) (queue : Nat) : Except LoggerFault Logger :=
  let works := (s.pending.filter fun entry => entry.1 = queue).map Prod.snd
  match sendAll works { s with pending := s.pending.filter fun entry => entry.1 ≠ queue } with
  | .error fault => .error fault
  | .ok s' =>
    match s'.queues.free queue with
    | .error _ => .error .destroyWorkqueue
    | .ok queues => .ok { s' with queues := queues }

/-- The socket is released before the pending works run. -/
def destroyLogger (s : Logger) : Except LoggerFault Logger :=
  let released := { s with sock := false }
  match s.remoteLogWorkQueue with
  | none => .ok released
  | some queue => released.destroyWorkqueue queue

end Logger

end Carbonite
