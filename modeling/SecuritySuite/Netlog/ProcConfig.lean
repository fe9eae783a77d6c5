import SecuritySuite.Foundation.Buffer
import SecuritySuite.Foundation.Runs
import SecuritySuite.Netlog.Whitelist

/-!
# `proc_config.c`

The configuration file of netlog: the text in `procfs_buffer` and the white list, kept in step by
`whitelist`, `procfile_write` and `procfile_read`. An access outside an array has no defined outcome,
so it ends the run (`Violation`).
-/

namespace Netlog
set_option autoImplicit false
open CString

def procfsMaxSize : Nat := 4096

def maxNewConnectionSize : Nat := 512

def enospc : Int := 28

def efault : Int := 14

def createProcFailed : Int := 5

/-- The statics of `whitelist.c` and `proc_config.c`. `size` is the length of `whiteList`. -/
structure ProcConfig where
  whiteList : List Connection
  procfsBuffer : Buffer procfsMaxSize
  procfsBufferSize : Nat
deriving DecidableEq

inductive Violation where
  /-- An index outside `procfs_buffer` or `temp_procfs_buffer`. -/
  | index
  /-- A copy longer than `new_connection_string`. -/
  | copy
  /-- A subtraction of unsigned numbers below zero, for an index or a size. -/
  | wrap
deriving DecidableEq, Repr

def check (violation : Violation) (ok : Prop) [Decidable ok] : Except Violation Unit :=
  if ok then .ok () else .error violation

/-- A value stored in an `unsigned long`. -/
def ulong (x : Int) : Nat := (x % 2 ^ 64).toNat

/-- At module load. -/
def initialProcConfig : ProcConfig := ⟨[], .zero procfsMaxSize, 0⟩

/-- `snprintf` returns the untruncated length, so the size can get larger than the buffer. What is left is negative then,
and `snprintf` does nothing: a count is an `int`, so the size is one. -/
def addConnectionStringToProcConfig (connectionString : List Byte) (st : ProcConfig) : ProcConfig :=
  let (written, procfsBuffer) := st.procfsBuffer.kernelSnprintfAt st.procfsBufferSize
    ((procfsMaxSize : Int) - st.procfsBufferSize) (connectionString ++ [44])
  { st with procfsBuffer, procfsBufferSize := ulong (st.procfsBufferSize + written) }

def initializeProcfsBuffer (st : ProcConfig) : ProcConfig :=
  { st with procfsBuffer := .zero procfsMaxSize, procfsBufferSize := 0 }

def destroyWhitelist (st : ProcConfig) : ProcConfig := { st with whiteList := [] }

/-- `whitelist` with its last step, the update of the proc buffer. -/
def whitelistConfig (kmalloc : Bool) (connectionString : Memory) (st : ProcConfig) : Int × ProcConfig :=
  let (code, whiteList) := whitelist kmalloc connectionString st.whiteList
  if code = whitelisted then (code, addConnectionStringToProcConfig (text connectionString) { st with whiteList })
  else (code, st)

/-- The loop of `update_whitelist` over the bytes of `temp_procfs_buffer` from index `i` on, with `whitelist` as `call` on
a state of any type. Each call has its own outcome of `kmalloc`; `newConnectionString` is the memory from that array on. -/
def updateLoop {σ ε : Type} (lift : Violation → ε) (call : Bool → Memory → σ → Except ε (Int × σ)) (temp : List Byte) :
    List Byte → (kmalloc : Nat → Bool) → (start connectionStringLength : Nat) →
    (newConnectionString : Memory) → σ → Except ε σ
  | [], _, _, _, _, _ => .error (lift .index)
  | b :: rest, kmalloc, start, connectionStringLength, newConnectionString, st =>
    if b = 44 ∨ b = 0 then
      let connectionStringLength := connectionStringLength + 1
      if connectionStringLength ≤ maxNewConnectionSize then do
        let copied := (temp.drop start).take connectionStringLength
        let newConnectionString :=
          (copied ++ newConnectionString.drop connectionStringLength).set (connectionStringLength - 1) 0
        let (_, st) ← call (kmalloc 0) newConnectionString st
        if b = 0 then return st
        else
          let start := start + connectionStringLength
          updateLoop lift call temp rest (fun i => kmalloc (i + 1)) start 0 newConnectionString st
      else .error (lift .copy)
    else updateLoop lift call temp rest kmalloc start (connectionStringLength + 1) newConnectionString st

/-- A call of `whitelist` as one that can fail. -/
def whitelistCall (kmalloc : Bool) (connectionString : Memory) (st : ProcConfig) : Except Violation (Int × ProcConfig) :=
  .ok (whitelistConfig kmalloc connectionString st)

/-- `stack` is what `new_connection_string` and the memory behind it hold at entry. -/
def updateWhitelistWith (call : Bool → Memory → ProcConfig → Except Violation (Int × ProcConfig)) (kmalloc : Nat → Bool)
    (stack : Memory) (st : ProcConfig) : Except Violation ProcConfig :=
  let temp := st.procfsBuffer.bytes
  updateLoop id call temp temp kmalloc 0 0 stack (destroyWhitelist (initializeProcfsBuffer st))

def updateWhitelist : (kmalloc : Nat → Bool) → (stack : Memory) → ProcConfig → Except Violation ProcConfig :=
  updateWhitelistWith whitelistCall

/-- The return value of `procfile_read`, and the text it leaves in the buffer it is given. -/
structure ReadResult where
  written : Nat
  buffer : List Byte
deriving DecidableEq

/-- Trim the last comma, if it exists. -/
def trimLastComma (st : ProcConfig) : ProcConfig :=
  if st.procfsBuffer.get (st.procfsBufferSize - 1) = 44 then
    { st with
      procfsBuffer := st.procfsBuffer.store (st.procfsBufferSize - 1) [0]
      procfsBufferSize := st.procfsBufferSize - 1 }
  else st

def procfileRead (offset bufferLength : Int) (st : ProcConfig) : Except Violation (ReadResult × ProcConfig) :=
  if 0 < offset then return (⟨0, []⟩, st)
  else if ulong bufferLength < st.procfsBufferSize then return (⟨0, []⟩, st)
  else do
    check .wrap (1 ≤ st.procfsBufferSize)
    check .index (st.procfsBufferSize - 1 < procfsMaxSize)
    let st := trimLastComma st
    -- the text is read up to its terminator
    check .index (0 ∈ st.procfsBuffer.bytes)
    let line := st.procfsBuffer.contents ++ [10]
    return (⟨line.length, snprintf (ulong bufferLength) line⟩, st)

/-- A write of the bytes `buffer`, of which `readable` can be read. When not all of them can,
some kernels fill the rest of the destination with zeros (`padded`). -/
structure WriteCall where
  buffer : List Byte
  readable : Nat
  padded : Bool
  kmalloc : Nat → Bool
  stack : Memory

/-- The number of bytes left to copy, and the bytes stored in the destination. -/
def copyFromUser (w : WriteCall) : Nat × List Byte :=
  let copied := w.buffer.take w.readable
  let left := w.buffer.length - copied.length
  (left, copied ++ if w.padded then List.replicate left 0 else [])

def procfileWriteWith (call : Bool → Memory → ProcConfig → Except Violation (Int × ProcConfig)) (w : WriteCall)
    (st : ProcConfig) : Except Violation (Int × ProcConfig) :=
  let st := { st with procfsBufferSize := w.buffer.length }
  if procfsMaxSize ≤ st.procfsBufferSize then return (-enospc, st)
  else
    let (left, copied) := copyFromUser w
    let st := { st with procfsBuffer := st.procfsBuffer.store 0 copied }
    if left ≠ 0 then return (-efault, st)
    else do
      check .wrap (1 ≤ st.procfsBufferSize)
      let st := { st with procfsBuffer := st.procfsBuffer.store (st.procfsBufferSize - 1) [0] }
      let st ← updateWhitelistWith call w.kmalloc w.stack st
      return (w.buffer.length, st)

def procfileWrite : WriteCall → ProcConfig → Except Violation (Int × ProcConfig) := procfileWriteWith whitelistCall

/-- `create_proc_entry` may fail. -/
def createProcConfig (entry : Bool) (st : ProcConfig) : Int × ProcConfig :=
  if entry then (0, initializeProcfsBuffer st) else (-createProcFailed, st)

/-- The operations of the configuration, with what their environment decides. -/
inductive Op where
  | createProcConfig (entry : Bool)
  /-- A call with a string and the memory behind its terminator. -/
  | whitelist (kmalloc : Bool) (connectionString behind : List Byte)
  | procfileRead (offset bufferLength : Int)
  | procfileWrite (w : WriteCall)
  | isWhitelisted (task : Option TaskStruct) (ip : List Byte) (port : Int)

inductive Answer where
  | code (value : Int)
  | read (result : ReadResult)
deriving DecidableEq

def step (st : ProcConfig) : Op → Except Violation (Answer × ProcConfig)
  | .createProcConfig entry => let (code, st) := createProcConfig entry st; .ok (.code code, st)
  | .whitelist kmalloc connectionString behind =>
    let (code, st) := whitelistConfig kmalloc (connectionString ++ 0 :: behind) st
    .ok (.code code, st)
  | .procfileRead offset bufferLength => do
    let (result, st) ← procfileRead offset bufferLength st
    return (.read result, st)
  | .procfileWrite w => do
    let (code, st) ← procfileWrite w st
    return (.code code, st)
  | .isWhitelisted task ip port => .ok (.code (isWhitelisted task ip port st.whiteList), st)

end Netlog
