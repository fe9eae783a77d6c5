import SecuritySuite.Netlog.InetUtils

/-!
# `connection.c`

A connection string is read by one pass of a pointer over it: the path, an ip field and a port
field, each optional delimiter stepped over where it is found. The pass is modelled statement by
statement; a `Memory` is what the pointer `ch` points at. Pointers are never `NULL` here, so the
`NULL` guards of the source are the types of the arguments.
-/

namespace Netlog
set_option autoImplicit false
open CString

def maxAbsoluteExecPath : Nat := 950

def fieldSeparator : Byte := 124

def noPort : Int := -1

/-- `struct connection`, its two arrays as the texts in them. -/
structure Connection where
  port : Int
  ip : List Byte
  executable : List Byte
deriving DecidableEq, Repr

/-- `kmalloc` may fail; a new object has empty texts and no port. -/
def initializeConnection (kmalloc : Bool) : Option Connection :=
  if kmalloc then some ⟨noPort, [], []⟩ else none

/-- `*ch != FIELD_SEPARATOR && *ch != '\0'` fails. -/
def endOfPath (ch : Byte) : Bool := ch == fieldSeparator || ch == 0

/-- `*ch != '>' && *ch != '\0' && *ch != FIELD_SEPARATOR` fails. -/
def endOfValue (ch : Byte) : Bool := ch == 62 || ch == 0 || ch == fieldSeparator

/-- The ip field, from its `'i'` on. The pointer ends one byte behind the delimiter, whichever
delimiter that is. -/
def readIp (ch : Memory) : Option (List Byte × Memory) :=
  let ipv6 := looksLikeIpv6 ch
  let value := skip 60 ch.tail
  -- the counter starts behind the opening bracket
  match copyUntil endOfValue (if ipv6 then inet6Addrstrlen - 1 else inet6Addrstrlen) value with
  | none => none
  | some (copied, ch) =>
    let ip := if ipv6 then 91 :: (copied ++ [93]) else copied
    if looksLikeValidIp ip then some (ip, ch.tail) else none

/-- The port field, from its `'p'` on. -/
def readPort (ch : Memory) : Option Int :=
  let number := upTo endOfValue (skip 60 ch.tail)
  let port := foldBackwards number.reverse 0 1
  if validPortNumber port then some port else none

/-- The optional ip field: its text and the pointer behind it. -/
def readIpField (ch : Memory) : Option (List Byte × Memory) :=
  if peek ch = 105 then readIp ch else some ([], ch)

/-- The optional port field. -/
def readPortField (ch : Memory) : Option Int :=
  if peek ch = 112 then readPort ch else some noPort

/-- Fill a new object from a string; `none` is the jump to `out_fail`. -/
def fillConnection (new : Connection) (connectionString : Memory) : Option Connection := do
  let (executable, ch) ← copyUntil endOfPath (maxAbsoluteExecPath - 1) connectionString
  let (ip, ch) ← readIpField (skip fieldSeparator ch)
  let port ← readPortField (skip fieldSeparator ch)
  return { new with executable, ip, port }

def initializeConnectionFromString (kmalloc : Bool) (connectionString : Memory) : Option Connection := do
  let new ← initializeConnection kmalloc
  fillConnection new connectionString

/-- An empty text and `NO_PORT` stand for a missing ip and a missing port, on either side. -/
def connectionMatchesAttributes (connection : Connection) (path ip : List Byte) (port : Int) : Bool :=
  if strncmp maxAbsoluteExecPath connection.executable path ≠ 0 then false
  else if connection.ip ≠ [] ∧ ip ≠ [] ∧ strncmp (inet6Addrstrlen + 2) connection.ip ip ≠ 0 then false
  else if connection.port ≠ noPort ∧ port ≠ noPort ∧ connection.port ≠ port then false
  else true

def connectionsAreEqual (connection1 connection2 : Connection) : Bool :=
  connectionMatchesAttributes connection1 connection2.executable connection2.ip connection2.port

end Netlog
