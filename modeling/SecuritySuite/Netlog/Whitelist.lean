import SecuritySuite.Netlog.Matching

/-!
# `whitelist.c`

`white_list` and `size` as one list, its length never above the size of the array. `whitelist` is
followed up to the point where the entry is stored; that it then appends the string to the proc
buffer is part of the proc configuration.
-/

namespace Netlog
set_option autoImplicit false
open CString

def maxWhitelistSize : Nat := 150

def whitelistFail : Int := -1

def whitelisted : Int := 1

def notWhitelisted : Int := 0

/-- A memory area of a process: whether it is executable, and the path of its file if there is one,
`none` where `d_path` returns an error. -/
structure VmAreaStruct where
  vmExecutable : Bool
  vmFile : Option (Option (List Byte))

/-- A task, with the areas of its memory unless it has none. -/
structure TaskStruct where
  mm : Option (List VmAreaStruct)

/-- The path of the first executable area with a file. -/
def exeFromMm (mm : List VmAreaStruct) : Option (List Byte) :=
  (mm.find? fun vma => vma.vmExecutable && vma.vmFile.isSome).bind fun vma => vma.vmFile.join

/-- Store the connection a string names, unless the list is full, the string is malformed or a
stored connection equals it. -/
def whitelist (kmalloc : Bool) (connectionString : Memory) (whiteList : List Connection) :
    Int × List Connection :=
  if whiteList.length = maxWhitelistSize then (whitelistFail, whiteList)
  else match initializeConnectionFromString kmalloc connectionString with
    | none => (whitelistFail, whiteList)
    | some connection =>
      if whiteList.any (connectionsAreEqual connection) then (whitelistFail, whiteList)
      else (whitelisted, whiteList ++ [connection])

/-- Empty paths and paths that do not fit the limit are not whitelisted. -/
def isWhitelisted (task : Option TaskStruct) (ip : List Byte) (port : Int) (whiteList : List Connection) : Int :=
  match (task.bind (·.mm)).bind exeFromMm with
  | none => notWhitelisted
  | some path =>
    if path.length = 0 ∨ maxAbsoluteExecPath ≤ path.length then notWhitelisted
    else if whiteList.any (connectionMatchesAttributes · path ip port) then whitelisted
    else notWhitelisted

/-- What `is_whitelisted` asks for: a path, a non-empty ip text and a port in range. -/
structure Query where
  path : List Byte
  ip : List Byte
  port : Int
  path_free : NulFree path
  ip_free : NulFree ip
  ip_ne : ip ≠ []
  port_range : 1 ≤ port ∧ port ≤ 65535

/-- What a call of `whitelist` can do. -/
theorem whitelist_cases (kmalloc : Bool) (mem : Memory) (whiteList : List Connection) :
    whitelist kmalloc mem whiteList = (whitelistFail, whiteList) ∨
      ∃ c, initializeConnectionFromString kmalloc mem = some c ∧ whiteList.length ≠ maxWhitelistSize ∧
        whiteList.any (connectionsAreEqual c) = false ∧
        whitelist kmalloc mem whiteList = (whitelisted, whiteList ++ [c]) := by
  unfold whitelist
  by_cases full : whiteList.length = maxWhitelistSize
  · simp [full]
  cases parsed : initializeConnectionFromString kmalloc mem with
  | none => simp
  | some c =>
    cases equal : whiteList.any (connectionsAreEqual c) with
    | true => simp [equal]
    | false => exact .inr ⟨c, rfl, full, equal, by simp [full, equal]⟩

/-- The answer for a task is the scan of the list with the task's path. -/
theorem isWhitelisted_eq {task : TaskStruct} {path : List Byte} (running : task.mm.bind exeFromMm = some path)
    (nonempty : path ≠ []) (fits : path.length ≤ 949) (ip : List Byte) (port : Int)
    (whiteList : List Connection) :
    isWhitelisted (some task) ip port whiteList = whitelisted ↔
      ∃ c ∈ whiteList, connectionMatchesAttributes c path ip port = true := by
  have length : path.length ≠ 0 := fun h => nonempty (List.length_eq_zero_iff.1 h)
  rw [isWhitelisted, Option.bind_some, running]
  simp only
  rw [if_neg (by simp only [maxAbsoluteExecPath]; omega), ← List.any_eq_true]
  cases whiteList.any (connectionMatchesAttributes · path ip port) <;> simp [whitelisted, notWhitelisted]

end Netlog
