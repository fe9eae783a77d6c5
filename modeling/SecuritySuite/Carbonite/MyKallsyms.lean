import SecuritySuite.Foundation.CString

/-!
# `my-kallsyms.c`

Symbol lookups through the callback that `kallsyms_on_each_symbol` runs on one symbol after the
other. Kernels after 2.6.32 look a name up by themselves (`kallsyms_lookup_name`, a parameter here).
-/

namespace Carbonite
set_option autoImplicit false
open CString

def ksymNameLen : Nat := 128

structure Symbol where
  name : List Byte
  address : UInt64

/-- What the lookups ask the kernel. -/
structure Kernel where
  /-- In the order of the enumeration. -/
  symbols : List Symbol
  /-- `kallsyms_lookup_name`, or none up to 2.6.32. -/
  kallsymsLookupName : Option (List Byte → UInt64)

/-- The statics of `my-kallsyms.c`. -/
structure Lookup where
  targetAddress : UInt64
  returnNextSymbol : Bool

/-- The enumeration stops at the first callback that returns non-zero. -/
def kallsymsOnEachSymbol (callback : Lookup → Symbol → Bool × Lookup) : List Symbol → Lookup → Lookup
  | [], lookup => lookup
  | symbol :: symbols, lookup =>
    let r := callback lookup symbol
    if r.1 then r.2 else kallsymsOnEachSymbol callback symbols r.2

/-- Callback of `my_kallsyms_lookup_name`. -/
def find (targetName : List Byte) (lookup : Lookup) (symbol : Symbol) : Bool × Lookup :=
  if strncmp ksymNameLen targetName symbol.name = 0 then (true, { lookup with targetAddress := symbol.address })
  else (false, lookup)

/-- Callback of `find_next_symbol`. -/
def findNext (target : UInt64) (lookup : Lookup) (symbol : Symbol) : Bool × Lookup :=
  if target = symbol.address then (false, { lookup with returnNextSymbol := true })
  else if lookup.returnNextSymbol then (true, { lookup with targetAddress := symbol.address })
  else (false, lookup)

def findNextSymbol (kernel : Kernel) (targetSymbol : UInt64) : Lookup :=
  kallsymsOnEachSymbol (findNext targetSymbol) kernel.symbols ⟨0, false⟩

/-- The address and the statics behind the call. -/
def myKallsymsLookupName (kernel : Kernel) (name : List Byte) (lookup : Lookup) : UInt64 × Lookup :=
  match kernel.kallsymsLookupName with
  | some lookupName => (lookupName name, lookup)
  | none =>
    let found := kallsymsOnEachSymbol (find name) kernel.symbols { lookup with targetAddress := 0 }
    (found.targetAddress, found)

/-- A system call table of 8 bytes at 4096. -/
def smallKernel : Kernel := ⟨[⟨bytes "sys_call_table", 4096⟩, ⟨bytes "next", 4104⟩], none⟩

end Carbonite
