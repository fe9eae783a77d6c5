import SecuritySuite.Foundation.CString

/-!
# `super-fast-hash.c`

The hash of the system call table. `len` is 32 bits wide, and a plain `char` is signed.
-/

namespace Carbonite
set_option autoImplicit false
open CString

/-- `get16bits(d)`, the two bytes at `d` in little-endian order. -/
def get16bits (d : Memory) : UInt32 :=
  ((d.getD 1 0).toUInt32 <<< 8) + (d.getD 0 0).toUInt32

/-- A `char` in an arithmetic expression. -/
def signed (ch : Byte) : UInt32 := ch.toInt8.toInt32.toUInt32

/-- One turn of the main loop, over the four bytes at `data`. -/
def mix (hash : UInt32) (data : Memory) : UInt32 :=
  let hash := hash + get16bits data
  let tmp := (get16bits (data.drop 2) <<< 11) ^^^ hash
  let hash := (hash <<< 16) ^^^ tmp
  hash + (hash >>> 11)

/-- `for (;len > 0; len--)`. -/
def mainLoop : Nat → UInt32 → Memory → UInt32 × Memory
  | 0, hash, data => (hash, data)
  | len + 1, hash, data => mainLoop len (mix hash data) (data.drop 4)

/-- `switch (rem)`. -/
def endCases (rem hash : UInt32) (data : Memory) : UInt32 :=
  if rem = 3 then
    let hash := hash + get16bits data
    let hash := hash ^^^ (hash <<< 16)
    let hash := hash ^^^ (signed (data.getD 2 0) <<< 18)
    hash + (hash >>> 11)
  else if rem = 2 then
    let hash := hash + get16bits data
    let hash := hash ^^^ (hash <<< 11)
    hash + (hash >>> 17)
  else if rem = 1 then
    let hash := hash + signed (data.getD 0 0)
    let hash := hash ^^^ (hash <<< 10)
    hash + (hash >>> 1)
  else hash

/-- The avalanching of the final bits. -/
def avalanche (hash : UInt32) : UInt32 :=
  let hash := hash ^^^ (hash <<< 3)
  let hash := hash + (hash >>> 5)
  let hash := hash ^^^ (hash <<< 4)
  let hash := hash + (hash >>> 17)
  let hash := hash ^^^ (hash <<< 25)
  hash + (hash >>> 6)

def superFastHash (data : Option Memory) (len : UInt32) : UInt32 :=
  match data with
  | none => 0
  | some data =>
    if len = 0 then 0
    else
      let looped := mainLoop (len >>> 2).toNat len data
      avalanche (endCases (len &&& 3) looped.1 looped.2)

end Carbonite
