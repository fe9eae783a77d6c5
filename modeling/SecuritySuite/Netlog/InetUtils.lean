import SecuritySuite.Foundation.Numeral

/-!
# `inet_utils.c`

The address texts netlog prints and compares, and the checks on the ip and port that a connection
string names. An IPv4 address is its four bytes in memory, an IPv6 address its eight
network-order halfwords as a little-endian machine loads them.
-/

namespace Netlog
set_option autoImplicit false
open CString

def inetAddrstrlen : Nat := 16
def inet6Addrstrlen : Nat := 48

/-- `struct in_addr`. -/
structure InAddr where
  byte0 : Byte
  byte1 : Byte
  byte2 : Byte
  byte3 : Byte
deriving DecidableEq, Repr

/-- `struct in6_addr`. -/
structure In6Addr where
  s6Addr16 : Fin 8 → UInt16

inductive SkFamily where
  | afInet
  | afInet6
  | other
deriving DecidableEq, Repr

/-- The fields of a `struct sock` that name its remote end. -/
structure Sock where
  skFamily : SkFamily
  inetDaddr : InAddr
  inet6Daddr : In6Addr

/-- `struct socket`. -/
structure Socket where
  sk : Sock

/-- The bytes `snprintf` leaves before the terminator it writes. -/
def snprintf (size : Nat) (formatted : List Byte) : List Byte := formatted.take (size - 1)

/-- `ntohs` on a little-endian machine. -/
def ntohs (x : UInt16) : Nat := x.toNat % 256 * 256 + x.toNat / 256

/-- `"%u.%u.%u.%u"` of `NIPQUAD(addr)`. -/
def nipquad (addr : InAddr) : List Byte :=
  decimal addr.byte0.toNat ++ 46 :: (decimal addr.byte1.toNat ++
    46 :: (decimal addr.byte2.toNat ++ 46 :: decimal addr.byte3.toNat))

/-- The eight `"%04x"` groups of `NIP6(addr)`, separated by colons. -/
def nip6 (addr : In6Addr) : List Byte :=
  let group (i : Fin 8) : List Byte := hexadecimal4 (ntohs (addr.s6Addr16 i))
  group 0 ++ 58 :: (group 1 ++ 58 :: (group 2 ++ 58 :: (group 3 ++ 58 :: (group 4 ++
    58 :: (group 5 ++ 58 :: (group 6 ++ 58 :: group 7))))))

/-- The text in the static buffer that `get_destination_ip_sk` returns; `none` is `NULL`. -/
def getDestinationIpSk (sk : Sock) : Option (List Byte) :=
  match sk.skFamily with
  | .afInet => some (snprintf inetAddrstrlen (nipquad sk.inetDaddr))
  | .afInet6 => some (snprintf (inet6Addrstrlen + 2) (91 :: (nip6 sk.inet6Daddr ++ [93])))
  | .other => none

def getDestinationIp (sock : Socket) : Option (List Byte) := getDestinationIpSk sock.sk

def looksLikeIpv6 (ip : Memory) : Bool := scanFor (· == 58) inet6Addrstrlen ip

def validPortNumber (port : Int) : Bool := 0 < port && port < 65536

/-- Decimal characters and `'.'`. -/
def ipCharacter (ch : Byte) : Bool := ch == 46 || (48 ≤ ch && ch ≤ 57)

/-- Letters, digits, `':'`, `'['` and `']'`. -/
def ipv6Character (ch : Byte) : Bool :=
  ch == 58 || ch == 91 || ch == 93 || (48 ≤ ch && ch ≤ 57) || (65 ≤ ch && ch ≤ 90) ||
    (97 ≤ ch && ch ≤ 122)

/-- Only the first `INET6_ADDRSTRLEN + 2` or `INET_ADDRSTRLEN` characters are checked. -/
def looksLikeValidIp (ip : Memory) : Bool :=
  if looksLikeIpv6 ip then !scanFor (fun ch => !ipv6Character ch) (inet6Addrstrlen + 2) ip
  else !scanFor (fun ch => !ipCharacter ch) inetAddrstrlen ip

theorem looksLikeIpv6_eq (ip : Memory) : looksLikeIpv6 ip = ((text ip).take 48).any (· == 58) :=
  scanFor_eq _ _ _

theorem looksLikeIpv6_terminated {s : List Byte} (free : NulFree s) (t : Memory) :
    looksLikeIpv6 (s ++ 0 :: t) = looksLikeIpv6 s := by
  rw [looksLikeIpv6_eq, looksLikeIpv6_eq, text_terminated free, text_of_nulFree free]

theorem validPortNumber_iff {port : Int} : validPortNumber port = true ↔ 1 ≤ port ∧ port ≤ 65535 := by
  simp only [validPortNumber, Bool.and_eq_true, decide_eq_true_eq]
  omega

end Netlog
