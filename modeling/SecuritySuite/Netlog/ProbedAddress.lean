import SecuritySuite.Netlog.ConnectionString
import SecuritySuite.Netlog.Matching

/-!
# Addresses as text

The text of a socket's remote address determines the address: dots and colons delimit groups of digits,
and each group determines its number. Written into a connection string without its brackets, the
text passes the checks of the parser, which puts the brackets back.
-/

namespace Netlog
set_option autoImplicit false
open CString

/-- An address of either family. -/
inductive Address where
  | inet (addr : InAddr)
  | inet6 (addr : In6Addr)

/-- The remote address of a socket. -/
def Socket.remoteAddress (sock : Socket) : Option Address :=
  match sock.sk.skFamily with
  | .afInet => some (.inet sock.sk.inetDaddr)
  | .afInet6 => some (.inet6 sock.sk.inet6Daddr)
  | .other => none

/-- The text of an address, as the probes print it. -/
def Address.text : Address → List Byte
  | .inet addr => nipquad addr
  | .inet6 addr => 91 :: (nip6 addr ++ [93])

/-- A text without its square brackets. -/
def withoutBrackets (t : List Byte) : List Byte := t.filter fun b => b != 91 && b != 93

/-- What stands between `'i<'` and `'>'` for an address. -/
def Address.digits : Address → List Byte
  | .inet addr => nipquad addr
  | .inet6 addr => nip6 addr

/-! ## The characters of an address -/

theorem decimal_ipCharacter {n : Nat} {b : Byte} (member : b ∈ decimal n) : ipCharacter b = true := by
  have digit := decimal_digit member
  simp [ipCharacter, digit]

theorem nipquad_character {addr : InAddr} {b : Byte} (member : b ∈ nipquad addr) : ipCharacter b = true := by
  simp only [nipquad, List.mem_append, List.mem_cons] at member
  rcases member with h | rfl | h | rfl | h | rfl | h
  all_goals first
    | exact decimal_ipCharacter h
    | rfl

theorem ntohs_lt (x : UInt16) : ntohs x < 65536 := by
  have := x.toNat_lt
  unfold ntohs
  omega

/-- A colon, a digit or one of the letters `a` to `f`. -/
theorem nip6_character {addr : In6Addr} {b : Byte} (member : b ∈ nip6 addr) :
    b = 58 ∨ 48 ≤ b ∧ b ≤ 57 ∨ 97 ≤ b ∧ b ≤ 102 := by
  simp only [nip6, List.mem_append, List.mem_cons] at member
  rcases member with h | rfl | h | rfl | h | rfl | h | rfl | h | rfl | h | rfl | h | rfl | h
  all_goals first
    | exact .inr (hexadecimal4_digit (ntohs_lt _) h)
    | exact .inl rfl

theorem nipquad_length (addr : InAddr) : (nipquad addr).length ≤ 15 := by
  have group (b : Byte) : (decimal b.toNat).length ≤ 3 :=
    decimal_length_le (by decide) (by have := b.toNat_lt; omega)
  have h0 := group addr.byte0
  have h1 := group addr.byte1
  have h2 := group addr.byte2
  have h3 := group addr.byte3
  simp only [nipquad, List.length_append, List.length_cons]
  omega

theorem nip6_length (addr : In6Addr) : (nip6 addr).length = 39 := by
  simp [nip6, hexadecimal4_length (ntohs_lt _)]

/-- Neither family prints a delimiter of a connection string or a bracket. -/
theorem Address.digits_inside {a : Address} {b : Byte} (member : b ∈ a.digits) :
    endOfValue b = false ∧ b ≠ 91 ∧ b ≠ 93 := by
  cases a with
  | inet addr =>
    have character := nipquad_character member
    simp only [ipCharacter] at character
    simp only [endOfValue, fieldSeparator]
    grind
  | inet6 addr =>
    have character := nip6_character member
    simp only [endOfValue, fieldSeparator]
    grind

theorem Address.digits_ne_nil (a : Address) : a.digits ≠ [] := by
  cases a with
  | inet addr => simp [digits, nipquad]
  | inet6 addr => simp [digits, nip6]

theorem Address.text_nulFree (a : Address) : NulFree a.text := by
  have digits : NulFree a.digits := fun b member nul => by
    have := (digits_inside member).1
    rw [nul] at this; cases this
  cases a with
  | inet addr => exact digits
  | inet6 addr => simpa [text] using show NulFree (nip6 addr) from digits

theorem withoutBrackets_text (a : Address) : withoutBrackets a.text = a.digits := by
  have kept : ∀ b ∈ a.digits, (b != 91 && b != 93) = true := fun b member => by
    have inside := Address.digits_inside member
    simp [inside]
  have digits : withoutBrackets a.digits = a.digits := List.filter_eq_self.2 kept
  cases a with
  | inet addr => exact digits
  | inet6 addr =>
    rw [Address.text, withoutBrackets, List.filter_cons_of_neg (by decide), List.filter_append,
      List.filter_cons_of_neg (by decide), List.filter_nil, List.append_nil]
    exact digits

/-- The buffers of `get_destination_ip` are large enough. -/
theorem getDestinationIp_eq {sock : Socket} {a : Address} (remote : sock.remoteAddress = some a) :
    getDestinationIp sock = some a.text := by
  unfold Socket.remoteAddress at remote
  cases family : sock.sk.skFamily with
  | afInet =>
    simp only [family, Option.some.injEq] at remote
    have short := nipquad_length sock.sk.inetDaddr
    rw [getDestinationIp, getDestinationIpSk, family, ← remote, Address.text]
    simp only [snprintf, inetAddrstrlen]
    rw [List.take_of_length_le (by omega)]
  | afInet6 =>
    simp only [family, Option.some.injEq] at remote
    have short := nip6_length sock.sk.inet6Daddr
    rw [getDestinationIp, getDestinationIpSk, family, ← remote, Address.text]
    simp only [snprintf, inet6Addrstrlen]
    rw [List.take_of_length_le (by simp [short])]
  | other => simp [family] at remote

/-! ## The text determines the address -/

theorem ntohs_injective {x y : UInt16} (same : ntohs x = ntohs y) : x = y := by
  have hx := x.toNat_lt
  have hy := y.toNat_lt
  unfold ntohs at same
  apply UInt16.toNat_inj.1
  omega

theorem nipquad_injective {a b : InAddr} (same : nipquad a = nipquad b) : a = b := by
  have dot {n : Nat} : (46 : Byte) ∉ decimal n := fun member => by
    have digit := decimal_digit member
    revert digit
    decide
  have byte {x y : Byte} (h : decimal x.toNat = decimal y.toNat) : x = y :=
    UInt8.toNat_inj.1 (decimal_injective h)
  obtain ⟨b0, rest0⟩ := split_unique dot dot same
  obtain ⟨b1, rest1⟩ := split_unique dot dot rest0
  obtain ⟨b2, b3⟩ := split_unique dot dot rest1
  cases a
  cases b
  simp only [InAddr.mk.injEq]
  exact ⟨byte b0, byte b1, byte b2, byte b3⟩

theorem nip6_injective {a b : In6Addr} (same : nip6 a = nip6 b) : a = b := by
  have colon (x : UInt16) : (58 : Byte) ∉ hexadecimal4 (ntohs x) := fun member => by
    have digit := hexadecimal4_digit (ntohs_lt x) member
    revert digit
    decide
  have group {x y : UInt16} (h : hexadecimal4 (ntohs x) = hexadecimal4 (ntohs y)) : x = y :=
    ntohs_injective (hexadecimal4_injective (ntohs_lt x) (ntohs_lt y) h)
  obtain ⟨g0, rest0⟩ := split_unique (colon _) (colon _) same
  obtain ⟨g1, rest1⟩ := split_unique (colon _) (colon _) rest0
  obtain ⟨g2, rest2⟩ := split_unique (colon _) (colon _) rest1
  obtain ⟨g3, rest3⟩ := split_unique (colon _) (colon _) rest2
  obtain ⟨g4, rest4⟩ := split_unique (colon _) (colon _) rest3
  obtain ⟨g5, rest5⟩ := split_unique (colon _) (colon _) rest4
  obtain ⟨g6, g7⟩ := split_unique (colon _) (colon _) rest5
  obtain ⟨a⟩ := a
  obtain ⟨b⟩ := b
  congr 1
  funext i
  match i with
  | 0 => exact group g0
  | 1 => exact group g1
  | 2 => exact group g2
  | 3 => exact group g3
  | 4 => exact group g4
  | 5 => exact group g5
  | 6 => exact group g6
  | 7 => exact group g7

/-- **The text of an address determines it**, family included. -/
theorem Address.text_injective {a b : Address} (same : a.text = b.text) : a = b := by
  have bracket (addr : InAddr) (rest : List Byte) : nipquad addr ≠ 91 :: rest := fun h => by
    have character : ipCharacter 91 = true := nipquad_character (show 91 ∈ nipquad addr by rw [h]; simp)
    revert character
    decide
  cases a with
  | inet a =>
    cases b with
    | inet b => rw [nipquad_injective same]
    | inet6 b => exact absurd same (bracket a _)
  | inet6 a =>
    cases b with
    | inet b => exact absurd same.symm (bracket b _)
    | inet6 b =>
      simp only [text, List.cons.injEq, List.append_cancel_right_eq, true_and] at same
      rw [nip6_injective same]

/-! ## The parser on the text of an address -/

/-- The ip value written for an address. -/
def Address.field (a : Address) : FieldValue :=
  ⟨a.digits, a.digits_ne_nil, fun _ member => (digits_inside member).1⟩

theorem decimal_inside {n : Nat} {b : Byte} (member : b ∈ decimal n) : endOfValue b = false ∧ b ≠ 58 := by
  have digit := decimal_digit member
  simp only [endOfValue, fieldSeparator]
  grind

/-- The port value written for a number. -/
def decimalField (p : Nat) : FieldValue :=
  ⟨decimal p, decimal_ne_nil p, fun _ member => (decimal_inside member).1⟩

/-- An address looks like an IPv6 text exactly if it is one. -/
theorem Address.ipv6_iff (a : Address) : a.field.ipv6 ↔ a.text ≠ a.digits := by
  cases a with
  | inet addr =>
    have : (58 : Byte) ∉ (nipquad addr).take 46 := fun member => by
      have character := nipquad_character (List.mem_of_mem_take member)
      revert character
      decide
    simpa [FieldValue.ipv6, field, digits, text] using this
  | inet6 addr =>
    have groups := nip6_length addr
    have colon : (58 : Byte) ∈ (nip6 addr).take 46 := by
      rw [List.take_of_length_le (by omega)]
      simp [nip6]
    have longer : Address.text (.inet6 addr) ≠ digits (.inet6 addr) := fun h => by
      have lengths := congrArg List.length h
      simp only [text, digits, List.length_cons, List.length_append] at lengths
      omega
    exact ⟨fun _ => longer, fun _ => colon⟩

theorem Address.shown_field (a : Address) : a.field.shown = a.text := by
  unfold FieldValue.shown
  by_cases ipv6 : a.field.ipv6
  · rw [if_pos ipv6]
    cases a with
    | inet addr => exact absurd rfl ((Address.ipv6_iff _).1 ipv6)
    | inet6 addr => rfl
  · rw [if_neg ipv6]
    exact (not_not.1 (mt a.ipv6_iff.2 ipv6)).symm

/-- The text of an address passes the character check. -/
theorem Address.text_valid (a : Address) : looksLikeValidIp a.text = true := by
  have free := a.text_nulFree
  unfold looksLikeValidIp
  rw [looksLikeIpv6_eq, scanFor_eq, scanFor_eq, text_of_nulFree free]
  cases a with
  | inet addr =>
    have ipv4 : ((Address.text (.inet addr)).take 48).any (· == 58) = false := by
      rw [List.any_eq_false]
      intro b member colon
      have character := nipquad_character (List.mem_of_mem_take member)
      rw [beq_iff_eq.1 colon] at character
      revert character
      decide
    rw [ipv4]
    simp only [Bool.false_eq_true, if_false, Bool.not_eq_true', List.any_eq_false]
    intro b member
    simp [nipquad_character (List.mem_of_mem_take member)]
  | inet6 addr =>
    have ipv6 : ((Address.text (.inet6 addr)).take 48).any (· == 58) = true := by
      rw [List.any_eq_true]
      refine ⟨58, ?_, rfl⟩
      rw [List.take_of_length_le (by simp [text, nip6_length])]
      simp [text, nip6]
    rw [ipv6]
    simp only [if_true, Bool.not_eq_true', List.any_eq_false]
    intro b member
    have inside := List.mem_of_mem_take member
    simp only [text, List.mem_cons, List.mem_append, List.not_mem_nil, or_false] at inside
    simp only [ipv6Character]
    rcases inside with rfl | digit | rfl
    · decide
    · have := nip6_character digit
      grind
    · decide

theorem Address.digits_length (a : Address) : a.digits.length ≤ 39 := by
  cases a with
  | inet addr => exact (nipquad_length addr).trans (by decide)
  | inet6 addr => exact (nip6_length addr).le

/-- The text of an address passes every check of the ip field, in front of any port number. -/
theorem Address.ipAccepted (a : Address) {port : Option FieldValue} (colon : 58 ∉ portPart port) :
    IpAccepted (ipField a.field ++ portPart port) := by
  constructor
  · have short := a.digits_length
    rw [valueOf_ipField]
    change a.digits.length ≤ _
    split <;> omega
  · rw [shownIp_of_noColon _ colon, a.shown_field]
    exact a.text_valid

/-- The connection string for a path and an address, and a port number if one is given. -/
def probedString (path : List Byte) (a : Address) (p : Option Nat)
    (inside : ∀ b ∈ path, endOfPath b = false) : ConnectionString :=
  ⟨path, some a.field, p.map decimalField, inside⟩

theorem probedString_colon (p : Option Nat) : (58 : Byte) ∉ portPart (p.map decimalField) := by
  cases p with
  | none => simp [portPart]
  | some p =>
    have digits : (58 : Byte) ∉ decimal p := fun member => (decimal_inside member).2 rfl
    simpa [portPart, portField, decimalField, fieldSeparator] using digits

theorem int32_decimal {p : Nat} (high : p ≤ 65535) : int32 (numeral (decimal p)) = p := by
  rw [numeral_decimal, int32_of_range (by omega) (by omega)]

theorem probedString_accepted {path : List Byte} (fits : path.length ≤ 949) (a : Address) {p : Option Nat}
    (range : ∀ n, p = some n → 1 ≤ n ∧ n ≤ 65535) (inside : ∀ b ∈ path, endOfPath b = false) :
    (probedString path a p inside).Accepted where
  path := fits
  ip := by
    intro ip named
    obtain rfl : a.field = ip := Option.some.inj named
    exact a.ipAccepted (probedString_colon p)
  port := by
    intro port named
    obtain ⟨n, rfl, rfl⟩ := Option.map_eq_some_iff.1 named
    have bounds := range n rfl
    change validPortNumber (int32 (numeral (decimal n))) = true
    rw [int32_decimal bounds.2, validPortNumber_iff]
    omega

/-- What is stored for an address: the text the probes print. -/
theorem probedString_connection {path : List Byte} (a : Address) {p : Option Nat}
    (range : ∀ n, p = some n → 1 ≤ n ∧ n ≤ 65535) (inside : ∀ b ∈ path, endOfPath b = false) :
    (probedString path a p inside).connection = ⟨p.elim noPort Nat.cast, a.text, path⟩ := by
  have ip : (probedString path a p inside).ipText = a.text :=
    (shownIp_of_noColon _ (probedString_colon p)).trans a.shown_field
  have port : (probedString path a p inside).portValue = p.elim noPort Nat.cast := by
    cases p with
    | none => rfl
    | some n => exact int32_decimal (range n rfl).2
  rw [ConnectionString.connection, ip, port]
  rfl

theorem Address.text_fits (a : Address) : a.text.length ≤ 49 := by
  have short := a.digits_length
  cases a with
  | inet addr => exact short.trans (by decide)
  | inet6 addr =>
    simp only [digits] at short
    simp only [text, List.length_cons, List.length_append, List.length_nil]
    omega

theorem Address.text_ne_nil (a : Address) : a.text ≠ [] := by
  cases a with
  | inet addr => simp [text, nipquad]
  | inet6 addr => simp [text]

/-- Matching a stored address against a probed one. -/
theorem probed_matches_iff {path path' : List Byte} (free : NulFree path) (fits : path.length ≤ 949)
    (free' : NulFree path') (a b : Address) (p : Option Nat) {q : Nat} :
    connectionMatchesAttributes ⟨p.elim noPort Nat.cast, a.text, path⟩ path' b.text q = true ↔
      path = path' ∧ a = b ∧ ∀ n, p = some n → n = q := by
  have stored : Connection.Fits ⟨p.elim noPort Nat.cast, a.text, path⟩ :=
    ⟨free, fits, a.text_nulFree, a.text_fits⟩
  rw [connectionMatchesAttributes_iff stored free' b.text_nulFree]
  have ip : (a.text = [] ∨ b.text = [] ∨ a.text = b.text) ↔ a = b := by
    simp only [a.text_ne_nil, b.text_ne_nil, false_or]
    exact ⟨Address.text_injective, congrArg _⟩
  have port : (p.elim noPort Nat.cast = noPort ∨ (q : Int) = noPort ∨ p.elim noPort Nat.cast = (q : Int)) ↔
      ∀ n, p = some n → n = q := by
    unfold noPort
    cases p with
    | none => simp
    | some n =>
      simp only [Option.elim_some, Option.some.injEq]
      constructor
      · rintro h _ rfl
        omega
      · intro h
        have := h n rfl
        omega
  rw [ip, port]

/-- **Whitelisted text and probed address agree.** The text printed for an address, written into a
connection string without its brackets, is accepted, and it matches that address and no other. -/
theorem whitelisted_address_matches {e : List Byte} (fits : e.length ≤ 949) (free : NulFree e)
    (bar : fieldSeparator ∉ e) {sockA sockB : Socket} {a b : Address}
    (remoteA : sockA.remoteAddress = some a) (remoteB : sockB.remoteAddress = some b) {p : Nat}
    (valid : 1 ≤ p ∧ p ≤ 65535) (q : Nat) (t : Memory) :
    ∃ textA textB, getDestinationIp sockA = some textA ∧ getDestinationIp sockB = some textB ∧
      ∃ c d,
        initializeConnectionFromString true
          (e ++ bytes "|i<" ++ withoutBrackets textA ++ bytes ">" ++ 0 :: t) = some c ∧
        initializeConnectionFromString true
          (e ++ bytes "|i<" ++ withoutBrackets textA ++ bytes ">|p<" ++ decimal p ++ bytes ">" ++ 0 :: t) =
            some d ∧
        (connectionMatchesAttributes c e textB q = true ↔ a = b) ∧
        (connectionMatchesAttributes d e textB q = true ↔ a = b ∧ p = q) ∧
        ∀ e', NulFree e' → e' ≠ e →
          connectionMatchesAttributes c e' textB q = false ∧
            connectionMatchesAttributes d e' textB q = false := by
  have inside := path_inside free bar
  have ipStart : bytes "|i<" = [fieldSeparator, 105, 60] := by decide +kernel
  have portStart : bytes ">|p<" = [62, fieldSeparator, 112, 60] := by decide +kernel
  have fieldEnd : bytes ">" = [62] := by decide +kernel
  have noRange : ∀ n, (none : Option Nat) = some n → 1 ≤ n ∧ n ≤ 65535 := by simp
  have range : ∀ n, some p = some n → 1 ≤ n ∧ n ≤ 65535 := by
    rintro _ ⟨⟩
    exact valid
  refine ⟨a.text, b.text, getDestinationIp_eq remoteA, getDestinationIp_eq remoteB,
    ⟨noPort, a.text, e⟩, ⟨p, a.text, e⟩, ?_, ?_, ?_, ?_, ?_⟩
  · have read := (probedString e a none inside).parse t (probedString_accepted fits a noRange inside)
    rw [probedString_connection a noRange inside] at read
    have text : (probedString e a none inside).text ++ 0 :: t =
        e ++ bytes "|i<" ++ a.digits ++ bytes ">" ++ 0 :: t := by
      simp [ConnectionString.text, probedString, ipField, portPart, Address.field, ipStart, fieldEnd]
    rw [withoutBrackets_text, ← text]
    exact read
  · have read := (probedString e a (some p) inside).parse t (probedString_accepted fits a range inside)
    rw [probedString_connection a range inside] at read
    have text : (probedString e a (some p) inside).text ++ 0 :: t =
        e ++ bytes "|i<" ++ a.digits ++ bytes ">|p<" ++ decimal p ++ bytes ">" ++ 0 :: t := by
      simp [ConnectionString.text, probedString, ipField, portPart, portField, Address.field,
        decimalField, ipStart, portStart, fieldEnd]
    rw [withoutBrackets_text, ← text]
    exact read
  · simpa using probed_matches_iff free fits free a b none (q := q)
  · simpa using probed_matches_iff free fits free a b (some p) (q := q)
  · intro e' free' other
    have missing := probed_matches_iff free fits free' a b none (q := q)
    have missing' := probed_matches_iff free fits free' a b (some p) (q := q)
    simp only [other.symm, false_and, iff_false, Bool.not_eq_true] at missing missing'
    exact ⟨missing, missing'⟩

/-- The address `127.0.0.1` against an IPv6 address. -/
theorem whitelisted_address_matches_sshd :
    ∃ c, initializeConnectionFromString true (bytes "/usr/bin/sshd|i<127.0.0.1>" ++ [0]) = some c ∧
      connectionMatchesAttributes c (bytes "/usr/bin/sshd")
        (bytes "[0000:0000:0000:0000:0000:0000:0000:0001]") 22 = false := by
  let loopback : Sock := ⟨.afInet, ⟨127, 0, 0, 1⟩, ⟨fun _ => 0⟩⟩
  let loopback6 : Sock := ⟨.afInet6, ⟨0, 0, 0, 0⟩, ⟨fun i => if i = 7 then 256 else 0⟩⟩
  obtain ⟨textA, textB, shownA, shownB, c, d, accepted, -, agrees, -⟩ :=
    @whitelisted_address_matches (bytes "/usr/bin/sshd") (by decide +kernel) (by decide +kernel)
      (by decide +kernel) ⟨loopback⟩ ⟨loopback6⟩ _ _ rfl rfl 22 (by decide) 22 []
  have a : getDestinationIp ⟨loopback⟩ = some (bytes "127.0.0.1") := by decide +kernel
  have b : getDestinationIp ⟨loopback6⟩ = some (bytes "[0000:0000:0000:0000:0000:0000:0000:0001]") := by
    decide +kernel
  obtain rfl := Option.some.inj (a.symm.trans shownA)
  obtain rfl := Option.some.inj (b.symm.trans shownB)
  refine ⟨c, ?_, ?_⟩
  · rw [← accepted]
    decide +kernel
  · rw [← Bool.not_eq_true, show (22 : Int) = ((22 : Nat) : Int) from rfl, agrees]
    exact fun same => by cases same

end Netlog
