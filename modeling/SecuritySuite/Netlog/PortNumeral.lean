import SecuritySuite.Netlog.ConnectionReading

/-!
# Port numerals

The port field is folded from its last character backwards, and the only check is the range of the sum. So a text
that is no numeral is a port if its characters happen to add up to one, modulo `2 ^ 32`, and the multiplier
overflows on ten characters or more.
-/

namespace Netlog
set_option autoImplicit false
open CString

/-- The parser gets to a port field in the string, or behind its terminator. -/
structure PortReached (s : List Byte) (t : Memory) : Prop where
  passed : ¬ StoppedEarly s
  letter : peek (portPointer s t) = 112

/-- The text of the field: what follows the `'p'` and an optional `'<'`. -/
def portText (s : List Byte) (t : Memory) : List Byte := valueOf (portPointer s t)

/-- Digits with the value of a port. -/
structure PortNumeral (w : List Byte) : Prop where
  nonempty : w ≠ []
  digits : ∀ b ∈ w, 48 ≤ b ∧ b ≤ 57
  range : 1 ≤ digitsValue w ∧ digitsValue w ≤ 65535

/-- The string is accepted exactly if its port text is a numeral, the port is its value, and an accepted string
is read without overflow. -/
structure ReadsPort (s : List Byte) (t : Memory) : Prop where
  accepted : (∃ c, initializeConnectionFromString true (s ++ 0 :: t) = some c) ↔ PortNumeral (portText s t)
  stored : ∀ c, initializeConnectionFromString true (s ++ 0 :: t) = some c → c.port = digitsValue (portText s t)
  exact : ∀ c, initializeConnectionFromString true (s ++ 0 :: t) = some c → ¬ FoldOverflows (portText s t).reverse 0 1

/-- The sum of the characters, each less `'0'` and scaled by its place, is a port modulo `2 ^ 32`. -/
def AddsUp (w : List Byte) : Prop := ∃ port turns : Int, 1 ≤ port ∧ port ≤ 65535 ∧ numeral w = port + turns * 2 ^ 32

theorem validPortNumber_int32 {x : Int} :
    validPortNumber (int32 x) = true ↔ ∃ port turns : Int, 1 ≤ port ∧ port ≤ 65535 ∧ x = port + turns * 2 ^ 32 := by
  rw [validPortNumber_iff]
  constructor
  · intro range
    refine ⟨int32 x, (x - int32 x) / 2 ^ 32, by omega, by omega, ?_⟩
    have divides : (2 ^ 32 : Int) ∣ x - int32 x := Int.dvd_self_sub_bmod
    rw [Int.ediv_mul_cancel divides]
    omega
  · rintro ⟨port, turns, low, high, rfl⟩
    have same : int32 (port + turns * 2 ^ 32) = int32 port := Int.add_mul_bmod_self_right port turns (2 ^ 32)
    rw [same, int32_of_range (by omega) (by omega)]
    omega

variable {s : List Byte} {t : Memory}

/-- Behind the other checks the sum decides. -/
theorem parse_port (free : NulFree s) (reached : PortReached s t) :
    initializeConnectionFromString true (s ++ 0 :: t) =
      if validPortNumber (int32 (numeral (portText s t))) then
        some ⟨int32 (numeral (portText s t)), storedIp s, upTo endOfPath s⟩ else none := by
  rw [(parse_eq free t).2 reached.passed, readPortField_eq, if_pos reached.letter]
  change Option.map _ (if validPortNumber (int32 (numeral (portText s t))) = true then _ else _) = _
  split <;> rfl

theorem PortNumeral.numeral {w : List Byte} (port : PortNumeral w) : numeral w = digitsValue w := numeral_digits port.digits

theorem PortNumeral.addsUp {w : List Byte} (port : PortNumeral w) : AddsUp w :=
  ⟨digitsValue w, 0, by have := port.range; omega, by have := port.range; omega, by rw [port.numeral]; simp⟩

/-- **Which port fields are read exactly**: numerals of at most nine digits, and texts that do not add up to a
port. -/
theorem reads_port_iff (free : NulFree s) (reached : PortReached s t) :
    ReadsPort s t ↔ PortNumeral (portText s t) ∧ (portText s t).length ≤ 9 ∨ ¬ AddsUp (portText s t) := by
  have result := parse_port free reached
  have sum : validPortNumber (int32 (numeral (portText s t))) = true ↔ AddsUp (portText s t) := validPortNumber_int32
  by_cases adds : AddsUp (portText s t)
  case neg =>
    rw [if_neg (mt sum.1 adds)] at result
    refine iff_of_true ⟨iff_of_false ?_ (mt PortNumeral.addsUp adds), ?_, ?_⟩ (.inr adds)
    · rintro ⟨c, accepted⟩
      rw [result] at accepted
      cases accepted
    · intro c accepted
      rw [result] at accepted
      cases accepted
    · intro c accepted
      rw [result] at accepted
      cases accepted
  rw [if_pos (sum.2 adds)] at result
  rw [or_iff_left (not_not_intro adds)]
  constructor
  · intro reads
    have port := reads.accepted.1 ⟨_, result⟩
    refine ⟨port, ?_⟩
    by_contra long
    exact reads.exact _ result ((foldOverflows_iff port.digits).2 (by omega))
  · rintro ⟨port, short⟩
    refine ⟨iff_of_true ⟨_, result⟩ port, ?_, ?_⟩
    · intro c accepted
      rw [result] at accepted
      cases accepted
      have range := port.range
      rw [port.numeral, int32_of_range (by omega) (by omega)]
    · intro c _ overflows
      have := (foldOverflows_iff port.digits).1 overflows
      omega

/-- A string of the readme. -/
theorem documented_reached : PortReached (bytes "/usr/sbin/sshd|p<22>") [] := by
  refine ⟨?_, by decide +kernel⟩
  have scan : onFrom endOfPath (bytes "/usr/sbin/sshd|p<22>") = fieldSeparator :: bytes "p<22>" := by decide +kernel
  rintro (long | ⟨field, behind, letter, -⟩)
  · revert long
    decide +kernel
  · rw [scan] at behind
    cases behind
    revert letter
    decide +kernel

theorem reads_port_documented : ReadsPort (bytes "/usr/sbin/sshd|p<22>") [] :=
  (reads_port_iff (by decide +kernel) documented_reached).2
    (.inl ⟨⟨by decide +kernel, by decide +kernel, by decide +kernel⟩, by decide +kernel⟩)

/-- The letter `O` in place of the digit adds 31. -/
theorem reads_port_fails : ¬ ReadsPort (bytes "/usr/sbin/sshd|p<8O>") [] := by
  intro reads
  have port := reads.accepted.1 ⟨⟨111, [], bytes "/usr/sbin/sshd"⟩, by decide +kernel⟩
  have digits := port.digits
  revert digits
  decide +kernel

end Netlog
