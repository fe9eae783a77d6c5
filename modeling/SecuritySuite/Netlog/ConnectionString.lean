import SecuritySuite.Netlog.ConnectionReading

/-!
# Connection strings with bracketed fields

`path`, `path|i<ip>`, `path|p<port>` and `path|i<ip>|p<port>` as data: a `ConnectionString` cannot be
built with a delimiter inside one of its parts. `ConnectionString.parse` is the parser on such a
string. The closing `'>'` keeps the pointer inside the string, so the memory behind it plays no
part.
-/

namespace Netlog
set_option autoImplicit false
open CString

/-- What can stand between `'<'` and `'>'`. -/
structure FieldValue where
  value : List Byte
  nonempty : value ≠ []
  inside : ∀ b ∈ value, endOfValue b = false

/-- The parts of a connection string. -/
structure ConnectionString where
  path : List Byte
  ip : Option FieldValue
  port : Option FieldValue
  pathInside : ∀ b ∈ path, endOfPath b = false

/-- `i<ip>`. -/
def ipField (ip : FieldValue) : List Byte := 105 :: 60 :: (ip.value ++ [62])

/-- `p<port>`. -/
def portField (port : FieldValue) : List Byte := 112 :: 60 :: (port.value ++ [62])

/-- `|p<port>`, or nothing. -/
def portPart : Option FieldValue → List Byte
  | none => []
  | some port => fieldSeparator :: portField port

namespace ConnectionString

/-- The string itself. -/
def text (s : ConnectionString) : List Byte :=
  match s.ip with
  | none => s.path ++ portPart s.port
  | some ip => s.path ++ fieldSeparator :: (ipField ip ++ portPart s.port)

/-- The ip text the string stores, empty without an ip field. -/
def ipText (s : ConnectionString) : List Byte :=
  match s.ip with
  | none => []
  | some ip => shownIp (ipField ip ++ portPart s.port)

/-- The port the string stores. -/
def portValue (s : ConnectionString) : Int :=
  match s.port with
  | none => noPort
  | some port => int32 (numeral port.value)

/-- The checks the parser makes. -/
structure Accepted (s : ConnectionString) : Prop where
  path : s.path.length ≤ 949
  ip : ∀ ip, s.ip = some ip → IpAccepted (ipField ip ++ portPart s.port)
  port : ∀ port, s.port = some port → validPortNumber (int32 (numeral port.value)) = true

/-- The connection the string names. -/
def connection (s : ConnectionString) : Connection := ⟨s.portValue, s.ipText, s.path⟩

end ConnectionString

/-! ## Reading the parts -/

theorem FieldValue.nulFree (v : FieldValue) : NulFree v.value := fun b member nul => by
  have := v.inside b member
  rw [nul] at this; cases this

theorem ConnectionString.path_nulFree (s : ConnectionString) : NulFree s.path := fun b member nul => by
  have := s.pathInside b member
  rw [nul] at this; cases this

theorem ConnectionString.path_noSeparator (s : ConnectionString) : fieldSeparator ∉ s.path := fun member => by
  have := s.pathInside _ member
  cases this

theorem ipField_nulFree (ip : FieldValue) : NulFree (ipField ip) := by
  simp [ipField, ip.nulFree]

theorem portPart_nulFree (port : Option FieldValue) : NulFree (portPart port) := by
  cases port with
  | none => simp [portPart]
  | some port => simp [portPart, portField, port.nulFree, fieldSeparator]

/-- The value between the angle brackets, and the delimiter behind it. -/
theorem valueOf_bracketed (letter : Byte) (v : FieldValue) (rest : Memory) :
    valueOf (letter :: 60 :: (v.value ++ [62]) ++ rest) = v.value ∧
      onFrom endOfValue (skip 60 (letter :: 60 :: (v.value ++ [62]) ++ rest).tail) = 62 :: rest := by
  have pointer : skip 60 (letter :: 60 :: (v.value ++ [62]) ++ rest).tail = v.value ++ 62 :: rest := by
    simp
  unfold valueOf
  rw [pointer]
  exact ⟨upTo_delimited v.inside rfl _, onFrom_delimited v.inside rfl _⟩

/-- The value of a bracketed ip field. -/
theorem valueOf_ipField (ip : FieldValue) (rest : Memory) : valueOf (ipField ip ++ rest) = ip.value :=
  (valueOf_bracketed 105 ip rest).1

theorem readIpField_bracketed (ip : FieldValue) (port : Option FieldValue) (t : Memory) :
    readIpField (ipField ip ++ portPart port ++ 0 :: t) =
      if IpAccepted (ipField ip ++ portPart port) then
        some (shownIp (ipField ip ++ portPart port), portPart port ++ 0 :: t)
      else none := by
  have delimiter : onFrom endOfValue (skip 60 (ipField ip ++ portPart port).tail) = 62 :: portPart port :=
    (valueOf_bracketed 105 ip (portPart port)).2
  rw [readIpField_ip rfl (nulFree_append.2 ⟨ipField_nulFree ip, portPart_nulFree port⟩),
    behindIp_delimited delimiter]

theorem readPortField_bracketed (port : Option FieldValue) (t : Memory) :
    readPortField (skip fieldSeparator (portPart port ++ 0 :: t)) =
      match port with
      | none => some noPort
      | some port =>
        if validPortNumber (int32 (numeral port.value)) then some (int32 (numeral port.value)) else none := by
  cases port with
  | none => rfl
  | some port =>
    have number : portOf (portField port ++ 0 :: t) = int32 (numeral port.value) := by
      simp only [portOf, portField, (valueOf_bracketed 112 port _).1]
    rw [portPart, List.cons_append, skip_cons_self, readPortField_eq, number]
    rfl

/-! ## IPv6 texts -/

/-- An IPv6 text shows its colon in the first bytes of the value. -/
def FieldValue.ipv6 (ip : FieldValue) : Prop := 58 ∈ ip.value.take 46

instance (ip : FieldValue) : Decidable ip.ipv6 := inferInstanceAs (Decidable (_ ∈ _))

/-- The text that an ip value stands for, in square brackets when it is an IPv6 text. -/
def FieldValue.shown (ip : FieldValue) : List Byte :=
  if ip.ipv6 then 91 :: (ip.value ++ [93]) else ip.value

/-- The parser looks for a colon in the first 48 bytes from the field's letter on, which may take in
the port field. -/
theorem looksLikeIpv6_ipField (ip : FieldValue) (port : Option FieldValue) :
    looksLikeIpv6 (ipField ip ++ portPart port) = true ↔
      ip.ipv6 ∨ 58 ∈ (portPart port).take (45 - ip.value.length) := by
  have free := nulFree_append.2 ⟨ipField_nulFree ip, portPart_nulFree port⟩
  have first : (ipField ip ++ portPart port).take 48 =
      105 :: 60 :: (ip.value.take 46 ++ ([62] ++ portPart port).take (46 - ip.value.length)) := by
    simp [ipField, List.take_append]
  have behind : 58 ∈ ([62] ++ portPart port).take (46 - ip.value.length) ↔
      58 ∈ (portPart port).take (45 - ip.value.length) := by
    cases room : 46 - ip.value.length with
    | zero => simp [show 45 - ip.value.length = 0 by omega]
    | succ n => simp [show 45 - ip.value.length = n by omega]
  rw [looksLikeIpv6_eq, text_of_nulFree free, first, List.any_eq_true, FieldValue.ipv6, ← behind]
  simp

theorem shownIp_of_noColon (ip : FieldValue) {port : Option FieldValue} (colon : 58 ∉ portPart port) :
    shownIp (ipField ip ++ portPart port) = ip.shown := by
  have scanned : looksLikeIpv6 (ipField ip ++ portPart port) = true ↔ ip.ipv6 := by
    rw [looksLikeIpv6_ipField, or_iff_left (fun member => colon (List.mem_of_mem_take member))]
  rw [shownIp, valueOf_ipField, FieldValue.shown]
  simp only [scanned]

/-- A text without a colon fails the check when it is put into brackets. -/
theorem bracketed_invalid {v : List Byte} (free : NulFree v) (colon : 58 ∉ v) :
    looksLikeValidIp (91 :: (v ++ [93])) = false := by
  have ipv4 : looksLikeIpv6 (91 :: (v ++ [93])) = false := by
    rw [looksLikeIpv6_eq, text_of_nulFree (by simp [free]), List.any_eq_false]
    intro b member
    have inside := List.mem_of_mem_take member
    rw [beq_iff_eq]
    rintro rfl
    simp [colon] at inside
  rw [looksLikeValidIp, ipv4]
  simp [scanFor, inetAddrstrlen, ipCharacter]

/-- A colon of the port field makes an IPv4 text fail: it gets brackets, which no IPv4 text has. -/
theorem shownIp_ipField {ip : FieldValue} {port : Option FieldValue}
    (accepted : IpAccepted (ipField ip ++ portPart port)) :
    shownIp (ipField ip ++ portPart port) = ip.shown := by
  have scanned := looksLikeIpv6_ipField ip port
  obtain ⟨-, valid⟩ := accepted
  unfold shownIp at valid ⊢
  rw [valueOf_ipField] at valid ⊢
  unfold FieldValue.shown
  by_cases colon : ip.ipv6
  · rw [if_pos (scanned.2 (.inl colon)), if_pos colon]
  · rw [if_neg colon]
    split
    case isFalse => rfl
    rename_i bracketed
    exfalso
    have stray := (scanned.1 bracketed).resolve_left colon
    have short : ip.value.length < 45 := by
      by_contra long
      simp [show 45 - ip.value.length = 0 by omega] at stray
    have absent : 58 ∉ ip.value := by
      rwa [FieldValue.ipv6, List.take_of_length_le (by omega)] at colon
    rw [if_pos bracketed, bracketed_invalid ip.nulFree absent] at valid
    cases valid

/-! ## The whole string -/

/-- What the parser does with a bracketed string, as the chain of its checks. -/
theorem ConnectionString.parse_eq (s : ConnectionString) (t : Memory) :
    initializeConnectionFromString true (s.text ++ 0 :: t) =
      if s.path.length ≤ 949 then
        (match s.ip with
          | none => some []
          | some ip => if IpAccepted (ipField ip ++ portPart s.port)
              then some (shownIp (ipField ip ++ portPart s.port)) else none).bind fun ip =>
          (readPortField (skip fieldSeparator (portPart s.port ++ 0 :: t))).map fun port =>
            ⟨port, ip, s.path⟩
      else none := by
  have path := s.path_nulFree
  have bar := s.path_noSeparator
  change fillConnection ⟨noPort, [], []⟩ _ = _
  cases hip : s.ip with
  | some ip =>
    simp only [text, hip, List.append_assoc, List.cons_append]
    rw [fillConnection_fields _ path bar, ← List.append_assoc, readIpField_bracketed]
    by_cases accepted : IpAccepted (ipField ip ++ portPart s.port) <;> simp [accepted]
  | none =>
    simp only [text, hip, List.append_assoc]
    cases hport : s.port with
    | none =>
      rw [portPart, List.nil_append, fillConnection_executable _ path bar]
      rfl
    | some port =>
      have other : peek (portField port ++ 0 :: t) ≠ 105 := by simp [portField]
      have behind : skip fieldSeparator (portField port ++ 0 :: t) = portField port ++ 0 :: t :=
        skip_cons_ne (show (112 : Byte) ≠ fieldSeparator by decide) _
      rw [portPart, List.cons_append, fillConnection_fields _ path bar, readIpField_other other, skip_cons_self,
        Option.bind_some, behind]
      rfl

/-- **The parser on a bracketed string**: it stores the parts if they pass the checks, and fails
otherwise. -/
theorem ConnectionString.parse_iff (s : ConnectionString) (t : Memory) (c : Connection) :
    initializeConnectionFromString true (s.text ++ 0 :: t) = some c ↔ s.Accepted ∧ s.connection = c := by
  rw [s.parse_eq t, readPortField_bracketed]
  have accepted_iff : s.Accepted ↔ s.path.length ≤ 949 ∧
      (∀ ip, s.ip = some ip → IpAccepted (ipField ip ++ portPart s.port)) ∧
      ∀ port, s.port = some port → validPortNumber (int32 (numeral port.value)) = true :=
    ⟨fun a => ⟨a.path, a.ip, a.port⟩, fun a => ⟨a.1, a.2.1, a.2.2⟩⟩
  rw [accepted_iff, connection, portValue, ipText]
  by_cases fits : s.path.length ≤ 949
  case neg => simp [fits]
  cases hip : s.ip with
  | none =>
    cases hport : s.port with
    | none => simp [fits]
    | some port => by_cases valid : validPortNumber (int32 (numeral port.value)) = true <;> simp [fits, valid]
  | some ip =>
    by_cases passed : IpAccepted (ipField ip ++ portPart s.port)
    case neg => simp [fits, passed]
    cases hport : s.port with
    | none =>
      rw [hport] at passed
      simp [fits, passed]
    | some port =>
      rw [hport] at passed
      by_cases valid : validPortNumber (int32 (numeral port.value)) = true <;> simp [fits, passed, valid]

theorem ConnectionString.parse (s : ConnectionString) (t : Memory) (accepted : s.Accepted) :
    initializeConnectionFromString true (s.text ++ 0 :: t) = some s.connection :=
  (s.parse_iff t _).2 ⟨accepted, rfl⟩

end Netlog
