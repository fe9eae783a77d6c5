import SecuritySuite.Netlog.Connection

/-!
# What the parser reads off a string

`fillConnection` in closed form, over a text `s` with any memory behind its terminator
(`s ++ 0 :: t`). Each loop is replaced by the text it stops at: `shownIp` is what the ip field
stores, `portOf` what the port field stores, `behindIp` where the pointer stands behind an ip
field. That position is the one place where the memory behind the terminator comes in.
-/

namespace Netlog
set_option autoImplicit false
open CString

/-- The value of a field: what follows its letter and an optional `'<'`. -/
def valueOf (field : Memory) : List Byte := upTo endOfValue (skip 60 field.tail)

/-- The ip an ip field stores: an IPv6 text gets brackets. -/
def shownIp (field : List Byte) : List Byte :=
  if looksLikeIpv6 field then 91 :: (valueOf field ++ [93]) else valueOf field

/-- The checks on an ip field: it fits, and its first characters are those of an address. -/
def IpAccepted (field : List Byte) : Prop :=
  (valueOf field).length ≤ (if looksLikeIpv6 field then 47 else 48) ∧
    looksLikeValidIp (shownIp field) = true

instance (field : List Byte) : Decidable (IpAccepted field) :=
  inferInstanceAs (Decidable (_ ∧ _))

/-- The number a port field stores. -/
def portOf (field : Memory) : Int := int32 (numeral (valueOf field))

/-- Where the pointer stands behind an ip field: one byte behind its delimiter, and behind the
terminator when the field is ended by the end of the string. -/
def behindIp (field : List Byte) (t : Memory) : Memory :=
  match onFrom endOfValue (skip 60 field.tail) with
  | [] => t
  | _ :: rest => rest ++ 0 :: t

/-! ## Delimiters -/

@[simp] theorem endOfValue_nul : endOfValue 0 = true := rfl

theorem endOfPath_iff {b : Byte} : endOfPath b = true ↔ b = 124 ∨ b = 0 := by
  simp [endOfPath, fieldSeparator]

theorem endOfValue_false {b : Byte} (gt : b ≠ 62) (nul : b ≠ 0) (bar : b ≠ 124) : endOfValue b = false := by
  simp [endOfValue, fieldSeparator, gt, nul, bar]

/-- A path has no separator and no terminator in it. -/
theorem path_inside {path : List Byte} (free : NulFree path) (bar : fieldSeparator ∉ path) :
    ∀ b ∈ path, endOfPath b = false := by
  intro b member
  have : b ≠ fieldSeparator := fun h => bar (h ▸ member)
  simp [endOfPath, this, free b member]

theorem valueOf_terminated {b : Byte} (field : List Byte) (t : Memory) :
    valueOf ((b :: field) ++ 0 :: t) = valueOf (b :: field) := by
  simp only [valueOf, List.cons_append, List.tail_cons]
  rw [skip_terminated (by decide), upTo_terminated rfl]

theorem portOf_terminated {b : Byte} (field : List Byte) (t : Memory) :
    portOf ((b :: field) ++ 0 :: t) = portOf (b :: field) := by
  simp only [portOf, valueOf_terminated]

/-! ## The fields -/

/-- The ip field: both checks, then the stored text and the pointer. -/
theorem readIp_terminated {field : List Byte} (letter : field ≠ []) (free : NulFree field) (t : Memory) :
    readIp (field ++ 0 :: t) =
      if IpAccepted field then some (shownIp field, behindIp field t) else none := by
  obtain ⟨b, rest, rfl⟩ := List.exists_cons_of_ne_nil letter
  have value : skip 60 (rest ++ 0 :: t) = skip 60 rest ++ 0 :: t := skip_terminated (by decide) _ _
  have delimiter : (onFrom endOfValue (skip 60 rest) ++ 0 :: t).tail = behindIp (b :: rest) t := by
    simp only [behindIp, List.tail_cons]
    split <;> rename_i h <;> simp [h]
  have copied : upTo endOfValue (skip 60 rest) = valueOf (b :: rest) := rfl
  rw [readIp, looksLikeIpv6_terminated free]
  simp only [List.cons_append, List.tail_cons, value, copyUntil_eq, upTo_terminated endOfValue_nul,
    onFrom_terminated endOfValue_nul, inet6Addrstrlen, copied]
  by_cases fits : (valueOf (b :: rest)).length ≤ if looksLikeIpv6 (b :: rest) = true then 48 - 1 else 48
  · rw [if_pos fits]
    simp only [IpAccepted, delimiter, shownIp]
    simp only [show (48 - 1 : Nat) = 47 from rfl] at fits
    simp only [fits, true_and]
  · rw [if_neg fits]
    simp only [show (48 - 1 : Nat) = 47 from rfl] at fits
    simp only [IpAccepted, fits, false_and, if_false]

/-- The port field: the folded number and the range check. -/
theorem readPort_eq (ch : Memory) :
    readPort ch = if validPortNumber (portOf ch) then some (portOf ch) else none := by
  simp only [readPort, foldBackwards_eq]
  rfl

theorem readPortField_eq (ch : Memory) :
    readPortField ch = if peek ch = 112 then
      if validPortNumber (portOf ch) then some (portOf ch) else none else some noPort := by
  rw [readPortField, readPort_eq]

/-- A port field is read from its string alone. -/
theorem readPortField_terminated (s : List Byte) (t : Memory) :
    readPortField (s ++ 0 :: t) = readPortField s := by
  rw [readPortField_eq, readPortField_eq]
  cases s with
  | nil => simp
  | cons b s =>
    rw [portOf_terminated]
    rfl

/-! ## The whole string -/

/-- The path is copied up to the separator or the terminator. -/
theorem fillConnection_path (new : Connection) {path : List Byte} (free : NulFree path)
    (bar : fieldSeparator ∉ path) {d : Byte} (delimiter : endOfPath d = true) (rest : Memory) :
    fillConnection new (path ++ d :: rest) =
      if path.length ≤ 949 then
        (readIpField (skip fieldSeparator (d :: rest))).bind fun r =>
          (readPortField (skip fieldSeparator r.2)).map fun port => ⟨port, r.1, path⟩
      else none := by
  have inside := path_inside free bar
  rw [fillConnection, copyUntil_eq, upTo_delimited inside delimiter, onFrom_delimited inside delimiter]
  simp only [maxAbsoluteExecPath]
  by_cases fits : path.length ≤ 949
  · simp only [fits, if_true, Option.bind_eq_bind, Option.bind_some]
    cases readIpField (skip fieldSeparator (d :: rest)) with
    | none => rfl
    | some r =>
      simp only [Option.bind_some]
      cases readPortField (skip fieldSeparator r.2) <;> rfl
  · simp [fits]

/-- A string without a separator names an executable and nothing else. -/
theorem fillConnection_executable (new : Connection) {path : List Byte} (free : NulFree path)
    (bar : fieldSeparator ∉ path) (t : Memory) :
    fillConnection new (path ++ 0 :: t) =
      if path.length ≤ 949 then some ⟨noPort, [], path⟩ else none := by
  rw [fillConnection_path new free bar rfl]
  simp [skip, fieldSeparator, readIpField, readPortField]

/-- Behind the separator an ip field is tried first, then a port field. -/
theorem fillConnection_fields (new : Connection) {path : List Byte} (free : NulFree path)
    (bar : fieldSeparator ∉ path) (rest : Memory) :
    fillConnection new (path ++ fieldSeparator :: rest) =
      if path.length ≤ 949 then
        (readIpField rest).bind fun r =>
          (readPortField (skip fieldSeparator r.2)).map fun port => ⟨port, r.1, path⟩
      else none := by
  rw [fillConnection_path new free bar rfl, skip_cons_self]

theorem readIpField_ip {field : List Byte} (letter : peek field = 105) (free : NulFree field) (t : Memory) :
    readIpField (field ++ 0 :: t) =
      if IpAccepted field then some (shownIp field, behindIp field t) else none := by
  cases field with
  | nil => simp at letter
  | cons b rest => rw [readIpField, if_pos (by simpa using letter), readIp_terminated (by simp) free]

theorem readIpField_other {ch : Memory} (letter : peek ch ≠ 105) : readIpField ch = some ([], ch) := by
  rw [readIpField, if_neg letter]

/-- Every string is a path, or a path, a separator and a text behind it. -/
theorem path_cases (s : List Byte) :
    fieldSeparator ∉ s ∨ ∃ path rest, fieldSeparator ∉ path ∧ s = path ++ fieldSeparator :: rest := by
  by_cases bar : fieldSeparator ∈ s
  · obtain ⟨path, rest, split, before⟩ := List.eq_append_cons_of_mem bar
    exact .inr ⟨path, rest, before, split⟩
  · exact .inl bar

/-- Where the pointer stands when the port field is tried. -/
def portPointer (s : List Byte) (t : Memory) : Memory :=
  match onFrom endOfPath s with
  | [] => 0 :: t
  | _ :: field =>
    skip fieldSeparator (if peek field = 105 then behindIp field t else field ++ 0 :: t)

theorem behindIp_delimited {field rest : List Byte} {d : Byte}
    (scan : onFrom endOfValue (skip 60 field.tail) = d :: rest) (t : Memory) :
    behindIp field t = rest ++ 0 :: t := by
  simp [behindIp, scan]

theorem portPointer_ip {s field : List Byte} {d : Byte} (scan : onFrom endOfPath s = d :: field)
    (letter : peek field = 105) (t : Memory) : portPointer s t = skip fieldSeparator (behindIp field t) := by
  simp [portPointer, scan, letter]

theorem portPointer_other {s field : List Byte} {d : Byte} (scan : onFrom endOfPath s = d :: field)
    (letter : peek field ≠ 105) (t : Memory) :
    portPointer s t = skip fieldSeparator field ++ 0 :: t := by
  simp [portPointer, scan, letter, skip_terminated (b := fieldSeparator) (by decide)]

/-- The ip text the parser stores. -/
def storedIp (s : List Byte) : List Byte :=
  match onFrom endOfPath s with
  | [] => []
  | _ :: field => if peek field = 105 then shownIp field else []

/-- The port the parser stores. -/
def storedPort (s : List Byte) (t : Memory) : Int :=
  if peek (portPointer s t) = 112 then portOf (portPointer s t) else noPort

/-- The string is rejected before the port field is tried: the path does not fit, or the ip value
does not fit or has a wrong character. -/
inductive StoppedEarly (s : List Byte) : Prop
  | path : 949 < (upTo endOfPath s).length → StoppedEarly s
  | ip (field : List Byte) : onFrom endOfPath s = fieldSeparator :: field → peek field = 105 →
      ¬ IpAccepted field → StoppedEarly s

/-- One of the parser's three checks rejects the string; the third is the range of the port. -/
inductive Stopped (s : List Byte) (t : Memory) : Prop
  | early : StoppedEarly s → Stopped s t
  | port : peek (portPointer s t) = 112 → validPortNumber (portOf (portPointer s t)) = false →
      Stopped s t

/-- The scan of the path, in a string without a separator and in one with it. -/
theorem scan_executable {s : List Byte} (free : NulFree s) (bar : fieldSeparator ∉ s) :
    upTo endOfPath s = s ∧ onFrom endOfPath s = [] := by
  have inside := path_inside free bar
  constructor
  · simpa [upTo, List.takeWhile_eq_self_iff] using inside
  · simpa [onFrom, List.dropWhile_eq_nil_iff] using inside

theorem scan_path {path : List Byte} (free : NulFree path) (bar : fieldSeparator ∉ path) (field : List Byte) :
    upTo endOfPath (path ++ fieldSeparator :: field) = path ∧
      onFrom endOfPath (path ++ fieldSeparator :: field) = fieldSeparator :: field :=
  ⟨upTo_delimited (path_inside free bar) rfl _, onFrom_delimited (path_inside free bar) rfl _⟩

/-- The path check and the ip check come first, and then the port field decides. -/
theorem parse_eq {s : List Byte} (free : NulFree s) (t : Memory) :
    (StoppedEarly s → initializeConnectionFromString true (s ++ 0 :: t) = none) ∧
      (¬ StoppedEarly s → initializeConnectionFromString true (s ++ 0 :: t) =
        (readPortField (portPointer s t)).map fun port => ⟨port, storedIp s, upTo endOfPath s⟩) := by
  rcases path_cases s with bar | ⟨path, field, bar, rfl⟩
  · obtain ⟨whole, scan⟩ := scan_executable free bar
    rw [show initializeConnectionFromString true (s ++ 0 :: t) = _ from
      fillConnection_executable ⟨noPort, [], []⟩ free bar t]
    constructor
    · rintro (long | ⟨_, behind, -, -⟩)
      · rw [whole] at long
        rw [if_neg (by omega)]
      · rw [scan] at behind; cases behind
    · intro passed
      have fits : s.length ≤ 949 := by
        by_contra long
        exact passed (.path (by rw [whole]; omega))
      simp [fits, portPointer, storedIp, scan, whole, readPortField]
  · have freePath : NulFree path := (nulFree_append.1 free).1
    have freeField : NulFree field := free.sublist fun b hb => by simp [hb]
    obtain ⟨before, scan⟩ := scan_path freePath bar field
    rw [List.append_assoc, List.cons_append, show initializeConnectionFromString true
      (path ++ fieldSeparator :: (field ++ 0 :: t)) = _ from
        fillConnection_fields ⟨noPort, [], []⟩ freePath bar (field ++ 0 :: t)]
    by_cases letter : peek field = 105
    · have ip := readIpField_ip letter freeField t
      constructor
      · rintro (long | ⟨_, behind, -, rejected⟩)
        · rw [before] at long
          rw [if_neg (by omega)]
        · rw [scan] at behind; cases behind
          simp [ip, rejected]
      · intro passed
        have fits : path.length ≤ 949 := by
          by_contra long
          exact passed (.path (by rw [before]; omega))
        have accepted : IpAccepted field := by
          by_contra rejected
          exact passed (.ip field scan letter rejected)
        simp [ip, accepted, fits, portPointer, storedIp, scan, letter, before]
    · have other : peek (field ++ 0 :: t) ≠ 105 := by
        cases field with
        | nil => simp
        | cons b rest => simpa using letter
      rw [readIpField_other other]
      constructor
      · rintro (long | ⟨_, behind, letter', -⟩)
        · rw [before] at long
          rw [if_neg (by omega)]
        · rw [scan] at behind; cases behind; exact absurd letter' letter
      · intro passed
        have fits : path.length ≤ 949 := by
          by_contra long
          exact passed (.path (by rw [before]; omega))
        simp [fits, portPointer, storedIp, scan, letter, before]

/-- **The parser in closed form**: the stored texts, unless a check stops it. -/
theorem parse_cases {s : List Byte} (free : NulFree s) (t : Memory) :
    Stopped s t ∧ initializeConnectionFromString true (s ++ 0 :: t) = none ∨
      ¬ Stopped s t ∧ initializeConnectionFromString true (s ++ 0 :: t) =
        some ⟨storedPort s t, storedIp s, upTo endOfPath s⟩ := by
  obtain ⟨rejected, passed⟩ := parse_eq free t
  by_cases early : StoppedEarly s
  case pos => exact .inl ⟨.early early, rejected early⟩
  have result := passed early
  rw [readPortField_eq] at result
  by_cases letter : peek (portPointer s t) = 112
  case neg =>
    refine .inr ⟨?_, by simpa [storedPort, letter] using result⟩
    rintro (stopped | ⟨letter', -⟩)
    · exact early stopped
    · exact letter letter'
  rw [if_pos letter] at result
  cases valid : validPortNumber (portOf (portPointer s t)) with
  | false => exact .inl ⟨.port letter valid, by simpa [valid] using result⟩
  | true =>
    refine .inr ⟨?_, by simpa [valid, storedPort, letter] using result⟩
    rintro (stopped | ⟨-, invalid⟩)
    · exact early stopped
    · rw [valid] at invalid; cases invalid

end Netlog
