import SecuritySuite.Netlog.ConnectionReading

/-!
# The documented format and what the parser accepts

`Sentence` is the format of the comment above `initialize_connection_from_string` and of the
readme. The parser accepts more: it tests the path for its length only, the ip field for its
characters and the port field for its value, and it returns a connection whatever stands where a
field was expected. `fails_closed_iff` says for which strings it nevertheless keeps to the format.

Behind an ip field the pointer is moved past the delimiter without a test. When the string ends
inside the ip field the delimiter is the terminator, and the port field is looked for in the
memory behind it (`same_result_iff`).
-/

namespace Netlog
set_option autoImplicit false
open CString

/-! ## The format -/

/-- An absolute path that can stand in a connection string. -/
structure IsPath (path : List Byte) : Prop where
  absolute : ∃ rest, path = 47 :: rest
  noSeparator : fieldSeparator ∉ path

/-- A field: its letter, an optional `'<'`, a value, an optional `'>'`. A `'<'` right behind the
letter is the delimiter, not part of the value. -/
structure IsField (letter : Byte) (field value : List Byte) : Prop where
  shape : ∃ lt gt, field = letter :: (lt ++ (value ++ gt)) ∧
    (lt = [60] ∨ lt = [] ∧ peek value ≠ 60) ∧ (gt = [] ∨ gt = [62])
  nonempty : value ≠ []
  inside : ∀ b ∈ value, b ≠ 62 ∧ b ≠ fieldSeparator

/-- `Sentence s hasIp hasPort`: `s` has the documented format, with or without each field. -/
inductive Sentence : List Byte → Bool → Bool → Prop
  | path {p : List Byte} : IsPath p → Sentence p false false
  | ip {p f v : List Byte} : IsPath p → IsField 105 f v → Sentence (p ++ fieldSeparator :: f) true false
  | port {p f v : List Byte} : IsPath p → IsField 112 f v → Sentence (p ++ fieldSeparator :: f) false true
  | ipPort {p f g v w : List Byte} : IsPath p → IsField 105 f v → IsField 112 g w →
      Sentence (p ++ fieldSeparator :: (f ++ fieldSeparator :: g)) true true

/-- The parser keeps to the format at `s`, whose terminator is followed by `t`: what it accepts is
a sentence, and the connection carries each restriction the sentence writes. -/
def FailsClosed (s : List Byte) (t : Memory) : Prop :=
  ∀ connection, initializeConnectionFromString true (s ++ 0 :: t) = some connection →
    ∃ hasIp hasPort, Sentence s hasIp hasPort ∧ (connection.ip ≠ [] ↔ hasIp = true) ∧
      (connection.port ≠ noPort ↔ hasPort = true)

/-- The string `path|field` ends inside an ip field: neither `'>'` nor a separator follows the
value. -/
structure EndsInIp (s path field : List Byte) : Prop where
  split : s = path ++ fieldSeparator :: field
  before : fieldSeparator ∉ path
  letter : peek field = 105
  ended : onFrom endOfValue (skip 60 field.tail) = []

theorem IsField.starts {letter : Byte} {field value : List Byte} (h : IsField letter field value) :
    ∃ rest, field = letter :: rest := by
  obtain ⟨lt, gt, rfl, -, -⟩ := h.shape
  exact ⟨_, rfl⟩

theorem IsField.letter {letter : Byte} {field value : List Byte} (h : IsField letter field value) :
    peek field = letter := by
  obtain ⟨rest, rfl⟩ := h.starts
  rfl

/-- A field has no separator in it. -/
theorem IsField.noSeparator {letter : Byte} {field value : List Byte} (h : IsField letter field value)
    (ne : letter ≠ fieldSeparator) : fieldSeparator ∉ field := by
  obtain ⟨lt, gt, rfl, opening, closing⟩ := h.shape
  have absent : fieldSeparator ∉ value := fun member => (h.inside _ member).2 rfl
  have lt' : fieldSeparator ∉ lt := by rcases opening with rfl | ⟨rfl, -⟩ <;> simp [fieldSeparator]
  have gt' : fieldSeparator ∉ gt := by rcases closing with rfl | rfl <;> simp [fieldSeparator]
  simp [ne.symm, absent, lt', gt']

/-- What a field of the format stores: the pointer stands at the value, and the delimiter or the
end of the text is behind it. -/
theorem IsField.reads {letter : Byte} {field value : List Byte} (h : IsField letter field value)
    (free : NulFree field) (rest : Memory) (ended : rest = [] ∨ ∃ r, rest = fieldSeparator :: r) :
    valueOf (field ++ rest) = value ∧
      (onFrom endOfValue (skip 60 (field ++ rest).tail) = rest ∨
        onFrom endOfValue (skip 60 (field ++ rest).tail) = 62 :: rest) := by
  obtain ⟨lt, gt, rfl, opening, closing⟩ := h.shape
  have nul : NulFree value := free.sublist fun b hb => by simp [hb]
  have inside : ∀ b ∈ value, endOfValue b = false := fun b hb =>
    endOfValue_false (h.inside b hb).1 (nul b hb) (h.inside b hb).2
  have pointer : skip 60 ((letter :: (lt ++ (value ++ gt))) ++ rest).tail = value ++ (gt ++ rest) := by
    obtain ⟨b, v, rfl⟩ := List.exists_cons_of_ne_nil h.nonempty
    rcases opening with rfl | ⟨rfl, ne⟩
    · simp
    · simpa using skip_cons_ne (by simpa using ne) _
  unfold valueOf
  rw [pointer]
  have whole : upTo endOfValue value = value ∧ onFrom endOfValue value = [] := by
    simpa [upTo, onFrom, List.takeWhile_eq_self_iff, List.dropWhile_eq_nil_iff] using inside
  rcases closing with rfl | rfl
  · rcases ended with rfl | ⟨r, rfl⟩
    · exact ⟨by simpa using whole.1, .inl (by simpa using whole.2)⟩
    · simp [upTo_delimited inside (d := fieldSeparator) rfl,
        onFrom_delimited inside (d := fieldSeparator) rfl]
  · simp [upTo_delimited inside (d := 62) rfl, onFrom_delimited inside (d := 62) rfl]

/-- A port field is the last field of a sentence. -/
theorem Sentence.last_of_port {path field : List Byte} {hasIp hasPort : Bool}
    (sentence : Sentence (path ++ fieldSeparator :: field) hasIp hasPort) (before : fieldSeparator ∉ path)
    (letter : peek field = 112) : fieldSeparator ∉ field := by
  generalize split : path ++ fieldSeparator :: field = s at sentence
  cases sentence with
  | path isPath => exact absurd (by simp [← split]) isPath.noSeparator
  | ip isPath isField =>
    obtain ⟨-, rfl⟩ := split_unique before isPath.noSeparator split
    rw [isField.letter] at letter; cases letter
  | port isPath isField =>
    obtain ⟨-, rfl⟩ := split_unique before isPath.noSeparator split
    exact isField.noSeparator (by decide)
  | ipPort isPath isField isField' =>
    obtain ⟨-, rfl⟩ := split_unique before isPath.noSeparator split
    obtain ⟨rest, rfl⟩ := isField.starts
    cases letter

/-- A sentence has one reading: a string that ends inside an ip field has no port field. -/
theorem Sentence.no_port_of_endsInIp {s path field : List Byte} {hasIp hasPort : Bool}
    (sentence : Sentence s hasIp hasPort) (ends : EndsInIp s path field) : hasPort = false := by
  obtain ⟨split, before, letter, scan⟩ := ends
  cases sentence with
  | path isPath => rfl
  | ip isPath isField => rfl
  | port isPath isField =>
    obtain ⟨-, rfl⟩ := split_unique isPath.noSeparator before split
    obtain ⟨lt, gt, rfl, -, -⟩ := isField.shape
    simp at letter
  | @ipPort p f g v w isPath isField isField' =>
    obtain ⟨-, rfl⟩ := split_unique isPath.noSeparator before split
    -- the second separator is a delimiter, so the scan of the value stops before the end
    obtain ⟨lt, gt, rfl, -, -⟩ := isField.shape
    have inside : ∀ b ∈ skip 60 (lt ++ (v ++ gt) ++ fieldSeparator :: g), endOfValue b = false := by
      simpa [onFrom] using scan
    have bar : fieldSeparator ∈ skip 60 (lt ++ (v ++ gt) ++ fieldSeparator :: g) := by
      cases lt ++ (v ++ gt) with
      | nil => simp [skip, fieldSeparator]
      | cons b rest =>
        by_cases same : b = 60 <;> simp [skip, same]
    have := inside _ bar
    simp [endOfValue] at this

/-! ## The memory behind the terminator -/

/-- Unless the string ends inside an ip field, the pointer stays inside it. -/
theorem portPointer_inside {s : List Byte} (free : NulFree s)
    (closed : ∀ path field, ¬ EndsInIp s path field) : ∃ u, ∀ t, portPointer s t = u ++ 0 :: t := by
  rcases path_cases s with bar | ⟨path, field, bar, rfl⟩
  · exact ⟨[], fun t => by simp [portPointer, (scan_executable free bar).2]⟩
  · have scan := (scan_path (nulFree_append.1 free).1 bar field).2
    by_cases letter : peek field = 105
    case neg =>
      exact ⟨skip fieldSeparator field, portPointer_other scan letter⟩
    -- the ip value is followed by a delimiter, which is the byte stepped over
    cases ended : onFrom endOfValue (skip 60 field.tail) with
    | nil => exact absurd ⟨rfl, bar, letter, ended⟩ (closed path field)
    | cons d rest =>
      exact ⟨skip fieldSeparator rest, fun t => by
        rw [portPointer_ip scan letter, behindIp_delimited ended, skip_terminated (by decide)]⟩

/-- When it does, the port field is looked for behind the terminator. -/
theorem EndsInIp.portPointer {s path field : List Byte} (h : EndsInIp s path field) (free : NulFree s)
    (t : Memory) : portPointer s t = skip fieldSeparator t := by
  obtain ⟨rfl, before, letter, ended⟩ := h
  have scan := (scan_path (nulFree_append.1 free).1 before field).2
  simp [portPointer_ip scan letter, behindIp, ended]

/-- Such a string reaches the port field when its path and its ip text pass their checks. -/
theorem EndsInIp.passes_iff {s path field : List Byte} (h : EndsInIp s path field) (free : NulFree s) :
    ¬ StoppedEarly s ↔ path.length ≤ 949 ∧ IpAccepted field := by
  obtain ⟨rfl, before, letter, -⟩ := h
  obtain ⟨whole, scan⟩ := scan_path (nulFree_append.1 free).1 before field
  constructor
  · intro passed
    constructor
    · by_contra long
      exact passed (.path (by rw [whole]; omega))
    · by_contra rejected
      exact passed (.ip field scan letter rejected)
  · rintro ⟨fits, accepted⟩ (long | ⟨_, behind, -, rejected⟩)
    · rw [whole] at long; omega
    · rw [scan] at behind; cases behind; exact rejected accepted

/-- A string that does not end so, or is rejected before the port field, is read the same in every
memory. -/
theorem parse_local {s : List Byte} (free : NulFree s)
    (closed : ¬ StoppedEarly s → ∀ path field, ¬ EndsInIp s path field) (t : Memory) :
    initializeConnectionFromString true (s ++ 0 :: t) = initializeConnectionFromString true (s ++ [0]) := by
  by_cases early : StoppedEarly s
  · rw [(parse_eq free t).1 early, (parse_eq free []).1 early]
  · obtain ⟨u, inside⟩ := portPointer_inside free (closed early)
    rw [(parse_eq free t).2 early, (parse_eq free []).2 early, inside, inside, readPortField_terminated,
      readPortField_terminated]

/-- **The parser looks at nothing but the string** exactly when the string does not end inside an
ip field whose path and ip text pass their checks: only then is a byte behind the terminator
looked at, and it can change the result. -/
theorem same_result_iff {s : List Byte} (free : NulFree s) :
    (∀ kmalloc t t', initializeConnectionFromString kmalloc (s ++ 0 :: t) =
        initializeConnectionFromString kmalloc (s ++ 0 :: t')) ↔
      ¬ ∃ path field, EndsInIp s path field ∧ path.length ≤ 949 ∧ IpAccepted field := by
  constructor
  · rintro same ⟨path, field, ends, passes⟩
    have early := (ends.passes_iff free).2 passes
    -- with nothing behind it the string is accepted; an empty port field there makes it fail
    have empty := (parse_eq free []).2 early
    have stray := (parse_eq free [112]).2 early
    rw [ends.portPointer free] at empty stray
    rw [same true [] [112], stray] at empty
    revert empty
    have rejected : readPortField (skip fieldSeparator [112]) = none := by decide +kernel
    have none : readPortField (skip fieldSeparator []) = some noPort := rfl
    rw [rejected, none]
    simp
  · intro closed kmalloc t t'
    cases kmalloc with
    | false => rfl
    | true =>
      have read := parse_local free fun early path field ends =>
        closed ⟨path, field, ends, (ends.passes_iff free).1 early⟩
      rw [read t, read t']

/-- With its `'>'` an ip field is read from the string alone. -/
theorem same_result_bracketed :
    initializeConnectionFromString true (bytes "/usr/bin/sshd|i<127.0.0.1>" ++ 0 :: []) =
      initializeConnectionFromString true (bytes "/usr/bin/sshd|i<127.0.0.1>" ++ 0 :: bytes "p22") := by
  refine (same_result_iff (by decide +kernel)).2 ?_ true [] (bytes "p22")
  rintro ⟨path, field, ⟨split, before, -, ended⟩, -⟩
  have first : fieldSeparator ∉ bytes "/usr/bin/sshd" := by decide +kernel
  have literal : bytes "/usr/bin/sshd|i<127.0.0.1>" =
      bytes "/usr/bin/sshd" ++ fieldSeparator :: bytes "i<127.0.0.1>" := by decide +kernel
  obtain ⟨rfl, rfl⟩ := split_unique first before (literal.symm.trans split)
  revert ended
  decide +kernel

/-- The string `/a|i1.2.3.4` in two buffers that differ behind its terminator: followed by another
terminator, and followed by `p22`. -/
theorem same_result_fails :
    ¬ ∀ s, NulFree s → ∀ kmalloc t t', initializeConnectionFromString kmalloc (s ++ 0 :: t) =
      initializeConnectionFromString kmalloc (s ++ 0 :: t') := by
  intro claim
  have same := claim (bytes "/a|i1.2.3.4") (by decide +kernel) true [0]
    (bytes "p22")
  revert same
  decide +kernel

/-! ## Failing closed -/

theorem portOf_valid {ch : Memory} (valid : validPortNumber (portOf ch) = true) : portOf ch ≠ noPort := by
  have range := validPortNumber_iff.1 valid
  unfold noPort
  omega

theorem shownIp_ne_nil {field : List Byte} (value : valueOf field ≠ []) : shownIp field ≠ [] := by
  unfold shownIp
  split
  · simp
  · exact value

/-- An ip field behind a path is stored. -/
theorem IsField.storedIp_ne_nil {p f v : List Byte} (isField : IsField 105 f v) (isPath : IsPath p) (freePath : NulFree p)
    (freeField : NulFree f) {rest : Memory} (ended : rest = [] ∨ ∃ r, rest = fieldSeparator :: r) :
    storedIp (p ++ fieldSeparator :: (f ++ rest)) ≠ [] := by
  have scan := (scan_path freePath isPath.noSeparator (f ++ rest)).2
  obtain ⟨value, -⟩ := isField.reads freeField rest ended
  have letter : peek (f ++ rest) = 105 := by
    obtain ⟨behind, rfl⟩ := isField.starts
    rfl
  simpa [storedIp, scan, letter] using shownIp_ne_nil (by rw [value]; exact isField.nonempty)

/-- The fields of a sentence are carried, as long as the pointer stays inside it. -/
theorem Sentence.carried {s : List Byte} {hasIp hasPort : Bool} (sentence : Sentence s hasIp hasPort)
    (free : NulFree s) {t : Memory} (passed : ¬ Stopped s t)
    (inside : ∀ path field, EndsInIp s path field → peek (skip fieldSeparator t) ≠ 112) :
    (storedIp s ≠ [] ↔ hasIp = true) ∧ (storedPort s t ≠ noPort ↔ hasPort = true) := by
  have port : peek (portPointer s t) = 112 → storedPort s t ≠ noPort := by
    intro letter
    rw [storedPort, if_pos letter]
    apply portOf_valid
    by_contra invalid
    exact passed (.port letter (by simpa using invalid))
  have noPortField : peek (portPointer s t) ≠ 112 → storedPort s t = noPort := fun letter => by
    rw [storedPort, if_neg letter]
  cases sentence with
  | path isPath =>
    have scan := (scan_executable free isPath.noSeparator).2
    have := noPortField (by simp [portPointer, scan])
    simp [storedIp, scan, this]
  | @ip p f v isPath isField =>
    obtain ⟨freePath, -, freeField⟩ := by simpa using free
    have scan := (scan_path freePath isPath.noSeparator f).2
    have behind := (isField.reads freeField [] (.inl rfl)).2
    have ip := isField.storedIp_ne_nil isPath freePath freeField (.inl rfl)
    rw [List.append_nil] at behind ip
    have letter : peek f = 105 := isField.letter
    have absent := noPortField (by
      rcases behind with ended | closed
      · have ends : EndsInIp _ p f := ⟨rfl, isPath.noSeparator, letter, ended⟩
        rw [ends.portPointer free]
        exact inside p f ends
      · rw [portPointer_ip scan letter, behindIp_delimited closed]
        simp [skip_cons_ne (b := fieldSeparator) (c := 0) (by decide)])
    simp [ip, absent]
  | @port p f v isPath isField =>
    obtain ⟨freePath, -, freeField⟩ := by simpa using free
    have scan := (scan_path freePath isPath.noSeparator f).2
    have letter : peek f = 112 := isField.letter
    have pointer : peek (portPointer (p ++ fieldSeparator :: f) t) = 112 := by
      obtain ⟨rest, rfl⟩ := isField.starts
      rw [portPointer_other scan (by simp), skip_cons_ne (by decide)]
      rfl
    simp [storedIp, scan, letter, port pointer]
  | @ipPort p f g v w isPath isField isField' =>
    obtain ⟨freePath, -, freeField, -, freeField'⟩ := by simpa using free
    have scan := (scan_path freePath isPath.noSeparator (f ++ fieldSeparator :: g)).2
    have behind := (isField.reads freeField (fieldSeparator :: g) (.inr ⟨g, rfl⟩)).2
    have ip := isField.storedIp_ne_nil isPath freePath freeField (.inr ⟨g, rfl⟩)
    have letter : peek (f ++ fieldSeparator :: g) = 105 := by
      obtain ⟨rest, rfl⟩ := isField.starts
      rfl
    have pointer : peek (portPointer (p ++ fieldSeparator :: (f ++ fieldSeparator :: g)) t) = 112 := by
      obtain ⟨rest, rfl⟩ := isField'.starts
      rcases behind with ended | closed
      · rw [portPointer_ip scan letter, behindIp_delimited ended, List.cons_append,
          skip_cons_ne (by decide)]
        rfl
      · rw [portPointer_ip scan letter, behindIp_delimited closed, List.cons_append, skip_cons_self]
        rfl
    simp [ip, port pointer]

/-- **Failing closed.** The parser keeps to the format exactly at the strings that one of its
three checks rejects and at the sentences; of the sentences that end inside an ip field, only where
the memory behind the terminator does not show a port field. -/
theorem fails_closed_iff {s : List Byte} (free : NulFree s) (t : Memory) :
    FailsClosed s t ↔ Stopped s t ∨ (∃ hasIp hasPort, Sentence s hasIp hasPort) ∧
      ∀ path field, EndsInIp s path field → peek (skip fieldSeparator t) ≠ 112 := by
  rcases parse_cases free t with ⟨stopped, result⟩ | ⟨passed, result⟩
  · constructor
    · exact fun _ => .inl stopped
    · intro _ connection accepted
      rw [result] at accepted; cases accepted
  · constructor
    · intro closed
      obtain ⟨hasIp, hasPort, sentence, -, carries⟩ := closed _ result
      refine .inr ⟨⟨hasIp, hasPort, sentence⟩, fun path field ends stray => ?_⟩
      have letter : peek (portPointer s t) = 112 := by rw [ends.portPointer free, stray]
      have valid : validPortNumber (portOf (portPointer s t)) = true := by
        by_contra invalid
        exact passed (.port letter (by simpa using invalid))
      have absent : hasPort = false := sentence.no_port_of_endsInIp ends
      have present : hasPort = true := by
        rw [← carries, storedPort, if_pos letter]
        exact portOf_valid valid
      rw [absent] at present; cases present
    · rintro (stopped | ⟨⟨hasIp, hasPort, sentence⟩, inside⟩)
      · exact absurd stopped passed
      · intro connection accepted
        rw [result] at accepted; cases accepted
        exact ⟨hasIp, hasPort, sentence, sentence.carried free passed inside⟩

/-- A string of the readme. -/
theorem fails_closed_documented : FailsClosed (bytes "/usr/sbin/sshd|i<127.128.0.0>|p<22>") [] := by
  refine (fails_closed_iff (by decide +kernel) []).2 (.inr ⟨⟨true, true, ?_⟩, fun _ _ _ => by decide⟩)
  refine Sentence.ipPort (p := bytes "/usr/sbin/sshd") (f := bytes "i<127.128.0.0>") (g := bytes "p<22>")
    (v := bytes "127.128.0.0") (w := bytes "22") ⟨⟨_, rfl⟩, by decide +kernel⟩ ?_ ?_
  · exact ⟨⟨[60], [62], by decide +kernel, .inl rfl, .inr rfl⟩, by decide +kernel, by decide +kernel⟩
  · exact ⟨⟨[60], [62], by decide +kernel, .inl rfl, .inr rfl⟩, by decide +kernel, by decide +kernel⟩

/-- `/a|p22|i1.2.3.4` has its fields in the wrong order. It is accepted, and the ip is dropped. -/
theorem fails_closed_fails : ¬ ∀ s, NulFree s → ∀ t, FailsClosed s t := by
  intro claim
  obtain ⟨hasIp, hasPort, sentence, -⟩ := claim (bytes "/a|p22|i1.2.3.4")
    (by decide +kernel) [] ⟨22, [], bytes "/a"⟩ (by decide +kernel)
  have literal : bytes "/a|p22|i1.2.3.4" = bytes "/a" ++ fieldSeparator :: bytes "p22|i1.2.3.4" := by
    decide +kernel
  rw [literal] at sentence
  have last := sentence.last_of_port (by decide +kernel) (by decide +kernel)
  revert last
  decide +kernel

end Netlog
