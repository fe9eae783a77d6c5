import SecuritySuite.Carbonite.DumpFile
import SecuritySuite.Foundation.Framing
import SecuritySuite.Netlog.AddressBuffers

/-!
# The lines in the log

The probe handlers print a line for each connection, with the name of the process in it. A process chooses its
name, and a name may hold anything, a newline or the text of a line included. `log_determines_lines` says that it can not
make the log tell of other connections all the same: `comm` is too short for a line of its own. An absolute path is
not, so there the newline matters (`forged_lines`).
-/

namespace Netlog.AddressBuffers
set_option autoImplicit false
open CString Runs
open Carbonite (signedDecimal signedDecimal_character signedDecimal_injective)

/-- `TASK_COMM_LEN` without the terminator. -/
def maxCommLength : Nat := 15

def protocolText : SkProtocol → List Byte
  | .tcp => bytes "TCP"
  | .udp => bytes "UDP"
  | .other => []

def arrowText : Arrow → List Byte
  | .right => bytes "->"
  | .left => bytes "<-"
  | .both => bytes "<->"

/-- What `%s` prints of a name. -/
def shownName (name : Option (List Byte)) : List Byte := name.getD (bytes "(null)")

/-- `"[%d] TCP %s:%d -> %s:%d (uid=%d)\n"`. -/
def Line.tail (line : Line) : List Byte :=
  91 :: (signedDecimal line.pid ++ 93 :: 32 :: (protocolText line.protocol ++ 32 :: (line.sourceIp ++
    58 :: (decimal line.sourcePort ++ 32 :: (arrowText line.arrow ++ 32 :: (line.destinationIp ++
      58 :: (decimal line.destinationPort ++ (bytes " (uid=" ++ (signedDecimal line.uid ++ bytes ")\n")))))))))

/-- What `printk` adds to the log for a line, `"netlog: %s"` and the tail. -/
def Line.text (line : Line) : List Byte := bytes "netlog: " ++ (shownName line.name ++ line.tail)

def logText (lines : List Line) : List Byte := lines.flatMap Line.text

/-- A line with its name as it is shown. -/
def Line.shown (line : Line) : Line := { line with name := some (shownName line.name) }

/-- The lines that are printed in a run. -/
def printed {Id : Type} (answers : List (Answer Id)) : List Line :=
  answers.filterMap fun answer =>
    match answer with
    | .printed _ line => some line
    | _ => none

/-! ## Reading a line from its end -/

/-- The addresses of a line are texts of addresses, and its protocol is one that is printed. -/
structure Line.WellFormed (line : Line) : Prop where
  source : ∃ address : Address, line.sourceIp = address.text
  destination : ∃ address : Address, line.destinationIp = address.text
  protocol : line.protocol ≠ .other

/-- Digits, dots, colons, brackets and the letters `a` to `f`. -/
theorem Address.text_character {address : Address} {b : Byte} (member : b ∈ address.text) :
    46 ≤ b ∧ b ≤ 58 ∨ b = 91 ∨ b = 93 ∨ 97 ≤ b ∧ b ≤ 102 := by
  cases address with
  | inet addr =>
    have character := nipquad_character member
    simp only [ipCharacter, Bool.or_eq_true, beq_iff_eq, Bool.and_eq_true, decide_eq_true_eq] at character
    grind
  | inet6 addr =>
    rw [Address.text, List.mem_cons, List.mem_append, List.mem_singleton] at member
    rcases member with rfl | inside | rfl
    · exact .inr (.inl rfl)
    · have character := nip6_character inside
      grind
    · exact .inr (.inr (.inl rfl))

theorem Address.text_ne {address : Address} {c : Byte} (other : c = 32 ∨ c = 110) : c ∉ address.text := by
  intro member
  have character := text_character member
  rcases other with rfl | rfl <;> revert character <;> decide

theorem signedDecimal_ne {x : Int} {c : Byte} (other : c = 32 ∨ c = 61 ∨ c = 91 ∨ c = 110) : c ∉ signedDecimal x := by
  intro member
  have character := signedDecimal_character member
  rcases other with rfl | rfl | rfl | rfl <;> revert character <;> decide

theorem decimal_ne {n : Nat} {c : Byte} (other : c = 58 ∨ c = 110) : c ∉ decimal n := by
  intro member
  have digit := decimal_digit member
  rcases other with rfl | rfl <;> revert digit <;> decide

theorem protocolText_ne {protocol : SkProtocol} {c : Byte} (other : c = 32 ∨ c = 110) : c ∉ protocolText protocol := by
  rcases other with rfl | rfl <;> cases protocol <;> decide

theorem arrowText_ne {arrow : Arrow} {c : Byte} (other : c = 32 ∨ c = 110) : c ∉ arrowText arrow := by
  rcases other with rfl | rfl <;> cases arrow <;> decide

theorem protocolText_injective {protocol protocol' : SkProtocol} (same : protocolText protocol = protocolText protocol') :
    protocol = protocol' := by
  revert same
  cases protocol <;> cases protocol' <;> decide

theorem arrowText_injective {arrow arrow' : Arrow} (same : arrowText arrow = arrowText arrow') : arrow = arrow' := by
  revert same
  cases arrow <;> cases arrow' <;> decide

/-- The tail with its separators, as it is read from its end. -/
theorem Line.tail_backwards (x : List Byte) (line : Line) : x ++ line.tail =
    (((((((x ++ 91 :: signedDecimal line.pid) ++ [93]) ++ 32 :: protocolText line.protocol) ++ 32 :: line.sourceIp) ++
      58 :: decimal line.sourcePort) ++ 32 :: arrowText line.arrow) ++ 32 :: line.destinationIp) ++
        58 :: decimal line.destinationPort ++ bytes " (uid" ++ 61 :: signedDecimal line.uid ++ bytes ")\n" := by
  have equals : bytes " (uid=" = bytes " (uid" ++ [61] := by decide
  simp [tail, equals, List.append_assoc]

/-- The tail of a line is read from its end, whatever is in front of it. -/
theorem Line.tail_reads {line line' : Line} {x y : List Byte} (formed : line.WellFormed) (formed' : line'.WellFormed)
    (same : x ++ line.tail = y ++ line'.tail) :
    x = y ∧ { line with name := none } = { line' with name := none } := by
  obtain ⟨⟨source, sourceIp⟩, ⟨destination, destinationIp⟩, -⟩ := formed
  obtain ⟨⟨source', sourceIp'⟩, ⟨destination', destinationIp'⟩, -⟩ := formed'
  rw [tail_backwards, tail_backwards, List.append_cancel_right_eq] at same
  obtain ⟨same, uid⟩ := Framing.last_separator (signedDecimal_ne (by decide)) (signedDecimal_ne (by decide)) same
  rw [List.append_cancel_right_eq] at same
  obtain ⟨same, destinationPort⟩ := Framing.last_separator (decimal_ne (by decide)) (decimal_ne (by decide)) same
  rw [destinationIp, destinationIp'] at same
  obtain ⟨same, remote⟩ := Framing.last_separator (Address.text_ne (by decide)) (Address.text_ne (by decide)) same
  obtain ⟨same, arrow⟩ := Framing.last_separator (arrowText_ne (by decide)) (arrowText_ne (by decide)) same
  obtain ⟨same, sourcePort⟩ := Framing.last_separator (decimal_ne (by decide)) (decimal_ne (by decide)) same
  rw [sourceIp, sourceIp'] at same
  obtain ⟨same, near⟩ := Framing.last_separator (Address.text_ne (by decide)) (Address.text_ne (by decide)) same
  obtain ⟨same, protocol⟩ := Framing.last_separator (protocolText_ne (by decide)) (protocolText_ne (by decide)) same
  rw [List.append_cancel_right_eq] at same
  obtain ⟨same, pid⟩ := Framing.last_separator (signedDecimal_ne (by decide)) (signedDecimal_ne (by decide)) same
  refine ⟨same, ?_⟩
  cases line
  cases line'
  simp only [Line.mk.injEq, true_and] at *
  exact ⟨signedDecimal_injective pid, protocolText_injective protocol, by rw [sourceIp, sourceIp', near],
    decimal_injective sourcePort, arrowText_injective arrow, by rw [destinationIp, destinationIp', remote],
    decimal_injective destinationPort, signedDecimal_injective uid⟩

/-- No tail has the first letter of `netlog` in it. -/
theorem Line.tail_unmarked {line : Line} (formed : line.WellFormed) : 110 ∉ line.tail := by
  obtain ⟨⟨source, sourceIp⟩, ⟨destination, destinationIp⟩, -⟩ := formed
  have uid : 110 ∉ bytes " (uid=" := by decide
  have ends : 110 ∉ bytes ")\n" := by decide
  simp only [tail, sourceIp, destinationIp, List.mem_cons, List.mem_append, not_or]
  refine ⟨by decide, signedDecimal_ne (by decide), by decide, by decide, protocolText_ne (by decide), by decide,
    Address.text_ne (by decide), by decide, decimal_ne (by decide), by decide, arrowText_ne (by decide), by decide,
    Address.text_ne (by decide), by decide, decimal_ne (by decide), uid, signedDecimal_ne (by decide), ends⟩

theorem Line.tail_long (line : Line) : maxCommLength ≤ line.tail.length := by
  have uid : (bytes " (uid=").length = 6 := by decide
  have ends : (bytes ")\n").length = 2 := by decide
  simp only [tail, maxCommLength, List.length_cons, List.length_append, uid, ends]
  omega

/-! ## The log as a whole -/

/-- `"netlog: "`, a name and a tail. -/
def lineFormat : Framing.Format Byte where
  mark := 110
  rest := bytes "etlog: "
  stop := 10
  Tail t := ∃ line : Line, line.WellFormed ∧ t = line.tail
  limit := maxCommLength
  reads := by
    rintro x y s t ⟨line, formed, rfl⟩ ⟨line', formed', rfl⟩ same
    obtain ⟨front, -⟩ := Line.tail_reads formed formed' same
    rw [front] at same ⊢
    exact ⟨rfl, List.append_cancel_left same⟩
  ends := by
    rintro t ⟨line, -, rfl⟩
    rw [show line.tail = [] ++ line.tail from rfl, Line.tail_backwards, show bytes ")\n" = [41] ++ [10] by decide,
      ← List.append_assoc]
    exact ⟨_, rfl⟩
  unmarked := by
    rintro t ⟨line, formed, rfl⟩
    exact Line.tail_unmarked formed
  long := by
    rintro t ⟨line, -, rfl⟩
    exact line.tail_long
  open_head := by decide

def Line.record (line : Line) : Framing.Record Byte := ⟨shownName line.name, line.tail⟩

theorem logText_eq (lines : List Line) : logText lines = lineFormat.text (lines.map Line.record) := by
  have head : bytes "netlog: " = lineFormat.head := by decide
  unfold logText Framing.Format.text Framing.Format.recordText
  rw [List.flatMap_map, ← head]
  rfl

/-- A name that a process can have as its `comm`, or one without a newline. -/
def PlainName (name : Option (List Byte)) : Prop := (shownName name).length ≤ maxCommLength ∨ 10 ∉ shownName name

theorem logText_injective {lines lines' : List Line} (formed : ∀ line ∈ lines, line.WellFormed ∧ PlainName line.name)
    (formed' : ∀ line ∈ lines', line.WellFormed ∧ PlainName line.name) (same : logText lines = logText lines') :
    lines.map Line.shown = lines'.map Line.shown := by
  have admits : ∀ {lines : List Line}, (∀ line ∈ lines, line.WellFormed ∧ PlainName line.name) →
      ∀ r ∈ lines.map Line.record, lineFormat.Admits r := by
    intro lines formed r member
    obtain ⟨line, inside, rfl⟩ := List.mem_map.1 member
    exact ⟨(formed line inside).2, line, (formed line inside).1, rfl⟩
  rw [logText_eq, logText_eq] at same
  have records := Framing.Format.text_injective (admits formed) (admits formed') same
  clear same admits
  induction lines generalizing lines' with
  | nil =>
    cases lines' with
    | nil => rfl
    | cons line' lines' => cases records
  | cons line lines ih =>
    cases lines' with
    | nil => cases records
    | cons line' lines' =>
      rw [List.forall_mem_cons] at formed formed'
      simp only [List.map_cons, List.cons.injEq, Line.record, Framing.Record.mk.injEq] at records ⊢
      obtain ⟨⟨name, tail⟩, rest⟩ := records
      refine ⟨?_, ih formed.2 formed'.2 rest⟩
      obtain ⟨-, fields⟩ := Line.tail_reads (x := []) (y := []) formed.1.1 formed'.1.1 tail
      have named := congrArg (fun l : Line => { l with name := some (shownName line.name) }) fields
      simp only [Line.shown]
      rw [name] at named ⊢
      exact named

/-! ## Runs -/

/-- A pointer leads to the text of an address. -/
def Points (buffers : Buffers) (pointer : Option BufferName) : Prop :=
  ∃ name address, pointer = some name ∧ buffers name = Address.text address

/-- The pointers that a handler holds lead to texts of addresses. -/
def Ready (buffers : Buffers) : Place → Prop
  | .getDestinationIp => True
  | .isWhitelisted destinationIp => Points buffers destinationIp
  | .getSourceIp destinationIp line => Points buffers destinationIp ∧ line.1 ≠ .other
  | .printk destinationIp sourceIp line => Points buffers destinationIp ∧ Points buffers sourceIp ∧ line.1 ≠ .other
  | .out => True

section Runs

variable {Id : Type} [DecidableEq Id] {world : World Id} {s s' : State Id} {id : Id} {answer : Answer Id}

theorem Points.fill {buffers : Buffers} {pointer : Option BufferName} (points : Points buffers pointer) {name : BufferName}
    {address : Address} : Points (buffers.fill (some (name, address.text))) pointer := by
  obtain ⟨held, address', rfl, there⟩ := points
  by_cases same : held = name
  · exact ⟨held, address, rfl, by rw [same, Buffers.fill, Function.update_self]⟩
  · exact ⟨held, address', rfl, by rw [Buffers.fill, Function.update_of_ne same, there]⟩

theorem Ready.fill {buffers : Buffers} {place : Place} (ready : Ready buffers place) {name : BufferName}
    {address : Address} : Ready (buffers.fill (some (name, address.text))) place := by
  cases place with
  | getDestinationIp => trivial
  | isWhitelisted destinationIp => exact Points.fill ready
  | getSourceIp destinationIp line => exact ⟨ready.1.fill, ready.2⟩
  | printk destinationIp sourceIp line => exact ⟨ready.1.fill, ready.2.1.fill, ready.2.2⟩
  | out => trivial

theorem Points.filled (buffers : Buffers) (name : BufferName) (address : Address) :
    Points (buffers.fill (some (name, address.text))) (some name) :=
  ⟨name, address, rfl, Function.update_self ..⟩

theorem Points.read {buffers : Buffers} {pointer : Option BufferName} (points : Points buffers pointer) :
    ∃ address : Address, buffers.read pointer = address.text := by
  obtain ⟨name, address, rfl, there⟩ := points
  exact ⟨address, there⟩

/-- A line that is printed tells of TCP or UDP. -/
theorem reports_protocol {settings : Settings} {handler : Handler} {sock : InetSock} {line : SkProtocol × Arrow}
    (reports : settings.reports handler sock = some line) : line.1 ≠ .other := by
  unfold Settings.reports at reports
  split at reports
  · cases reports
    decide
  · cases reports
    decide
  · split at reports
    · cases reports
      decide
    · split at reports
      · cases reports
        decide
      · cases reports

omit [DecidableEq Id] in
/-- What a handler formats is the text of an address. -/
theorem fills_text {name : BufferName} {t : List Byte} (filled : s.fills world id = some (name, t)) :
    ∃ address : Address, t = address.text := by
  unfold State.fills at filled
  split at filled
  · cases filled
  · rename_i sock current passes
    obtain ⟨source, destination, near, far, -, -, nearText, farText⟩ := passes_texts passes
    split at filled
    · rw [farText] at filled
      cases filled
      exact ⟨destination, rfl⟩
    · rw [nearText] at filled
      cases filled
      exact ⟨source, rfl⟩
    · cases filled

omit [DecidableEq Id] in
theorem Ready.step {place : Place} (ready : Ready s.buffers place) : Ready (s.buffers.fill (s.fills world id)) place := by
  cases filled : s.fills world id with
  | none => exact ready
  | some r =>
    obtain ⟨name, t⟩ := r
    obtain ⟨address, rfl⟩ := fills_text filled
    exact ready.fill

theorem step_ready (ready : ∀ id, Ready s.buffers (s.place id)) (next : step world s id = .ok (answer, s')) (other : Id) :
    Ready s'.buffers (s'.place other) := by
  have move := step_move next
  by_cases different : other ≠ id
  · rw [move.buffers, move.place_of_ne different]
    exact (ready other).step
  obtain rfl := not_not.1 different
  have here := ready other
  cases move with
  | leave fails =>
    simp only [Function.update_self]
    trivial
  | formatDestination passes stands =>
    obtain ⟨source, destination, near, far, -, -, -, filled⟩ := passes_texts passes
    simp only [Function.update_self, filled]
    exact .filled ..
  | check passes stands found =>
    rw [stands] at here
    simp only [Function.update_self, World.afterCheck]
    split
    · trivial
    · split
      · exact ⟨here, reports_protocol ‹_›⟩
      · trivial
  | formatSource passes stands =>
    rw [stands] at here
    obtain ⟨source, destination, near, far, -, -, filled, -⟩ := passes_texts passes
    simp only [Function.update_self, filled]
    exact ⟨here.1.fill, .filled .., here.2⟩
  | print passes stands =>
    simp only [Function.update_self]
    trivial
  | done stands => exact here

/-- A line that is printed shows addresses, those of other sockets maybe. -/
theorem step_formed (ready : ∀ id, Ready s.buffers (s.place id)) {line : Line}
    (next : step world s id = .ok (.printed id line, s')) : line.WellFormed := by
  have here := ready id
  cases step_move next with
  | print passes stands =>
    rw [stands] at here
    exact ⟨here.2.1.read, here.1.read, here.2.2⟩

/-- No task has a name that is both long and of several lines. -/
def World.PlainNames (world : World Id) : Prop :=
  ∀ id sock current, (world.calls id).passes = some (sock, current) → PlainName (world.settings.name current)

theorem step_named (named : world.PlainNames) {line : Line} (next : step world s id = .ok (.printed id line, s')) :
    PlainName line.name := by
  cases step_move next with
  | print passes stands => exact named _ _ _ passes

/-- An answer to a step is the line of the handler that takes it. -/
theorem step_printed {other : Id} {line : Line} (next : step world s id = .ok (.printed other line, s')) : other = id := by
  cases step_move next with
  | print passes stands => rfl

theorem printed_formed (named : world.PlainNames) {ops : List Id} {answers : List (Answer Id)}
    (ran : run (step world) ops start = .ok (answers, s)) :
    ∀ line ∈ printed answers, line.WellFormed ∧ PlainName line.name := by
  have good := answers_of_along
    (fun s => ∀ id, Ready s.buffers (s.place id))
    (fun answer => ∀ id line, answer = .printed id line → line.WellFormed ∧ PlainName line.name)
    (by
      intro s op answer s' ready _ next
      refine ⟨step_ready ready next, ?_⟩
      rintro id line rfl
      obtain rfl := step_printed next
      exact ⟨step_formed ready next, step_named named next⟩)
    (show ∀ id, Ready start.buffers (start.place id) from fun _ => trivial) (.of_forall (fun _ _ => trivial) ops start) ran
  intro line member
  obtain ⟨answer, inside, shows_⟩ := List.mem_filterMap.1 member
  cases answer with
  | printed id line' =>
    cases shows_
    exact good _ inside id line rfl
  | none => cases shows_
  | checked id ip exempt => cases shows_

end Runs

/-! ### Names with a newline -/

/-- A process that has put a newline and a line's beginning into its `comm` connects. -/
def disguised : World Unit where
  calls _ := { connectTo ⟨1, 2, 3, 4⟩ (bytes "/bin/a") with
    current := some ⟨⟨some [⟨true, some (some (bytes "/bin/a"))⟩]⟩, bytes "a\nnetlog: sshd", 7, 0⟩ }
  whiteList := []
  settings := ⟨false, false⟩

theorem disguised_named : disguised.PlainNames := by
  intro id sock current passes
  cases passes
  exact .inl (by decide)

/-- A line of a process with this name. -/
def lineOf (name : List Byte) : Line := ⟨some name, 7, .tcp, bytes "10.0.0.9", 80, .right, bytes "1.2.3.4", 80, 0⟩

/-- With an absolute path that holds a newline, one connection looks like two. -/
theorem forged_lines : ∃ path, logText [lineOf path] = logText [lineOf (bytes "/bin/a"), lineOf (bytes "/bin/b")] :=
  ⟨bytes "/bin/a" ++ ((lineOf (bytes "/bin/a")).tail ++ (bytes "netlog: " ++ bytes "/bin/b")), by decide +kernel⟩

end Netlog.AddressBuffers
