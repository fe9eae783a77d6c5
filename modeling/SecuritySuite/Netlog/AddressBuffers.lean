import Mathlib.Logic.Function.Basic
import SecuritySuite.Foundation.Runs
import SecuritySuite.Netlog.ProbedAddress
import SecuritySuite.Netlog.Whitelist

/-!
# The static buffers of `inet_utils.c` beside each other

`get_source_ip` and `get_destination_ip` return pointers to static buffers, one for each end and family, and the probe
handlers read through them later on. Handlers run on different CPUs, and each call of theirs is a step. A handler
reads its own addresses unless another one formats in between; `own_texts_iff` says which runs are safe.
-/

namespace Netlog.AddressBuffers
set_option autoImplicit false
open CString Runs

/-- The static buffers. -/
inductive BufferName where
  | sourceIpv4
  | sourceIpv6
  | destinationIpv4
  | destinationIpv6
deriving DecidableEq, Repr

/-- The texts in the buffers. -/
abbrev Buffers := BufferName → List Byte

inductive SkProtocol where
  | tcp
  | udp
  | other
deriving DecidableEq, Repr

/-- The fields of a `struct sock` that the handlers read. -/
structure InetSock extends Sock where
  skProtocol : SkProtocol
  inetSaddr : InAddr
  inet6Saddr : In6Addr
  inetSport : UInt16
  inetDport : UInt16

/-- `current`. -/
structure Current where
  task : TaskStruct
  comm : List Byte
  pid : Int
  uid : Int

/-! ## `inet_utils.c` -/

def isInet (sock : InetSock) : Bool := sock.skFamily == .afInet || sock.skFamily == .afInet6

def isTcp (sock : InetSock) : Bool := sock.skProtocol == .tcp

def isUdp (sock : InetSock) : Bool := sock.skProtocol == .udp

def getSourcePort (sock : InetSock) : Nat := ntohs sock.inetSport

def getDestinationPort (sock : InetSock) : Nat := ntohs sock.inetDport

/-- The buffer that is filled, and its text. NULL is returned for another family. -/
def getSourceIp (sock : InetSock) : Option (BufferName × List Byte) :=
  match sock.skFamily with
  | .afInet => some (.sourceIpv4, snprintf inetAddrstrlen (nipquad sock.inetSaddr))
  | .afInet6 => some (.sourceIpv6, snprintf (inet6Addrstrlen + 2) (91 :: (nip6 sock.inet6Saddr ++ [93])))
  | .other => none

def getDestinationIp (sock : InetSock) : Option (BufferName × List Byte) :=
  match sock.skFamily with
  | .afInet => some (.destinationIpv4, snprintf inetAddrstrlen (nipquad sock.inetDaddr))
  | .afInet6 => some (.destinationIpv6, snprintf (inet6Addrstrlen + 2) (91 :: (nip6 sock.inet6Daddr ++ [93])))
  | .other => none

/-- The buffers after a call that fills one of them. -/
def Buffers.fill (buffers : Buffers) (filled : Option (BufferName × List Byte)) : Buffers :=
  match filled with
  | some (name, text) => Function.update buffers name text
  | none => buffers

/-- What is behind a pointer that one of the two functions returned. -/
def Buffers.read (buffers : Buffers) (pointer : Option BufferName) : List Byte := (pointer.map buffers).getD []

/-! ## Handlers -/

inductive Handler where
  | postConnect
  | postAccept
  | netlogSysClose
deriving DecidableEq, Repr

/-- A handler that runs, with the socket that it has looked up. -/
structure Call where
  handler : Handler
  sock : Option InetSock
  current : Option Current

/-- `absolute_path_mode`, and whether the module is built with `PROBE_UDP`. -/
structure Settings where
  absolutePathMode : Bool
  probeUdp : Bool

/-- The socket and the task of a call that passes the tests at its beginning. -/
def Call.passes (call : Call) : Option (InetSock × Current) :=
  match call.sock, call.current with
  | some sock, some current =>
    match call.handler with
    | .netlogSysClose => if isInet sock then some (sock, current) else none
    | _ => if isTcp sock && isInet sock then some (sock, current) else none
  | _, _ => none

/-- What stands between the two addresses of a line. -/
inductive Arrow where
  | right
  | left
  | both
deriving DecidableEq, Repr

/-- The protocol and the arrow of the line that a handler prints. -/
def Settings.reports (settings : Settings) (handler : Handler) (sock : InetSock) : Option (SkProtocol × Arrow) :=
  match handler with
  | .postConnect => some (.tcp, .right)
  | .postAccept => some (.tcp, .left)
  | .netlogSysClose =>
    if isTcp sock && getDestinationPort sock ≠ 0 then some (.tcp, .both)
    else if settings.probeUdp && isUdp sock && isInet sock then some (.udp, .both)
    else none

/-- The arguments of `printk`. -/
structure Line where
  name : Option (List Byte)
  pid : Int
  protocol : SkProtocol
  sourceIp : List Byte
  sourcePort : Nat
  arrow : Arrow
  destinationIp : List Byte
  destinationPort : Nat
  uid : Int

/-- `current->comm` or the absolute path. -/
def Settings.name (settings : Settings) (current : Current) : Option (List Byte) :=
  if settings.absolutePathMode then current.task.mm.bind exeFromMm else some current.comm

/-! ## Steps -/

/-- The next call of a handler, with the pointers that it holds. -/
inductive Place where
  | getDestinationIp
  | isWhitelisted (destinationIp : Option BufferName)
  | getSourceIp (destinationIp : Option BufferName) (line : SkProtocol × Arrow)
  | printk (destinationIp sourceIp : Option BufferName) (line : SkProtocol × Arrow)
  | out
deriving DecidableEq

variable {Id : Type} [DecidableEq Id]

structure State (Id : Type) where
  buffers : Buffers
  place : Id → Place

inductive Answer (Id : Type) where
  | none
  /-- `is_whitelisted` compared this text, and found the connection whitelisted or not. -/
  | checked (id : Id) (ip : List Byte) (exempt : Bool)
  | printed (id : Id) (line : Line)

/-- The module has been loaded, and no handler has called anything. -/
def start : State Id := ⟨fun _ => [], fun _ => .getDestinationIp⟩

/-- The handlers that run, what is whitelisted, and the settings. -/
structure World (Id : Type) where
  calls : Id → Call
  whiteList : List Connection
  settings : Settings

variable (world : World Id)

/-- The next step of a handler. -/
def step (s : State Id) (id : Id) : Except Empty (Answer Id × State Id) :=
  let goes (place : Place) : Id → Place := Function.update s.place id place
  match (world.calls id).passes with
  | none => .ok (.none, { s with place := goes .out })
  | some (sock, current) =>
    match s.place id with
    | .getDestinationIp =>
      let filled := getDestinationIp sock
      .ok (.none, ⟨s.buffers.fill filled, goes (.isWhitelisted (filled.map (·.1)))⟩)
    | .isWhitelisted destinationIp =>
      let ip := s.buffers.read destinationIp
      let exempt := isWhitelisted (some current.task) ip (getDestinationPort sock) world.whiteList == whitelisted
      let next : Place :=
        if exempt then .out
        else match world.settings.reports (world.calls id).handler sock with
          | some line => .getSourceIp destinationIp line
          | none => .out
      .ok (.checked id ip exempt, { s with place := goes next })
    | .getSourceIp destinationIp line =>
      let filled := getSourceIp sock
      .ok (.none, ⟨s.buffers.fill filled, goes (.printk destinationIp (filled.map (·.1)) line)⟩)
    | .printk destinationIp sourceIp line =>
      .ok (.printed id
        { name := world.settings.name current
          pid := current.pid
          protocol := line.1
          sourceIp := s.buffers.read sourceIp
          sourcePort := getSourcePort sock
          arrow := line.2
          destinationIp := s.buffers.read destinationIp
          destinationPort := getDestinationPort sock
          uid := current.uid }, { s with place := goes .out })
    | .out => .ok (.none, s)

/-! ## What is to hold -/

/-- The socket with its remote end, and with its local end in the place of the remote one. -/
def InetSock.far (sock : InetSock) : Socket := ⟨sock.toSock⟩

def InetSock.near (sock : InetSock) : Socket := ⟨⟨sock.skFamily, sock.inetSaddr, sock.inet6Saddr⟩⟩

/-- The texts are those of the handler's own socket, and a connection is exempt only if its own address is
whitelisted. -/
def Own : Answer Id → Prop
  | .none => True
  | .checked id ip exempt => ∃ sock current address,
      (world.calls id).passes = some (sock, current) ∧ sock.far.remoteAddress = some address ∧ ip = address.text ∧
        (exempt = true →
          isWhitelisted (some current.task) address.text (getDestinationPort sock) world.whiteList = whitelisted)
  | .printed id line => ∃ sock current source destination,
      (world.calls id).passes = some (sock, current) ∧ sock.near.remoteAddress = some source ∧
        sock.far.remoteAddress = some destination ∧ line.sourceIp = source.text ∧ line.destinationIp = destination.text

/-- Every handler of a run compares and prints its own texts. -/
def OwnTexts (ops : List Id) : Prop :=
  ∀ answers s, run (step world) ops start = .ok (answers, s) → ∀ answer ∈ answers, Own world answer

/-- The buffers that a handler has yet to read. -/
def Place.holds : Place → BufferName → Prop
  | .isWhitelisted destinationIp, name => destinationIp = some name
  | .getSourceIp destinationIp _, name => destinationIp = some name
  | .printk destinationIp sourceIp _, name => destinationIp = some name ∨ sourceIp = some name
  | .getDestinationIp, _ => False
  | .out, _ => False

/-- What the next step of a handler fills. -/
def State.fills (s : State Id) (id : Id) : Option (BufferName × List Byte) :=
  match (world.calls id).passes with
  | none => none
  | some (sock, _) =>
    match s.place id with
    | .getDestinationIp => getDestinationIp sock
    | .getSourceIp _ _ => getSourceIp sock
    | _ => none

/-- A handler formats another text into a buffer that a second handler has yet to read. -/
def Overwrites (s : State Id) (id : Id) : Prop :=
  ∃ name text other, other ≠ id ∧ s.fills world id = some (name, text) ∧ (s.place other).holds name ∧ s.buffers name ≠ text

/-! ## The texts -/

def SourceBuffer (name : BufferName) : Prop := name = .sourceIpv4 ∨ name = .sourceIpv6

theorem getSourceIp_buffer {sock : InetSock} {name : BufferName} {text : List Byte}
    (filled : getSourceIp sock = some (name, text)) : SourceBuffer name := by
  unfold getSourceIp at filled
  split at filled
  · cases filled
    exact .inl rfl
  · cases filled
    exact .inr rfl
  · cases filled

theorem getDestinationIp_buffer {sock : InetSock} {name : BufferName} {text : List Byte}
    (filled : getDestinationIp sock = some (name, text)) : ¬ SourceBuffer name := by
  unfold getDestinationIp at filled
  split at filled
  · cases filled
    simp [SourceBuffer]
  · cases filled
    simp [SourceBuffer]
  · cases filled

/-- The text is the one that the function returns where nothing comes in between. -/
theorem getDestinationIp_text (sock : InetSock) :
    (getDestinationIp sock).map (·.2) = Netlog.getDestinationIp sock.far := by
  unfold getDestinationIp Netlog.getDestinationIp getDestinationIpSk InetSock.far
  cases sock.skFamily <;> rfl

theorem getSourceIp_text (sock : InetSock) : (getSourceIp sock).map (·.2) = Netlog.getDestinationIp sock.near := by
  unfold getSourceIp Netlog.getDestinationIp getDestinationIpSk InetSock.near
  cases sock.skFamily <;> rfl

theorem Call.passes_isInet {call : Call} {sock : InetSock} {current : Current} (passes : call.passes = some (sock, current)) :
    isInet sock = true := by
  unfold Call.passes at passes
  split at passes
  · split at passes <;> split at passes
    · cases passes
      assumption
    · cases passes
    · rename_i both
      cases passes
      exact (Bool.and_eq_true_iff.1 both).2
    · cases passes
  · cases passes

/-- The ends of a socket that passes, and the texts in their buffers. -/
theorem passes_texts {call : Call} {sock : InetSock} {current : Current} (passes : call.passes = some (sock, current)) :
    ∃ source destination near far, sock.near.remoteAddress = some source ∧ sock.far.remoteAddress = some destination ∧
      getSourceIp sock = some (near, source.text) ∧ getDestinationIp sock = some (far, destination.text) := by
  have inet := Call.passes_isInet passes
  have ends : ∀ sock' : Socket, sock'.sk.skFamily = sock.skFamily → ∃ address, sock'.remoteAddress = some address := by
    intro sock' same
    unfold Socket.remoteAddress
    rw [same]
    cases family : sock.skFamily with
    | afInet => exact ⟨_, rfl⟩
    | afInet6 => exact ⟨_, rfl⟩
    | other => simp [isInet, family] at inet
  obtain ⟨source, near⟩ := ends sock.near rfl
  obtain ⟨destination, far⟩ := ends sock.far rfl
  have sourceText := getSourceIp_text sock
  have destinationText := getDestinationIp_text sock
  rw [getDestinationIp_eq near, Option.map_eq_some_iff] at sourceText
  rw [getDestinationIp_eq far, Option.map_eq_some_iff] at destinationText
  obtain ⟨⟨n, t⟩, filled, rfl⟩ := sourceText
  obtain ⟨⟨n', t'⟩, filled', rfl⟩ := destinationText
  exact ⟨source, destination, n, n', near, far, filled, filled'⟩

/-! ## What a step does -/

/-- The line that a step prints. -/
def World.line (s : State Id) (sock : InetSock) (current : Current) (destinationIp sourceIp : Option BufferName)
    (line : SkProtocol × Arrow) : Line where
  name := world.settings.name current
  pid := current.pid
  protocol := line.1
  sourceIp := s.buffers.read sourceIp
  sourcePort := getSourcePort sock
  arrow := line.2
  destinationIp := s.buffers.read destinationIp
  destinationPort := getDestinationPort sock
  uid := current.uid

/-- Where `is_whitelisted` leads. -/
def World.afterCheck (id : Id) (sock : InetSock) (destinationIp : Option BufferName) (exempt : Bool) : Place :=
  if exempt then .out
  else match world.settings.reports (world.calls id).handler sock with
    | some line => .getSourceIp destinationIp line
    | none => .out

/-- All that a step can do. -/
inductive Move (s : State Id) (id : Id) : Answer Id → State Id → Prop where
  | leave (fails : (world.calls id).passes = none) : Move s id .none { s with place := Function.update s.place id .out }
  | formatDestination {sock : InetSock} {current : Current} (passes : (world.calls id).passes = some (sock, current))
      (stands : s.place id = .getDestinationIp) :
      Move s id .none ⟨s.buffers.fill (getDestinationIp sock),
        Function.update s.place id (.isWhitelisted ((getDestinationIp sock).map (·.1)))⟩
  | check {sock : InetSock} {current : Current} {destinationIp : Option BufferName} {exempt : Bool}
      (passes : (world.calls id).passes = some (sock, current)) (stands : s.place id = .isWhitelisted destinationIp)
      (found : exempt = (isWhitelisted (some current.task) (s.buffers.read destinationIp) (getDestinationPort sock)
        world.whiteList == whitelisted)) :
      Move s id (.checked id (s.buffers.read destinationIp) exempt)
        { s with place := Function.update s.place id (world.afterCheck id sock destinationIp exempt) }
  | formatSource {sock : InetSock} {current : Current} {destinationIp : Option BufferName} {line : SkProtocol × Arrow}
      (passes : (world.calls id).passes = some (sock, current)) (stands : s.place id = .getSourceIp destinationIp line) :
      Move s id .none ⟨s.buffers.fill (getSourceIp sock),
        Function.update s.place id (.printk destinationIp ((getSourceIp sock).map (·.1)) line)⟩
  | print {sock : InetSock} {current : Current} {destinationIp sourceIp : Option BufferName} {line : SkProtocol × Arrow}
      (passes : (world.calls id).passes = some (sock, current)) (stands : s.place id = .printk destinationIp sourceIp line) :
      Move s id (.printed id (world.line s sock current destinationIp sourceIp line))
        { s with place := Function.update s.place id .out }
  | done (stands : s.place id = .out) : Move s id .none s

variable {world} {s s' : State Id} {id : Id} {answer : Answer Id}

theorem step_move (next : step world s id = .ok (answer, s')) : Move world s id answer s' := by
  unfold step at next
  split at next
  · rename_i fails
    cases next
    exact .leave fails
  · rename_i sock current passes
    split at next
    · rename_i stands
      cases next
      exact .formatDestination passes stands
    · rename_i destinationIp stands
      cases next
      exact .check passes stands rfl
    · rename_i destinationIp line stands
      cases next
      exact .formatSource passes stands
    · rename_i destinationIp sourceIp line stands
      cases next
      exact .print passes stands
    · rename_i stands
      cases next
      exact .done stands

/-- A step is always possible. -/
theorem step_total (world : World Id) (s : State Id) (id : Id) : ∃ answer s', step world s id = .ok (answer, s') := by
  unfold step
  split
  · exact ⟨_, _, rfl⟩
  · split <;> exact ⟨_, _, rfl⟩

/-! ## What a handler has yet to read -/

/-- A pointer was returned by this call, and the text of the call is still there. -/
def Shows (buffers : Buffers) (filled : Option (BufferName × List Byte)) (pointer : Option BufferName) : Prop :=
  pointer = filled.map (·.1) ∧ ∀ name text, filled = some (name, text) → buffers name = text

/-- The texts that a handler has yet to read are its own. -/
def Kept (buffers : Buffers) (sock : InetSock) : Place → Prop
  | .isWhitelisted destinationIp => Shows buffers (getDestinationIp sock) destinationIp
  | .getSourceIp destinationIp _ => Shows buffers (getDestinationIp sock) destinationIp
  | .printk destinationIp sourceIp _ =>
    Shows buffers (getDestinationIp sock) destinationIp ∧ Shows buffers (getSourceIp sock) sourceIp
  | .getDestinationIp => True
  | .out => True

/-- A handler of a state holds its own texts. -/
def KeptBy (world : World Id) (s : State Id) (id : Id) : Prop :=
  match (world.calls id).passes with
  | none => ∀ name, ¬ (s.place id).holds name
  | some (sock, _) => Kept s.buffers sock (s.place id)

omit [DecidableEq Id] in
theorem keptBy_iff {sock : InetSock} {current : Current} (passes : (world.calls id).passes = some (sock, current)) :
    KeptBy world s id ↔ Kept s.buffers sock (s.place id) := by
  rw [KeptBy, passes]

omit [DecidableEq Id] in
theorem keptBy_of {sock : InetSock} {current : Current} {place : Place}
    (passes : (world.calls id).passes = some (sock, current)) (stands : s.place id = place)
    (kept : Kept s.buffers sock place) : KeptBy world s id := by
  rw [keptBy_iff passes, stands]
  exact kept

omit [DecidableEq Id] in
theorem start_keptBy (id : Id) : KeptBy world start id := by
  unfold KeptBy
  split
  · exact fun name => not_false
  · trivial

theorem Shows.read {buffers : Buffers} {pointer : Option BufferName} {name : BufferName} {text : List Byte}
    {filled : Option (BufferName × List Byte)} (shows_ : Shows buffers filled pointer) (text_ : filled = some (name, text)) :
    buffers.read pointer = text := by
  obtain ⟨rfl, there⟩ := shows_
  rw [text_, Option.map_some, Buffers.read, Option.map_some, Option.getD_some]
  exact there name text text_

theorem fill_shows (buffers : Buffers) (filled : Option (BufferName × List Byte)) :
    Shows (buffers.fill filled) filled (filled.map (·.1)) := by
  refine ⟨rfl, fun name text filled => ?_⟩
  rw [filled]
  exact Function.update_self ..

/-- The two ends have buffers of their own. -/
theorem Shows.fill_source {buffers : Buffers} {pointer : Option BufferName} {sock : InetSock}
    (shows_ : Shows buffers (getDestinationIp sock) pointer) :
    Shows (buffers.fill (getSourceIp sock)) (getDestinationIp sock) pointer := by
  refine ⟨shows_.1, fun name text filled => ?_⟩
  rw [← shows_.2 name text filled]
  cases source : getSourceIp sock with
  | none => rfl
  | some r =>
    apply Function.update_of_ne
    rintro rfl
    exact getDestinationIp_buffer filled (getSourceIp_buffer source)

/-- Only the buffers that are held count. -/
theorem Kept.congr {buffers buffers' : Buffers} {sock : InetSock} {place : Place} (kept : Kept buffers sock place)
    (same : ∀ name, place.holds name → buffers' name = buffers name) : Kept buffers' sock place := by
  have shows_ : ∀ {filled : Option (BufferName × List Byte)} {pointer}, Shows buffers filled pointer →
      (∀ name, pointer = some name → place.holds name) → Shows buffers' filled pointer := by
    intro filled pointer shows_ held
    refine ⟨shows_.1, fun name text given => ?_⟩
    rw [same name (held name (by rw [shows_.1, given]; rfl)), shows_.2 name text given]
  cases place with
  | getDestinationIp => trivial
  | isWhitelisted destinationIp => exact shows_ kept fun _ held => held
  | getSourceIp destinationIp line => exact shows_ kept fun _ held => held
  | printk destinationIp sourceIp line => exact ⟨shows_ kept.1 fun _ held => .inl held, shows_ kept.2 fun _ held => .inr held⟩
  | out => trivial

theorem Move.place_of_ne (move : Move world s id answer s') {other : Id} (different : other ≠ id) :
    s'.place other = s.place other := by
  cases move with
  | done stands => rfl
  | _ => exact Function.update_of_ne different ..

theorem Move.buffers (move : Move world s id answer s') : s'.buffers = s.buffers.fill (s.fills world id) := by
  cases move with
  | leave fails => simp [State.fills, fails, Buffers.fill]
  | formatDestination passes stands => simp [State.fills, passes, stands]
  | check passes stands found => simp [State.fills, passes, stands, Buffers.fill]
  | formatSource passes stands => simp [State.fills, passes, stands]
  | print passes stands => simp [State.fills, passes, stands, Buffers.fill]
  | done stands =>
    unfold State.fills
    split
    · rfl
    · simp [stands, Buffers.fill]

/-- A handler keeps its own texts. -/
theorem step_kept_self (kept : KeptBy world s id) (next : step world s id = .ok (answer, s')) : KeptBy world s' id := by
  cases step_move next with
  | leave fails =>
    rw [KeptBy, fails]
    intro name
    simp [Place.holds]
  | formatDestination passes stands => exact keptBy_of passes (Function.update_self ..) (fill_shows _ _)
  | @check sock current destinationIp exempt passes stands found =>
    rw [keptBy_iff passes, stands] at kept
    apply keptBy_of passes (Function.update_self ..)
    rw [World.afterCheck]
    split
    · trivial
    · split
      · exact kept
      · trivial
  | formatSource passes stands =>
    rw [keptBy_iff passes, stands] at kept
    exact keptBy_of passes (Function.update_self ..) ⟨kept.fill_source, fill_shows _ _⟩
  | print passes stands => exact keptBy_of passes (Function.update_self ..) trivial
  | done stands => exact kept

/-- The other handlers keep theirs if nothing is overwritten. -/
theorem step_kept_other {other : Id} (different : other ≠ id) (kept : KeptBy world s other)
    (calm : ¬ Overwrites world s id) (next : step world s id = .ok (answer, s')) : KeptBy world s' other := by
  have move := step_move next
  have same : ∀ name, (s.place other).holds name → s'.buffers name = s.buffers name := by
    intro name held
    rw [move.buffers]
    cases filled : s.fills world id with
    | none => rfl
    | some r =>
      by_cases here : name = r.1
      · subst here
        rw [Buffers.fill, Function.update_self]
        by_contra changed
        exact calm ⟨r.1, r.2, other, different, filled, held, fun equal => changed equal.symm⟩
      · exact Function.update_of_ne here ..
  unfold KeptBy at kept ⊢
  rw [move.place_of_ne different]
  split
  · rename_i fails
    rw [fails] at kept
    exact kept
  · rename_i sock current passes
    rw [passes] at kept
    exact kept.congr same

theorem step_kept (kept : ∀ id, KeptBy world s id) (calm : ¬ Overwrites world s id)
    (next : step world s id = .ok (answer, s')) (other : Id) : KeptBy world s' other := by
  by_cases same : other = id
  · rw [same]
    exact step_kept_self (kept id) next
  · exact step_kept_other same (kept other) calm next

/-- A handler that holds its own texts compares and prints them. -/
theorem step_own (kept : KeptBy world s id) (next : step world s id = .ok (answer, s')) : Own world answer := by
  cases step_move next with
  | leave fails => trivial
  | formatDestination passes stands => trivial
  | @check sock current destinationIp exempt passes stands found =>
    rw [keptBy_iff passes, stands] at kept
    obtain ⟨source, destination, near, far, -, remote, -, filled⟩ := passes_texts passes
    have text := kept.read filled
    refine ⟨sock, current, destination, passes, remote, text, fun exempts => ?_⟩
    rw [exempts, text] at found
    exact beq_iff_eq.1 found.symm
  | formatSource passes stands => trivial
  | @print sock current destinationIp sourceIp line passes stands =>
    rw [keptBy_iff passes, stands] at kept
    obtain ⟨source, destination, near, far, local_, remote, filled, filled'⟩ := passes_texts passes
    exact ⟨sock, current, source, destination, passes, local_, remote, kept.2.read filled, kept.1.read filled'⟩
  | done stands => trivial

/-! ## Runs -/

theorem kept_of_calm {ops : List Id} (calm : Along (step world) (fun s id => ¬ Overwrites world s id) ops start)
    (reaches : Reaches (step world) start ops s) (id : Id) : KeptBy world s id :=
  invariant_of_along (fun s => ∀ id, KeptBy world s id) (fun _ _ _ _ inv calm next => step_kept inv calm next)
    start_keptBy calm reaches id

/-- The run itself: if its steps meet the condition, every handler compares and prints its own texts. -/
theorem own_of_calm {ops : List Id} (calm : Along (step world) (fun s id => ¬ Overwrites world s id) ops start) :
    OwnTexts world ops := by
  intro answers s ran
  exact answers_of_along (fun s => ∀ id, KeptBy world s id) (Own world)
    (fun _ _ _ _ inv calm next => ⟨step_kept inv calm next, step_own (inv _) next⟩) start_keptBy calm ran

/-- However far the run has come, any handler may take its next two steps. -/
theorem own_next_of_calm {ops : List Id} (calm : Along (step world) (fun s id => ¬ Overwrites world s id) ops start)
    (id : Id) : OwnTexts world (ops ++ [id, id]) := by
  intro answers s ran
  obtain ⟨before, s₁, behind, front, rest, rfl⟩ := run_append.1 ran
  have kept := kept_of_calm calm ⟨before, front⟩ id
  obtain ⟨first, s₂, _, next, rest', rfl⟩ := run_cons.1 rest
  obtain ⟨second, s₃, none_left, next', rest'', rfl⟩ := run_cons.1 rest'
  cases rest''
  simp only [List.mem_append, List.mem_cons, List.not_mem_nil, or_false]
  rintro answer (earlier | rfl | rfl)
  · exact own_of_calm calm _ _ front answer earlier
  · exact step_own kept next
  · exact step_own (step_kept_self kept next) next'

/-- What the next two steps of a handler answer is its own. -/
def OwnNext (world : World Id) (s : State Id) (id : Id) : Prop :=
  ∀ answers s', run (step world) [id, id] s = .ok (answers, s') → ∀ answer ∈ answers, Own world answer

theorem OwnNext.first (own : OwnNext world s id) (next : step world s id = .ok (answer, s')) : Own world answer := by
  obtain ⟨second, s₂, next'⟩ := step_total world s' id
  have ran : run (step world) [id, id] s = .ok ([answer, second], s₂) :=
    run_cons.2 ⟨_, _, _, next, run_cons.2 ⟨_, _, [], next', rfl, rfl⟩, rfl⟩
  exact own _ _ ran _ List.mem_cons_self

theorem OwnNext.second (own : OwnNext world s id) (next : step world s id = .ok (answer, s')) {s₂ : State Id}
    {answer' : Answer Id} (next' : step world s' id = .ok (answer', s₂)) : Own world answer' := by
  have ran : run (step world) [id, id] s = .ok ([answer, answer'], s₂) :=
    run_cons.2 ⟨_, _, _, next, run_cons.2 ⟨_, _, [], next', rfl, rfl⟩, rfl⟩
  exact own _ _ ran _ (List.mem_cons_of_mem _ List.mem_cons_self)

section Reading

variable {sock : InetSock} {current : Current} {source destination : Address}

omit [DecidableEq Id] in
/-- A line of its own shows the texts of the socket. -/
theorem Own.line {line : Line} (passes : (world.calls id).passes = some (sock, current))
    (near : sock.near.remoteAddress = some source) (far : sock.far.remoteAddress = some destination)
    (own : Own world (.printed id line)) : line.sourceIp = source.text ∧ line.destinationIp = destination.text := by
  obtain ⟨sock', current', source', destination', passes', near', far', texts⟩ := own
  rw [passes] at passes'
  cases passes'
  rw [near] at near'
  rw [far] at far'
  cases near'
  cases far'
  exact texts

omit [DecidableEq Id] in
theorem Own.ip {ip : List Byte} {exempt : Bool} (passes : (world.calls id).passes = some (sock, current))
    (far : sock.far.remoteAddress = some destination) (own : Own world (.checked id ip exempt)) : ip = destination.text := by
  obtain ⟨sock', current', destination', passes', far', text, -⟩ := own
  rw [passes] at passes'
  cases passes'
  rw [far] at far'
  cases far'
  exact text

end Reading

section Next

variable {sock : InetSock} {current : Current} {destinationIp sourceIp : Option BufferName} {line : SkProtocol × Arrow}

theorem step_check (passes : (world.calls id).passes = some (sock, current)) (stands : s.place id = .isWhitelisted destinationIp) :
    ∃ exempt s', step world s id = .ok (.checked id (s.buffers.read destinationIp) exempt, s') := by
  simp only [step, passes, stands]
  exact ⟨_, _, rfl⟩

theorem step_formatSource (passes : (world.calls id).passes = some (sock, current))
    (stands : s.place id = .getSourceIp destinationIp line) : step world s id =
      .ok (.none, ⟨s.buffers.fill (getSourceIp sock),
        Function.update s.place id (.printk destinationIp ((getSourceIp sock).map (·.1)) line)⟩) := by
  simp only [step, passes, stands]

theorem step_print (passes : (world.calls id).passes = some (sock, current))
    (stands : s.place id = .printk destinationIp sourceIp line) :
    ∃ s', step world s id = .ok (.printed id (world.line s sock current destinationIp sourceIp line), s') := by
  simp only [step, passes, stands]
  exact ⟨_, rfl⟩

end Next

/-- A handler that goes on to answer with its own texts, after a step of another one, finds what it holds unchanged. -/
theorem OwnNext.same {other : Id} {name : BufferName} (kept : KeptBy world s other) (held : (s.place other).holds name)
    (stays : s'.place other = s.place other) (own : OwnNext world s' other) : s'.buffers name = s.buffers name := by
  cases fails : (world.calls other).passes with
  | none =>
    rw [KeptBy, fails] at kept
    exact absurd held (kept name)
  | some call =>
    obtain ⟨sock, current⟩ := call
    obtain ⟨source, destination, near, far, nearAddress, farAddress, filled, filled'⟩ := passes_texts fails
    rw [keptBy_iff fails] at kept
    cases stands : s.place other with
    | getDestinationIp =>
      rw [stands] at held
      exact held.elim
    | out =>
      rw [stands] at held
      exact held.elim
    | isWhitelisted destinationIp =>
      rw [stands] at held kept stays
      obtain rfl : destinationIp = some name := held
      obtain ⟨exempt, s₂, next⟩ := step_check fails stays
      have text := (own.first next).ip fails farAddress
      exact text.trans (kept.read filled').symm
    | getSourceIp destinationIp line =>
      rw [stands] at held kept stays
      obtain rfl : destinationIp = some name := held
      have next := step_formatSource fails stays
      obtain ⟨s₂, next'⟩ := step_print (s := ⟨s'.buffers.fill (getSourceIp sock),
        Function.update s'.place other (.printk (some name) ((getSourceIp sock).map (·.1)) line)⟩) fails (Function.update_self ..)
      have text := ((own.second next next').line fails nearAddress farAddress).2
      have apart : (s'.buffers.fill (getSourceIp sock)) name = s'.buffers name := by
        rw [filled]
        apply Function.update_of_ne
        rintro rfl
        have pointer := kept.1
        rw [filled', Option.map_some, Option.some.injEq] at pointer
        obtain rfl : name = far := pointer
        exact getDestinationIp_buffer filled' (getSourceIp_buffer filled)
      exact apart.symm.trans (text.trans (kept.read filled').symm)
    | printk destinationIp sourceIp line =>
      rw [stands] at held kept stays
      obtain ⟨s₂, next⟩ := step_print fails stays
      have texts := (own.first next).line fails nearAddress farAddress
      rcases held with rfl | rfl
      · exact texts.2.trans (kept.1.read filled').symm
      · exact texts.1.trans (kept.2.read filled).symm

/-- **Which runs keep the texts apart**: those in which no handler formats another text into a buffer that some handler
has yet to read. In any other run a handler that goes on at once compares or prints the address of another socket. -/
theorem own_texts_iff (world : World Id) (ops : List Id) :
    (OwnTexts world ops ∧ ∀ pre id, pre <+: ops → OwnTexts world (pre ++ [id, id])) ↔
      Along (step world) (fun s id => ¬ Overwrites world s id) ops start := by
  constructor
  · intro given
    obtain ⟨-, goes_on⟩ := given
    apply along_of_front
    rintro pre id post s rfl calm reaches ⟨name, text, other, different, filled, held, changed⟩
    have kept := kept_of_calm calm reaches other
    obtain ⟨answer, s', next⟩ := step_total world s id
    have move := step_move next
    have own : OwnNext world s' other := by
      intro answers s₂ ran
      obtain ⟨before, front⟩ := reaches
      have whole : run (step world) (pre ++ [id] ++ [other, other]) start = .ok (before ++ [answer] ++ answers, s₂) :=
        run_append.2 ⟨_, _, _, run_snoc.2 ⟨_, _, _, front, next, rfl⟩, ran, rfl⟩
      intro answer' member
      exact goes_on (pre ++ [id]) other ⟨post, by simp⟩ _ _ whole answer' (List.mem_append_right _ member)
    have same := own.same kept held (move.place_of_ne different)
    rw [move.buffers, filled, Buffers.fill, Function.update_self] at same
    exact changed same.symm
  · intro calm
    refine ⟨own_of_calm calm, fun pre id front => ?_⟩
    obtain ⟨post, rfl⟩ := front
    exact own_next_of_calm calm.front id

/-! ### Two handlers at once -/

/-- The connect of a task to an IPv4 address at port 80. -/
def connectTo (remote : InAddr) (path : List Byte) : Call where
  handler := .postConnect
  sock := some ⟨⟨.afInet, remote, ⟨fun _ => 0⟩⟩, .tcp, ⟨10, 0, 0, 9⟩, ⟨fun _ => 0⟩, 0x1234, 0x5000⟩
  current := some ⟨⟨some [⟨true, some (some path)⟩]⟩, bytes "task", 7, 0⟩

/-- `/bin/a` connects to 1.2.3.4 while another task connects to 10.0.0.1, which is whitelisted for `/bin/a`. -/
def twoConnects : World Bool where
  calls second := if second then connectTo ⟨10, 0, 0, 1⟩ (bytes "/bin/b") else connectTo ⟨1, 2, 3, 4⟩ (bytes "/bin/a")
  whiteList := [⟨noPort, bytes "10.0.0.1", bytes "/bin/a"⟩]
  settings := ⟨false, false⟩

/-- The second handler formats its address before the first one has looked at its own, which is then exempt. -/
theorem own_texts_fails : ¬ ∀ ops, OwnTexts twoConnects ops := by
  intro own
  have ran : ∃ s, run (step twoConnects) [false, true, false] start =
      .ok ([.none, .none, .checked false (bytes "10.0.0.1") true], s) := ⟨_, rfl⟩
  obtain ⟨s, ran⟩ := ran
  obtain ⟨sock, current, address, passes, far, text, -⟩ :=
    own _ _ _ ran (.checked false (bytes "10.0.0.1") true) (by simp)
  cases passes
  cases far
  revert text
  decide +kernel

end Netlog.AddressBuffers
