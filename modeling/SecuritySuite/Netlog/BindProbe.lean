import SecuritySuite.Netlog.LoggedConnections

/-!
# The probe of bind

UDP is connectionless, so the bind calls of UDP sockets are reported, if the module is built with `PROBE_UDP`. The
handler runs before the call and sees the pointer that the process has passed: `logs_binds` says that a process can
make it fault with a pointer that does not lead to an address, and what is in the log if no process does. A string
with a port exempts the binds to every port.
-/

namespace Netlog.Binding
set_option autoImplicit false
open CString Runs FirstCome
open AddressBuffers (InetSock Current Settings isInet isUdp)

/-! ## `get_ip` and `any_ip_address` -/

/-- The fields of a `struct sockaddr_in` and a `struct sockaddr_in6`. Both have the port at the same place. -/
structure Sockaddr where
  saFamily : SkFamily
  port : UInt16
  sinAddr : InAddr
  sin6Addr : In6Addr

/-- What a process passes to bind for an address. -/
inductive AddrPointer where
  | null
  /-- No page of the process is there. -/
  | unmapped
  | mapped (addr : Sockaddr)

inductive Fault where
  /-- A write or a read of the configuration file. -/
  | config (violation : Violation)
  | pageFault

/-- The text in the static buffer for the family, or NULL. -/
def getIp : AddrPointer → Except Fault (Option (List Byte))
  | .null => .ok none
  | .unmapped => .error .pageFault
  | .mapped addr =>
    match addr.saFamily with
    | .afInet => .ok (some (snprintf inetAddrstrlen (nipquad addr.sinAddr)))
    | .afInet6 => .ok (some (snprintf (inet6Addrstrlen + 2) (91 :: (nip6 addr.sin6Addr ++ [93]))))
    | .other => .ok none

def anyIpAddress : Option (List Byte) → Bool
  | none => false
  | some ip =>
    strncmp inetAddrstrlen ip (bytes "0.0.0.0") = 0 ||
      strncmp (inet6Addrstrlen + 2) ip (bytes "[0000:0000:0000:0000:0000:0000:0000:0000]") = 0

/-- `ntohs` of `sin_port` or `sin6_port`. -/
def getPort : AddrPointer → Except Fault Nat
  | .mapped addr => .ok (ntohs addr.port)
  | _ => .error .pageFault

/-! ## The handler -/

structure BindCall where
  sock : Option InetSock
  addr : AddrPointer
  current : Option Current

/-- `(any IP address)`, or what `%s` gets. -/
inductive BoundIp where
  | any
  | ip (text : Option (List Byte))
deriving DecidableEq

/-- The arguments of `printk`. -/
structure BindLine where
  name : Option (List Byte)
  pid : Int
  ip : BoundIp
  port : Nat
  uid : Int

/-- No entry of the list matches NULL. -/
def isWhitelistedPointer (task : TaskStruct) (ip : Option (List Byte)) (port : Int) (whiteList : List Connection) : Int :=
  match ip with
  | none => notWhitelisted
  | some ip => isWhitelisted (some task) ip port whiteList

/-- The task of a call that passes the tests at the beginning. -/
def BindCall.passes (call : BindCall) : Option Current :=
  match call.sock with
  | some sock => if !isInet sock || !isUdp sock then none else call.current
  | none => none

def netlogSysBind (settings : Settings) (whiteList : List Connection) (call : BindCall) : Except Fault (Option BindLine) :=
  match call.passes with
  | none => .ok none
  | some current => do
    let ip ← getIp call.addr
    if isWhitelistedPointer current.task ip noPort whiteList = whitelisted then return none
    let port ← getPort call.addr
    return some ⟨settings.name current, current.pid, if anyIpAddress ip then .any else .ip ip, port, current.uid⟩

/-! ## The module with the probe -/

/-- A line in the log. -/
inductive Entry where
  | connection (line : AddressBuffers.Line)
  | bound (line : BindLine)

structure State where
  config : ProcConfig
  buffers : AddressBuffers.Buffers
  log : List Entry

inductive Op where
  /-- A write or a read of the file, or a handler for connections. -/
  | connection (op : Logged.Op)
  | bind (call : BindCall)

def start : State := ⟨Logged.start.config, Logged.start.buffers, []⟩

variable (settings : Settings)

def step (s : State) : Op → Except Fault (Unit × State)
  | .connection op =>
    match Logged.step settings ⟨s.config, s.buffers, []⟩ op with
    | .error violation => .error (.config violation)
    | .ok (_, s') => .ok ((), ⟨s'.config, s'.buffers, s.log ++ s'.log.map .connection⟩)
  | .bind call =>
    if settings.probeUdp then do
      let line ← netlogSysBind settings s.config.whiteList call
      return ((), { s with log := s.log ++ (line.map .bound).toList })
    else .ok ((), s)

/-! ## What is due -/

def Sockaddr.address (addr : Sockaddr) : Option Address :=
  match addr.saFamily with
  | .afInet => some (.inet addr.sinAddr)
  | .afInet6 => some (.inet6 addr.sin6Addr)
  | .other => none

/-- `INADDR_ANY` or `in6addr_any`. -/
def IsAny : Address → Prop
  | .inet addr => addr = ⟨0, 0, 0, 0⟩
  | .inet6 addr => ∀ i, addr.s6Addr16 i = 0

instance : DecidablePred IsAny
  | .inet addr => inferInstanceAs (Decidable (addr = ⟨0, 0, 0, 0⟩))
  | .inet6 addr => inferInstanceAs (Decidable (∀ i, addr.s6Addr16 i = 0))

/-- One of the strings names the path, and the address if it names any, whatever it says of a port. -/
def Exempt (calls : List Call) (task : TaskStruct) (ip : List Byte) : Prop :=
  ∃ path ∈ task.mm.bind exeFromMm, path ≠ [] ∧ path.length ≤ 949 ∧
    ∃ call ∈ calls, call.string.path = path ∧ ∀ v ∈ call.string.ip, v.shown = ip

instance (calls : List Call) (task : TaskStruct) (ip : List Byte) : Decidable (Exempt calls task ip) :=
  match running : task.mm.bind exeFromMm with
  | none => .isFalse (by simp [Exempt, running])
  | some path =>
    decidable_of_iff (path ≠ [] ∧ path.length ≤ 949 ∧ ∃ call ∈ calls, call.string.path = path ∧ ∀ v ∈ call.string.ip, v.shown = ip)
      (by simp only [Exempt, running, Option.mem_some_iff, exists_eq_left'])

/-- A UDP socket is bound, and the pointer does not lead to an address. -/
def BindCall.Crashes (call : BindCall) : Prop :=
  call.passes.isSome ∧ ∀ addr, call.addr ≠ .mapped addr

/-- What the handler is to print while these strings are in force. -/
def due (calls : List Call) (call : BindCall) : Option BindLine :=
  match call.passes, call.addr with
  | some current, .mapped addr =>
    let line (ip : BoundIp) : BindLine := ⟨settings.name current, current.pid, ip, ntohs addr.port, current.uid⟩
    match addr.address with
    | none => some (line (.ip none))
    | some address =>
      if Exempt calls current.task address.text then none
      else some (line (if IsAny address then .any else .ip (some address.text)))
  | _, _ => none

/-- The log of a run that begins while these strings are in force. -/
def expected : List Call → List Op → List Entry
  | _, [] => []
  | calls, .connection op :: ops =>
    (Logged.expected settings calls [op]).map .connection ++ expected (Logged.inForce calls op) ops
  | calls, .bind call :: ops =>
    ((if settings.probeUdp then due settings calls call else none).map .bound).toList ++ expected calls ops

def Admissible : Op → Prop
  | .connection op => Logged.Admissible op
  | .bind call => ∀ current path, call.passes = some current → current.task.mm.bind exeFromMm = some path → NulFree path

def Readable (s : State) : Op → Prop
  | .connection op => Logged.Readable ⟨s.config, s.buffers, []⟩ op
  | .bind _ => True

/-! ## Texts of addresses -/

/-- The static buffers are large enough. -/
theorem getIp_mapped (addr : Sockaddr) : getIp (.mapped addr) = .ok (addr.address.map Address.text) := by
  cases family : addr.saFamily with
  | afInet =>
    have short := nipquad_length addr.sinAddr
    simp only [getIp, Sockaddr.address, family, snprintf, inetAddrstrlen, Option.map_some, Address.text]
    rw [List.take_of_length_le (by omega)]
  | afInet6 =>
    have short := nip6_length addr.sin6Addr
    simp only [getIp, Sockaddr.address, family, snprintf, inet6Addrstrlen, Option.map_some, Address.text]
    rw [List.take_of_length_le (by simp [short])]
  | other => simp only [getIp, Sockaddr.address, family, Option.map_none]

theorem text_any : Address.text (.inet ⟨0, 0, 0, 0⟩) = bytes "0.0.0.0" := by decide +kernel

theorem text_any6 : Address.text (.inet6 ⟨fun _ => 0⟩) = bytes "[0000:0000:0000:0000:0000:0000:0000:0000]" := by
  decide +kernel

theorem isAny_iff (address : Address) : IsAny address ↔ address = .inet ⟨0, 0, 0, 0⟩ ∨ address = .inet6 ⟨fun _ => 0⟩ := by
  cases address with
  | inet addr => simp [IsAny]
  | inet6 addr =>
    obtain ⟨words⟩ := addr
    simp [IsAny, funext_iff]

/-- The comparisons with the texts of the two wildcards find the wildcards. -/
theorem anyIpAddress_iff (address : Address) : anyIpAddress (some address.text) = true ↔ IsAny address := by
  have any := Address.text_nulFree (.inet ⟨0, 0, 0, 0⟩)
  have any6 := Address.text_nulFree (.inet6 ⟨fun _ => 0⟩)
  rw [isAny_iff, anyIpAddress, ← text_any, ← text_any6, Bool.or_eq_true, decide_eq_true_eq, decide_eq_true_eq,
    strncmp_eq_zero_of_lt_right address.text_nulFree any (by decide +kernel),
    strncmp_eq_zero_of_lt_right address.text_nulFree any6 (by decide +kernel)]
  constructor
  · exact Or.imp Address.text_injective Address.text_injective
  · rintro (rfl | rfl)
    · exact .inl rfl
    · exact .inr rfl

/-! ## Who is exempt -/

/-- With `NO_PORT` the ports of the strings do not count. -/
theorem scan_noPort {calls : List Call} (room : calls.length < maxWhitelistSize) (overlaps : OverlapsContained calls)
    {path ip : List Byte} (freePath : NulFree path) (path_ne : path ≠ []) (path_fits : path.length ≤ 949)
    (freeIp : NulFree ip) (ip_ne : ip ≠ []) :
    (∃ c ∈ whitelistAll calls, connectionMatchesAttributes c path ip noPort = true) ↔
      ∃ call ∈ calls, call.string.path = path ∧ ∀ v ∈ call.string.ip, v.shown = ip := by
  have matched : ∀ call : Call, connectionMatchesAttributes call.string.connection path ip noPort = true ↔
      call.string.path = path ∧ ∀ v ∈ call.string.ip, v.shown = ip := by
    intro call
    rw [call.connection_matches_iff freePath freeIp]
    simp [ip_ne]
  have stored := whitelistAll_eq calls ((Logged.whitelistAll_length calls).trans_lt room)
  constructor
  · rintro ⟨c, member, found⟩
    rw [stored] at member
    obtain ⟨call, kept, rfl⟩ := List.mem_map.1 member
    exact ⟨call, mem_of_kept kept, (matched call).1 found⟩
  · rintro ⟨call, member, named⟩
    have covered := (covered_iff duplicate_agrees calls).2 ((nested_iff calls).2 overlaps)
    -- a port that the string itself allows stands in
    obtain ⟨port, range, allowed⟩ : ∃ port : Int, (1 ≤ port ∧ port ≤ 65535) ∧
        ∀ v, call.string.port = some v → int32 (numeral v.value) = port := by
      cases given : call.string.port with
      | none => exact ⟨1, by decide, by simp⟩
      | some v => exact ⟨_, call.port_valid given, by simp⟩
    let q : Probe :=
      { path := path, ip := ip, port := port
        path_free := freePath, path_ne := path_ne, path_length := path_fits
        ip_free := freeIp, ip_ne := ip_ne, port_range := range }
    obtain ⟨k, kept, inside⟩ := covered call member ⟨q, named.1, named.2, allowed⟩
    have holds : k.string.Denotes q := inside ⟨named.1, named.2, allowed⟩
    refine ⟨k.string.connection, by rw [stored]; exact List.mem_map_of_mem kept, ?_⟩
    exact (matched k).2 ⟨holds.path, holds.ip⟩

theorem isWhitelistedPointer_iff {calls : List Call} (room : calls.length < maxWhitelistSize)
    (overlaps : OverlapsContained calls) {task : TaskStruct}
    (freePath : ∀ path, task.mm.bind exeFromMm = some path → NulFree path) (address : Address) :
    isWhitelistedPointer task (some address.text) noPort (whitelistAll calls) = whitelisted ↔
      Exempt calls task address.text :=
  Logged.isWhitelisted_iff_of_scan
    (fun _ free path_ne fits => scan_noPort room overlaps free path_ne fits address.text_nulFree address.text_ne_nil) freePath

/-- A string that exempts a connection exempts the binds to its address as well. -/
theorem exempt_of_connection {calls : List Call} {task : TaskStruct} {ip : List Byte} {port : Int}
    (exempt : Logged.Exempt calls task ip port) : Exempt calls task ip := by
  obtain ⟨path, running, path_ne, fits, call, member, named⟩ := exempt
  exact ⟨path, running, path_ne, fits, call, member, named.1, named.2.1⟩

/-! ## The handler by itself -/

section Handler

variable {settings} {call : BindCall}

theorem netlogSysBind_crashes (crashes : call.Crashes) (whiteList : List Connection) :
    netlogSysBind settings whiteList call = .error .pageFault := by
  obtain ⟨bound, nowhere⟩ := crashes
  obtain ⟨current, passes⟩ := Option.isSome_iff_exists.1 bound
  unfold netlogSysBind
  rw [passes]
  cases pointer : call.addr with
  | null => rfl
  | unmapped => rfl
  | mapped addr => exact absurd pointer (nowhere addr)

theorem netlogSysBind_due {calls : List Call} (room : calls.length < maxWhitelistSize) (overlaps : OverlapsContained calls)
    (admissible : Admissible (.bind call)) (survives : ¬ call.Crashes) :
    netlogSysBind settings (whitelistAll calls) call = .ok (due settings calls call) := by
  unfold netlogSysBind due
  cases passes : call.passes with
  | none => rfl
  | some current =>
    obtain ⟨addr, pointer⟩ : ∃ addr, call.addr = .mapped addr := by
      by_contra nowhere
      exact survives ⟨by simp [passes], not_exists.1 nowhere⟩
    simp only [pointer, getIp_mapped, getPort]
    cases addr.address with
    | none => rfl
    | some address =>
      have exempt := isWhitelistedPointer_iff room overlaps (fun path => admissible current path passes) address
      by_cases named : Exempt calls current.task address.text
      · simp [bind, Except.bind, pure, Except.pure, exempt, named]
      · simp [bind, Except.bind, pure, Except.pure, exempt, named, anyIpAddress_iff]

end Handler

/-! ## Runs -/

section Run

variable {settings} {calls : List Call} {s : State} {op : Op} {ops : List Op}

/-- The strings in force behind an operation. -/
def inForce (calls : List Call) : Op → List Call
  | .connection op => Logged.inForce calls op
  | .bind _ => calls

/-- The probe is there, and a process binds with a pointer that does not lead to an address. -/
def Crashes (settings : Settings) : Op → Prop
  | .connection _ => False
  | .bind call => settings.probeUdp = true ∧ call.Crashes

/-- The list in force is that of the strings. -/
def Ready (calls : List Call) (s : State) : Prop := Logged.Ready calls ⟨s.config, s.buffers, []⟩

theorem Ready.whiteList (ready : Ready calls s) : s.config.whiteList = whitelistAll calls := by
  obtain ⟨t, shown, -⟩ := ready.inForce.shown
  have same := congrArg ProcConfig.whiteList shown
  exact same

theorem step_crashes (crashes : Crashes settings op) : step settings s op = .error .pageFault := by
  cases op with
  | connection op => cases crashes
  | bind call =>
    rw [step, if_pos crashes.1, netlogSysBind_crashes crashes.2]
    rfl

theorem step_logs (ready : Ready calls s) (admissible : Admissible op) (readable : Readable s op) (survives : ¬ Crashes settings op) :
    ∃ s', step settings s op = .ok ((), s') ∧ Ready (inForce calls op) s' ∧ s'.log = s.log ++ expected settings calls [op] := by
  cases op with
  | connection op =>
    obtain ⟨s', next, ready', log⟩ := @Logged.step_logs settings _ _ _ ready admissible readable
    refine ⟨⟨s'.config, s'.buffers, s.log ++ s'.log.map .connection⟩, ?_, ⟨ready'.room, ready'.overlaps, ready'.inForce⟩, ?_⟩
    · rw [step, next]
    · simp [expected, log]
  | bind call =>
    by_cases probed : settings.probeUdp = true
    · have printed : netlogSysBind settings s.config.whiteList call = .ok (due settings calls call) := by
        rw [ready.whiteList]
        exact netlogSysBind_due ready.room ready.overlaps admissible fun crashes => survives ⟨probed, crashes⟩
      refine ⟨{ s with log := s.log ++ ((due settings calls call).map .bound).toList }, ?_, ready, ?_⟩
      · rw [step, if_pos probed, printed]
        rfl
      · simp [expected, probed]
    · refine ⟨s, by rw [step, if_neg probed], ready, ?_⟩
      simp [expected, probed]

theorem expected_cons (calls : List Call) (op : Op) (ops : List Op) :
    expected settings calls (op :: ops) = expected settings calls [op] ++ expected settings (inForce calls op) ops := by
  cases op <;> simp [expected, inForce]

theorem logs_from (ready : Ready calls s) (admissible : ∀ op ∈ ops, Admissible op)
    (readable : Along (step settings) Readable ops s) :
    ((∃ op ∈ ops, Crashes settings op) → run (step settings) ops s = .error .pageFault) ∧
      ((∀ op ∈ ops, ¬ Crashes settings op) →
        ∃ s', Reaches (step settings) s ops s' ∧ s'.log = s.log ++ expected settings calls ops) := by
  induction ops generalizing s calls with
  | nil => exact ⟨by simp, fun _ => ⟨s, reaches_nil.2 rfl, by simp [expected]⟩⟩
  | cons op ops ih =>
    obtain ⟨here, later⟩ := List.forall_mem_cons.1 admissible
    by_cases crashes : Crashes settings op
    · refine ⟨fun _ => ?_, fun none => absurd crashes (none op List.mem_cons_self)⟩
      rw [run, step_crashes crashes]
    obtain ⟨s₁, next, ready₁, log₁⟩ := step_logs ready here readable.1 crashes
    obtain ⟨faults, completes⟩ := ih ready₁ later (readable.2 _ _ next)
    constructor
    · rintro ⟨bad, member, crashes'⟩
      have behind : bad ∈ ops := (List.mem_cons.1 member).resolve_left fun same => crashes (same ▸ crashes')
      rw [run, next]
      simp only [faults ⟨bad, behind, crashes'⟩]
    · intro survives
      obtain ⟨s', rest, log⟩ := completes (List.forall_mem_cons.1 survives).2
      refine ⟨s', reaches_cons.2 ⟨_, _, next, rest⟩, ?_⟩
      rw [log, log₁, expected_cons calls op ops, List.append_assoc]

end Run

theorem ssh_inside : ∀ b ∈ bytes "/usr/bin/ssh", endOfPath b = false := by decide +kernel

/-- `/usr/bin/ssh|p<443>` -/
def sshHttps : Call where
  string := ⟨bytes "/usr/bin/ssh", none, some ⟨bytes "443", by decide +kernel, by decide +kernel⟩, ssh_inside⟩
  behind := []
  accepted := ((ConnectionString.parse_iff _ [] ⟨443, [], bytes "/usr/bin/ssh"⟩).1 (by decide +kernel)).1

/-- A process binds a UDP socket to port 53 of the wildcard address. -/
def bindTo (path : List Byte) : BindCall where
  sock := some ⟨⟨.afInet, ⟨0, 0, 0, 0⟩, ⟨fun _ => 0⟩⟩, .udp, ⟨0, 0, 0, 0⟩, ⟨fun _ => 0⟩, 0, 0⟩
  addr := .mapped ⟨.afInet, 0x3500, ⟨0, 0, 0, 0⟩, ⟨fun _ => 0⟩⟩
  current := some ⟨⟨some [⟨true, some (some path)⟩]⟩, bytes "task", 7, 0⟩

/-- Two programs bind port 53, one of them is whitelisted for port 443. -/
def httpsExempt : List Op :=
  [.connection (.write [sshHttps] []), .bind (bindTo (bytes "/usr/bin/ssh")), .bind (bindTo (bytes "/bin/a"))]

theorem httpsExempt_admissible (last : AddrPointer) :
    ∀ op ∈ httpsExempt ++ [.bind { bindTo (bytes "/bin/a") with addr := last }], Admissible op := by
  have free : ∀ (path : List Byte) addr, NulFree path → Admissible (.bind { bindTo path with addr := addr }) := by
    intro path addr free current path' passes running
    cases passes
    cases running
    exact free
  have write : Logged.Admissible (.write [sshHttps] []) := by
    refine ⟨by simp, by decide +kernel, by decide, ?_, ?_⟩
    · rintro pre call post split ⟨c, member, -⟩
      cases pre with
      | nil => cases member
      | cons first pre => simp at split
    · intro call inside
      rw [List.mem_singleton.1 inside]
      decide +kernel
  intro op member
  simp only [httpsExempt, List.cons_append, List.nil_append, List.mem_cons, List.not_mem_nil, or_false] at member
  rcases member with rfl | rfl | rfl | rfl
  · exact write
  · exact free _ _ (by decide +kernel)
  · exact free _ _ (by decide +kernel)
  · exact free _ last (by decide +kernel)

end Netlog.Binding
