import SecuritySuite.Netlog.LogLine
import SecuritySuite.Netlog.ProcRoundTrip
import SecuritySuite.Netlog.WhitelistUnion

/-!
# Which connections are logged

The configuration file and the probe handlers together, each operation run to its end before the next one begins.
What an administrator writes takes effect at once and replaces what was written before: `logs_what_is_due` says that the log then
holds a line for each connection of a handler that no string of the last write names, and no other line.
-/

namespace Netlog.Logged
set_option autoImplicit false
open CString Separated Runs FirstCome

/-- What the operations work on. -/
structure State where
  config : ProcConfig
  buffers : AddressBuffers.Buffers
  log : List AddressBuffers.Line

inductive Op where
  /-- `procfile_write` of strings with commas between them and a newline behind the last one. -/
  | write (calls : List Call) (stack : Memory)
  | read (bufferLength : Int)
  /-- A probe handler. -/
  | handler (call : AddressBuffers.Call)

/-- Behind `create_proc_config`. -/
def start : State := ⟨(createProcConfig true initialProcConfig).2, fun _ => [], []⟩

def written (calls : List Call) : List Byte := [44].intercalate (calls.map (·.string.text)) ++ [10]

def writeCall (calls : List Call) (stack : Memory) : WriteCall where
  buffer := written calls
  readable := (written calls).length
  padded := false
  kmalloc _ := true
  stack := stack

/-- A handler takes its four steps. -/
def runHandler (settings : AddressBuffers.Settings) (whiteList : List Connection) (call : AddressBuffers.Call)
    (buffers : AddressBuffers.Buffers) : List AddressBuffers.Line × AddressBuffers.Buffers :=
  match run (AddressBuffers.step ⟨fun _ => call, whiteList, settings⟩) [(), (), (), ()]
    ⟨buffers, fun _ => .getDestinationIp⟩ with
  | .ok (answers, s) => (AddressBuffers.printed answers, s.buffers)
  | .error fault => nomatch fault

variable (settings : AddressBuffers.Settings)

def step (s : State) : Op → Except Violation (Unit × State)
  | .write calls stack => do
    let (_, config) ← procfileWrite (writeCall calls stack) s.config
    return ((), { s with config })
  | .read bufferLength => do
    let (_, config) ← procfileRead 0 bufferLength s.config
    return ((), { s with config })
  | .handler call =>
    let (lines, buffers) := runHandler settings s.config.whiteList call s.buffers
    .ok ((), { s with buffers, log := s.log ++ lines })

/-! ## What is due -/

/-- The string names the connection of a process. -/
def Names (s : ConnectionString) (path ip : List Byte) (port : Int) : Prop :=
  s.path = path ∧ (∀ v, s.ip = some v → v.shown = ip) ∧ ∀ v, s.port = some v → int32 (numeral v.value) = port

instance (s : ConnectionString) (path ip : List Byte) (port : Int) : Decidable (Names s path ip port) :=
  inferInstanceAs (Decidable (s.path = path ∧ (∀ v ∈ s.ip, v.shown = ip) ∧
    ∀ v ∈ s.port, int32 (numeral v.value) = port))

/-- One of the strings names the connection, and the process has a path that can be whitelisted. -/
def Exempt (calls : List Call) (task : TaskStruct) (ip : List Byte) (port : Int) : Prop :=
  ∃ path ∈ task.mm.bind exeFromMm, path ≠ [] ∧ path.length ≤ 949 ∧ ∃ call ∈ calls, Names call.string path ip port

instance (calls : List Call) (task : TaskStruct) (ip : List Byte) (port : Int) : Decidable (Exempt calls task ip port) :=
  match running : task.mm.bind exeFromMm with
  | none => .isFalse (by simp [Exempt, running])
  | some path =>
    decidable_of_iff (path ≠ [] ∧ path.length ≤ 949 ∧ ∃ call ∈ calls, Names call.string path ip port)
      (by simp [Exempt, running])

/-- The line of a handler: its own addresses, and the protocol and the arrow of its call. -/
def lineOf (call : AddressBuffers.Call) (sock : AddressBuffers.InetSock) (current : AddressBuffers.Current) :
    Option AddressBuffers.Line :=
  (settings.reports call.handler sock).map fun line =>
    { name := settings.name current
      pid := current.pid
      protocol := line.1
      sourceIp := ((AddressBuffers.getSourceIp sock).map (·.2)).getD []
      sourcePort := AddressBuffers.getSourcePort sock
      arrow := line.2
      destinationIp := ((AddressBuffers.getDestinationIp sock).map (·.2)).getD []
      destinationPort := AddressBuffers.getDestinationPort sock
      uid := current.uid }

/-- What a handler is to print while these strings are in force. -/
def due (calls : List Call) (call : AddressBuffers.Call) : List AddressBuffers.Line :=
  match call.passes with
  | none => []
  | some (sock, current) =>
    if Exempt calls current.task (((AddressBuffers.getDestinationIp sock).map (·.2)).getD [])
      (AddressBuffers.getDestinationPort sock) then []
    else (lineOf settings call sock current).toList

/-- The log of a run that begins while these strings are in force. -/
def expected : List Call → List Op → List AddressBuffers.Line
  | _, [] => []
  | _, .write calls _ :: ops => expected calls ops
  | calls, .read _ :: ops => expected calls ops
  | calls, .handler call :: ops => due settings calls call ++ expected calls ops

/-- Strings that a write can carry, and that mean their union; processes have C strings for paths. -/
def Admissible : Op → Prop
  | .write calls _ =>
    calls ≠ [] ∧ (written calls).length < procfsMaxSize ∧ calls.length < maxWhitelistSize ∧ OverlapsContained calls ∧
      ∀ call ∈ calls, 44 ∉ call.string.text ∧ call.string.text.length < maxNewConnectionSize
  | .read _ => True
  | .handler call => ∀ sock current path, call.passes = some (sock, current) →
      current.task.mm.bind exeFromMm = some path → NulFree path

/-- Nothing is read from an empty buffer. -/
def Readable (s : State) : Op → Prop
  | .read bufferLength => ulong bufferLength < s.config.procfsBufferSize ∨ 1 ≤ s.config.procfsBufferSize
  | _ => True

/-! ## The white list that a write leaves -/

theorem whitelistAll_length (calls : List Call) : (whitelistAll calls).length ≤ calls.length := by
  induction calls using List.reverseRecOn with
  | nil => exact Nat.le_refl _
  | append_singleton calls call ih =>
    rw [whitelistAll_snoc, List.length_append, List.length_singleton]
    rcases whitelist_cases true call.memory (whitelistAll calls) with failed | ⟨c, -, -, -, stored⟩
    · rw [failed]
      exact Nat.le_succ_of_le ih
    · rw [stored, List.length_append, List.length_singleton]
      exact Nat.succ_le_succ ih

theorem call_local (call : Call) : Local call.string.text := by
  intro t
  rw [parsed, call.string.parse t call.accepted, ← call.string.parse [] call.accepted]

theorem call_parsed (call : Call) : parsed call.string.text = some call.string.connection :=
  call.string.parse [] call.accepted

/-- The pieces that a write keeps are the strings that `whitelist` stores. -/
theorem keptPieces_calls (calls : List Call) :
    Parsed (keptPieces (calls.map (·.string.text))) ∧
      (keptPieces (calls.map (·.string.text))).filterMap parsed = whitelistAll calls := by
  induction calls using List.reverseRecOn with
  | nil => exact ⟨fun s member => absurd member (List.not_mem_nil), rfl⟩
  | append_singleton calls call ih =>
    obtain ⟨all, same⟩ := ih
    have decided := refused_iff all (call_local call) call.behind
    rw [same] at decided
    rw [List.map_append, List.map_singleton, keptPieces, keepAll_snoc, ← keptPieces, whitelistAll_snoc, keep]
    rcases whitelist_cases true call.memory (whitelistAll calls) with failed | ⟨c, read, room, fresh, stored⟩
    · have refused : Refused true call.memory (whitelistAll calls) := by
        unfold whitelist at failed
        split at failed
        · exact .inl ‹_›
        · split at failed
          · rename_i unread
            exact .inr fun c read => by rw [read] at unread; cases unread
          · rename_i c read
            split at failed
            · exact .inr fun c' read' => by
                rw [read] at read'
                cases read'
                assumption
            · cases failed
      rw [if_neg (by rw [decided.1 refused]; decide), failed]
      exact ⟨all, same⟩
    · have admitted : ¬ Refused true call.memory (whitelistAll calls) := by
        rintro (full | equal)
        · exact room full
        · rw [equal c read] at fresh
          cases fresh
      have accepted : accepts (keptPieces (calls.map (·.string.text))) call.string.text = true := by
        simpa using mt decided.2 admitted
      rw [Call.memory, call_local call, call_parsed call] at read
      cases read
      rw [if_pos accepted, stored, List.filterMap_append, same]
      refine ⟨fun s member => ?_, by simp [call_parsed]⟩
      rcases List.mem_append.1 member with before | last
      · exact all s before
      · rw [List.mem_singleton.1 last, call_parsed]
        rfl

/-- The list is that of the strings in force, and the buffer holds a text. -/
structure InForce (calls : List Call) (config : ProcConfig) : Prop where
  shown : ∃ t, config = shownConfig (whitelistAll calls) t ∧ NulFree t ∧ t.length < procfsMaxSize

theorem write_inForce {calls : List Call} (stack : Memory) (config : ProcConfig) (nonempty : calls ≠ [])
    (fits : (written calls).length < procfsMaxSize)
    (short : ∀ call ∈ calls, 44 ∉ call.string.text ∧ call.string.text.length < maxNewConnectionSize) :
    ∃ config', procfileWrite (writeCall calls stack) config = .ok ((written calls).length, config') ∧
      InForce calls config' := by
  have free : NulFree ([44].intercalate (calls.map (·.string.text))) := by
    apply nulFree_intercalate
    intro s member
    obtain ⟨call, -, rfl⟩ := List.mem_map.1 member
    exact call.string.text_nulFree
  have pieces : writtenPieces (writeCall calls stack) = calls.map (·.string.text) := by
    rw [writtenPieces, writtenText, writeCall, written, List.dropLast_concat, text_of_nulFree free]
    apply List.splitOn_intercalate
    · intro s member
      obtain ⟨call, inside, rfl⟩ := List.mem_map.1 member
      exact (short call inside).1
    · simpa using nonempty
  have each : ∀ p ∈ writtenPieces (writeCall calls stack), p.length < maxNewConnectionSize ∧ Local p := by
    intro p member
    rw [pieces] at member
    obtain ⟨call, inside, rfl⟩ := List.mem_map.1 member
    exact ⟨(short call inside).2, call_local call⟩
  obtain ⟨wrote, bound⟩ := procfileWrite_listing (w := writeCall calls stack) config
    (by simp [writeCall, written]) fits (Nat.le_refl _) (fun _ => rfl) (fun p member => (each p member).1)
    fun p member => (each p member).2
  obtain ⟨-, same⟩ := keptPieces_calls calls
  rw [pieces] at wrote bound
  rw [listing, same] at wrote
  refine ⟨_, wrote, _, rfl, ?_, bound.trans_lt fits⟩
  intro b member
  rcases mem_terminated member with rfl | ⟨s, kept, inside⟩
  · decide
  · obtain ⟨call, -, rfl⟩ := List.mem_map.1 (mem_of_keepAll kept)
    exact call.string.text_nulFree b inside

theorem read_inForce {calls : List Call} {config : ProcConfig} (inForce : InForce calls config) {bufferLength : Int}
    (readable : ulong bufferLength < config.procfsBufferSize ∨ 1 ≤ config.procfsBufferSize) :
    ∃ result config', procfileRead 0 bufferLength config = .ok (result, config') ∧ InForce calls config' := by
  by_cases small : ulong bufferLength < config.procfsBufferSize
  · exact ⟨⟨0, []⟩, config, by rw [procfileRead, if_neg (by decide), if_pos small]; rfl, inForce⟩
  have nonempty := readable.resolve_left small
  obtain ⟨t, rfl, free, fits⟩ := inForce
  have kept : InForce calls (trimLastComma (shownConfig (whitelistAll calls) t)) := by
    by_cases comma : (shownConfig (whitelistAll calls) t).procfsBuffer.get (t.length - 1) = 44
    · obtain ⟨front, last, rfl⟩ := (List.eq_nil_or_concat' t).resolve_left (by
        rintro rfl
        simp [shownConfig] at nonempty)
      have shorter : front.length < procfsMaxSize := by
        rw [List.length_append, List.length_singleton] at fits
        omega
      have same : last = 44 := by
        rw [List.length_append, List.length_singleton, Nat.add_sub_cancel] at comma
        exact (Buffer.get_ofText shorter).symm.trans comma
      subst same
      rw [trimLastComma_comma _ shorter]
      exact ⟨front, rfl, (nulFree_append.1 free).1, shorter⟩
    · rw [trimLastComma_other comma]
      exact ⟨t, rfl, free, fits⟩
  have after := kept
  obtain ⟨t', shown, -, fits'⟩ := kept
  refine ⟨_, _, procfileRead_shown _ _ small nonempty (Nat.le_of_lt fits) ?_, after⟩
  rw [shown]
  exact nul_mem_shown fits'

/-! ## Who is exempt -/

theorem Names.matches_ {call : Call} {path ip : List Byte} {port : Int} (freePath : NulFree path) (freeIp : NulFree ip)
    (ip_ne : ip ≠ []) (port_ne : port ≠ noPort) :
    connectionMatchesAttributes call.string.connection path ip port = true ↔ Names call.string path ip port := by
  rw [call.connection_matches_iff freePath freeIp, Names]
  simp only [ip_ne, port_ne, false_or]

/-- The scan of the list finds what the strings name, at port 0 too, which no string can name by its number. -/
theorem scan_iff {calls : List Call} (room : calls.length < maxWhitelistSize) (overlaps : OverlapsContained calls)
    {path ip : List Byte} {port : Int} (freePath : NulFree path) (path_ne : path ≠ []) (path_fits : path.length ≤ 949)
    (freeIp : NulFree ip) (ip_ne : ip ≠ []) (low : 0 ≤ port) (high : port ≤ 65535) :
    (∃ c ∈ whitelistAll calls, connectionMatchesAttributes c path ip port = true) ↔
      ∃ call ∈ calls, Names call.string path ip port := by
  have port_ne : port ≠ noPort := by
    unfold noPort
    omega
  have stored := whitelistAll_eq calls ((whitelistAll_length calls).trans_lt room)
  constructor
  · rintro ⟨c, member, found⟩
    rw [stored] at member
    obtain ⟨call, kept, rfl⟩ := List.mem_map.1 member
    exact ⟨call, mem_of_kept kept, (Names.matches_ freePath freeIp ip_ne port_ne).1 found⟩
  · rintro ⟨call, member, named⟩
    have covered := (covered_iff duplicate_agrees calls).2 ((nested_iff calls).2 overlaps)
    -- for port 0, a port that no string names stands in
    obtain ⟨other, fresh, -, -, fresh_low, fresh_high, unnamed⟩ := exists_unnamed calls room
    let q : Probe :=
      { path := path, ip := ip, port := if port = 0 then fresh else port
        path_free := freePath, path_ne := path_ne, path_length := path_fits
        ip_free := freeIp, ip_ne := ip_ne
        port_range := by split <;> omega }
    have valid : ∀ call : Call, ∀ v, call.string.port = some v → int32 (numeral v.value) ≠ 0 := by
      intro call v here
      have := call.port_valid here
      omega
    have denotes : call.string.Denotes q := by
      refine ⟨named.1, named.2.1, fun v here => ?_⟩
      have same := named.2.2 v here
      have nonzero := valid call v here
      rw [same] at nonzero
      rw [same]
      exact (if_neg nonzero).symm
    obtain ⟨k, kept, inside⟩ := covered call member ⟨q, denotes⟩
    have holds : k.string.Denotes q := inside denotes
    refine ⟨k.string.connection, by rw [stored]; exact List.mem_map_of_mem kept, ?_⟩
    rw [Names.matches_ freePath freeIp ip_ne port_ne]
    refine ⟨holds.path, holds.ip, fun v here => ?_⟩
    have same := holds.port v here
    simp only [q] at same
    split at same
    · exact absurd same ((unnamed k (mem_of_kept kept)).2 v here)
    · exact same

/-- What a scan of the list finds for every path decides what `is_whitelisted` says of a task. -/
theorem isWhitelisted_iff_of_scan {whiteList : List Connection} {ip : List Byte} {port : Int} {Found : List Byte → Prop}
    (scan : ∀ path, NulFree path → path ≠ [] → path.length ≤ 949 →
      ((∃ c ∈ whiteList, connectionMatchesAttributes c path ip port = true) ↔ Found path))
    {task : TaskStruct} (freePath : ∀ path, task.mm.bind exeFromMm = some path → NulFree path) :
    isWhitelisted (some task) ip port whiteList = whitelisted ↔
      ∃ path ∈ task.mm.bind exeFromMm, path ≠ [] ∧ path.length ≤ 949 ∧ Found path := by
  cases running : task.mm.bind exeFromMm with
  | none => simp [isWhitelisted, running, whitelisted, notWhitelisted]
  | some path =>
    by_cases fits : path ≠ [] ∧ path.length ≤ 949
    · rw [isWhitelisted_eq running fits.1 fits.2, scan path (freePath path running) fits.1 fits.2]
      simp [fits.1, fits.2]
    · have refused : path.length = 0 ∨ maxAbsoluteExecPath ≤ path.length := by
        by_contra unrefused
        unfold maxAbsoluteExecPath at unrefused
        refine fits ⟨?_, by omega⟩
        rintro rfl
        exact unrefused (.inl rfl)
      rw [isWhitelisted, Option.bind_some, running]
      simp only [if_pos refused]
      refine iff_of_false (by decide) ?_
      rintro ⟨path', same, path_ne, path_fits, -⟩
      cases same
      exact fits ⟨path_ne, path_fits⟩

theorem isWhitelisted_iff {calls : List Call} (room : calls.length < maxWhitelistSize) (overlaps : OverlapsContained calls)
    {task : TaskStruct} (freePath : ∀ path, task.mm.bind exeFromMm = some path → NulFree path) {ip : List Byte}
    (freeIp : NulFree ip) (ip_ne : ip ≠ []) {port : Int} (low : 0 ≤ port) (high : port ≤ 65535) :
    isWhitelisted (some task) ip port (whitelistAll calls) = whitelisted ↔ Exempt calls task ip port :=
  isWhitelisted_iff_of_scan
    (fun _ free path_ne fits => scan_iff room overlaps free path_ne fits freeIp ip_ne low high) freePath

/-! ## A handler by itself -/

section Handler

variable {settings} {call : AddressBuffers.Call} {sock : AddressBuffers.InetSock} {current : AddressBuffers.Current}

theorem runHandler_fails (fails : call.passes = none) (whiteList : List Connection) (buffers : AddressBuffers.Buffers) :
    (runHandler settings whiteList call buffers).1 = [] := by
  simp [runHandler, run, AddressBuffers.step, fails, AddressBuffers.printed]

/-- Undisturbed, a handler prints its own line unless its connection is whitelisted. -/
theorem runHandler_passes (passes : call.passes = some (sock, current)) (whiteList : List Connection)
    (buffers : AddressBuffers.Buffers) :
    (runHandler settings whiteList call buffers).1 =
      if isWhitelisted (some current.task) (((AddressBuffers.getDestinationIp sock).map (·.2)).getD [])
        (AddressBuffers.getDestinationPort sock) whiteList = whitelisted then []
      else (lineOf settings call sock current).toList := by
  obtain ⟨source, destination, near, far, -, -, nearText, farText⟩ := AddressBuffers.passes_texts passes
  have apart : far ≠ near := by
    rintro rfl
    exact AddressBuffers.getDestinationIp_buffer farText (AddressBuffers.getSourceIp_buffer nearText)
  rw [farText, Option.map_some, Option.getD_some]
  by_cases exempt : isWhitelisted (some current.task) destination.text (AddressBuffers.getDestinationPort sock) whiteList =
    whitelisted
  · simp [runHandler, run, AddressBuffers.step, passes, farText, AddressBuffers.Buffers.fill, AddressBuffers.Buffers.read,
      exempt, AddressBuffers.printed]
  · cases reports : settings.reports call.handler sock with
    | none =>
      simp [runHandler, run, AddressBuffers.step, passes, farText, AddressBuffers.Buffers.fill,
        AddressBuffers.Buffers.read, exempt, reports, lineOf, AddressBuffers.printed]
    | some line =>
      simp [runHandler, run, AddressBuffers.step, passes, farText, nearText, AddressBuffers.Buffers.fill,
        AddressBuffers.Buffers.read, exempt, reports, lineOf, AddressBuffers.printed, apart]

theorem runHandler_due {calls : List Call} (room : calls.length < maxWhitelistSize) (overlaps : OverlapsContained calls)
    (admissible : Admissible (.handler call)) (buffers : AddressBuffers.Buffers) :
    (runHandler settings (whitelistAll calls) call buffers).1 = due settings calls call := by
  unfold due
  split
  · exact runHandler_fails ‹_› _ _
  · rename_i sock current passes
    obtain ⟨source, destination, near, far, -, -, -, farText⟩ := AddressBuffers.passes_texts passes
    have port := ntohs_lt sock.inetDport
    have low : (0 : Int) ≤ AddressBuffers.getDestinationPort sock := by
      unfold AddressBuffers.getDestinationPort
      omega
    have high : (AddressBuffers.getDestinationPort sock : Int) ≤ 65535 := by
      unfold AddressBuffers.getDestinationPort
      omega
    have exempt := isWhitelisted_iff room overlaps (fun path => admissible sock current path passes)
      destination.text_nulFree destination.text_ne_nil low high
    rw [runHandler_passes passes, farText, Option.map_some, Option.getD_some]
    simp only [exempt]

end Handler

/-! ## Runs -/

/-- The strings in force mean their union, and the list and the buffer are theirs. -/
structure Ready (calls : List Call) (s : State) : Prop where
  room : calls.length < maxWhitelistSize
  overlaps : OverlapsContained calls
  inForce : InForce calls s.config

theorem ready_start : Ready [] start where
  room := by decide
  overlaps := by
    intro pre call post split
    simp at split
  inForce := ⟨⟨[], createProcConfig_initial true, nulFree_nil, by decide⟩⟩

/-- The strings in force behind an operation. -/
def inForce (calls : List Call) : Op → List Call
  | .write calls' _ => calls'
  | _ => calls

theorem step_logs {settings : AddressBuffers.Settings} {calls : List Call} {s : State} {op : Op} (ready : Ready calls s)
    (admissible : Admissible op) (readable : Readable s op) :
    ∃ s', step settings s op = .ok ((), s') ∧ Ready (inForce calls op) s' ∧ s'.log = s.log ++ expected settings calls [op] := by
  cases op with
  | write calls' stack =>
    obtain ⟨nonempty, fits, room, overlaps, short⟩ := admissible
    obtain ⟨config, wrote, inForce⟩ := write_inForce stack s.config nonempty fits short
    refine ⟨{ s with config }, ?_, ⟨room, overlaps, inForce⟩, by simp [expected]⟩
    rw [step, wrote]
    rfl
  | read bufferLength =>
    obtain ⟨result, config, read, inForce⟩ := read_inForce ready.inForce readable
    refine ⟨{ s with config }, ?_, ⟨ready.room, ready.overlaps, inForce⟩, by simp [expected]⟩
    rw [step, read]
    rfl
  | handler call =>
    obtain ⟨t, shown, -⟩ := ready.inForce
    have list : s.config.whiteList = whitelistAll calls := by rw [shown]; rfl
    have printed : (runHandler settings s.config.whiteList call s.buffers).1 = due settings calls call := by
      rw [list]
      exact runHandler_due ready.room ready.overlaps admissible s.buffers
    refine ⟨_, rfl, ⟨ready.room, ready.overlaps, ready.inForce⟩, ?_⟩
    rw [expected, expected, List.append_nil]
    exact congrArg _ printed

theorem expected_cons (calls : List Call) (op : Op) (ops : List Op) :
    expected settings calls (op :: ops) = expected settings calls [op] ++ expected settings (inForce calls op) ops := by
  cases op <;> simp [expected, inForce]

theorem logs_from {settings : AddressBuffers.Settings} {calls : List Call} {s : State} {ops : List Op} (ready : Ready calls s)
    (admissible : ∀ op ∈ ops, Admissible op) (readable : Along (step settings) Readable ops s) :
    ∃ s', Reaches (step settings) s ops s' ∧ s'.log = s.log ++ expected settings calls ops := by
  induction ops generalizing s calls with
  | nil => exact ⟨s, reaches_nil.2 rfl, by simp [expected]⟩
  | cons op ops ih =>
    obtain ⟨here, later⟩ := List.forall_mem_cons.1 admissible
    obtain ⟨s₁, next, ready₁, log₁⟩ := @step_logs settings _ _ _ ready here readable.1
    obtain ⟨s', rest, log⟩ := ih ready₁ later (readable.2 _ _ next)
    refine ⟨s', reaches_cons.2 ⟨_, _, next, rest⟩, ?_⟩
    rw [log, log₁, expected_cons settings calls op ops, List.append_assoc]

/-- `/usr/bin/ssh` is written to the file, then it connects, and another program does. -/
def sshExempt : List Op :=
  [.write [ssh] [], .handler (AddressBuffers.connectTo ⟨1, 2, 3, 4⟩ (bytes "/usr/bin/ssh")),
    .handler (AddressBuffers.connectTo ⟨1, 2, 3, 4⟩ (bytes "/bin/a"))]

end Netlog.Logged
