import SecuritySuite.Foundation.FirstCome
import SecuritySuite.Netlog.ConnectionString
import SecuritySuite.Netlog.Whitelist
import Mathlib.Data.Fintype.EquivFin
import Mathlib.Order.Interval.Finset.Nat

/-!
# The whitelist as a union

A connection string denotes the connections that agree with the fields it has. `whitelist` drops a
string as a duplicate when a stored connection matches it with missing fields on either side, which says that
the two have a connection in common. The stored list means the union of what was whitelisted exactly
when each string that meets an earlier one lies inside an earlier one (`means_union_iff`).
-/

namespace Netlog
set_option autoImplicit false
open CString

/-- A connection a process can make: its executable, the text of the remote address and the port. A path that is empty
or does not fit the limit is never whitelisted. -/
structure Probe extends Query where
  path_ne : path ≠ []
  path_length : path.length ≤ 949

/-- The connections a string stands for: those that agree with its fields. -/
structure ConnectionString.Denotes (s : ConnectionString) (q : Probe) : Prop where
  path : s.path = q.path
  ip : ∀ v, s.ip = some v → v.shown = q.ip
  port : ∀ v, s.port = some v → int32 (numeral v.value) = q.port

/-- A call of `whitelist`: the string, and the memory behind its terminator. -/
structure Call where
  string : ConnectionString
  behind : Memory
  accepted : string.Accepted

def Call.memory (call : Call) : Memory := call.string.text ++ 0 :: call.behind

/-- The list after a sequence of calls. -/
def whitelistAll (calls : List Call) : List Connection :=
  calls.foldl (fun whiteList call => (whitelist true call.memory whiteList).2) []

/-- The answer of `is_whitelisted` for a task that runs the executable of the probe. -/
def Whitelisted (whiteList : List Connection) (q : Probe) : Prop :=
  ∀ task : TaskStruct, task.mm.bind exeFromMm = some q.path →
    isWhitelisted (some task) q.ip q.port whiteList = whitelisted

/-- The list means the union of the strings, and a string refused as a duplicate adds nothing. -/
structure MeansUnion (calls : List Call) : Prop where
  union : ∀ q, Whitelisted (whitelistAll calls) q ↔ ∃ call ∈ calls, call.string.Denotes q
  duplicate : ∀ pre call post, calls = pre ++ call :: post →
    (whitelist true call.memory (whitelistAll pre)).1 = whitelistFail →
      ∀ q, call.string.Denotes q → Whitelisted (whitelistAll pre) q

/-- Two strings have a connection in common. -/
def Overlap (s s' : ConnectionString) : Prop := ∃ q, s.Denotes q ∧ s'.Denotes q

/-- Each string that overlaps an earlier one is contained in an earlier one. -/
def OverlapsContained (calls : List Call) : Prop :=
  ∀ pre call post, calls = pre ++ call :: post → (∃ c ∈ pre, Overlap call.string c.string) →
    ∃ c ∈ pre, ∀ q, call.string.Denotes q → c.string.Denotes q

/-! ## What a stored connection matches -/

theorem FieldValue.shown_ne_nil (v : FieldValue) : v.shown ≠ [] := by
  unfold shown
  split
  · simp
  · exact v.nonempty

theorem FieldValue.shown_nulFree (v : FieldValue) : NulFree v.shown := by
  unfold shown
  split
  · simp [v.nulFree]
  · exact v.nulFree

theorem Call.ipText (call : Call) : call.string.ipText = call.string.ip.elim [] FieldValue.shown := by
  unfold ConnectionString.ipText
  cases hip : call.string.ip with
  | none => rfl
  | some ip => exact shownIp_ipField (call.accepted.ip ip hip)

theorem ConnectionString.text_nulFree (s : ConnectionString) : NulFree s.text := by
  unfold text
  cases s.ip with
  | none => exact nulFree_append.2 ⟨s.path_nulFree, portPart_nulFree _⟩
  | some ip =>
    simp [s.path_nulFree, ipField_nulFree, portPart_nulFree, fieldSeparator]

theorem Call.fits (call : Call) : call.string.connection.Fits :=
  initializeConnectionFromString_fits call.string.text_nulFree (call.string.parse call.behind call.accepted)

theorem Call.port_valid (call : Call) {v : FieldValue} (named : call.string.port = some v) :
    1 ≤ int32 (numeral v.value) ∧ int32 (numeral v.value) ≤ 65535 :=
  validPortNumber_iff.1 (call.accepted.port v named)

theorem Call.connection_matches_iff (call : Call) {path ip : List Byte} (freePath : NulFree path) (freeIp : NulFree ip)
    (port : Int) :
    connectionMatchesAttributes call.string.connection path ip port = true ↔
      call.string.path = path ∧ (∀ v, call.string.ip = some v → ip = [] ∨ v.shown = ip) ∧
        ∀ v, call.string.port = some v → port = noPort ∨ int32 (numeral v.value) = port := by
  rw [connectionMatchesAttributes_iff call.fits freePath freeIp]
  simp only [ConnectionString.connection, call.ipText, ConnectionString.portValue]
  refine and_congr_right fun _ => and_congr ?_ ?_
  · cases call.string.ip with
    | none => simp
    | some v => simp [v.shown_ne_nil]
  · cases hport : call.string.port with
    | none => simp
    | some v =>
      have valid := call.port_valid hport
      have named : int32 (numeral v.value) ≠ noPort := by
        unfold noPort
        omega
      simp [named]

theorem Probe.port_ne (q : Probe) : q.port ≠ noPort := by
  have := q.port_range
  unfold noPort
  omega

/-- Matching a probe is denoting it. -/
theorem Call.denotes_iff (call : Call) (q : Probe) :
    connectionMatchesAttributes call.string.connection q.path q.ip q.port = true ↔ call.string.Denotes q := by
  rw [call.connection_matches_iff q.path_free q.ip_free]
  simp only [q.ip_ne, q.port_ne, false_or]
  exact ⟨fun h => ⟨h.1, h.2.1, h.2.2⟩, fun h => ⟨h.path, h.ip, h.port⟩⟩

/-- Two stored connections are equal for the code when the fields that both have agree. -/
theorem connectionsAreEqual_iff (a b : Call) :
    connectionsAreEqual a.string.connection b.string.connection = true ↔
      a.string.path = b.string.path ∧
        (∀ v w, a.string.ip = some v → b.string.ip = some w → v.shown = w.shown) ∧
        ∀ v w, a.string.port = some v → b.string.port = some w →
          int32 (numeral v.value) = int32 (numeral w.value) := by
  rw [connectionsAreEqual, a.connection_matches_iff b.fits.executable b.fits.ip]
  simp only [ConnectionString.connection, b.ipText, ConnectionString.portValue]
  refine and_congr_right fun _ => and_congr ?_ ?_
  · cases b.string.ip with
    | none => simp
    | some w => simp [w.shown_ne_nil]
  · cases hport : b.string.port with
    | none => simp
    | some w =>
      have valid := b.port_valid hport
      have named : int32 (numeral w.value) ≠ noPort := by
        unfold noPort
        omega
      simp [named]

/-! ## Duplicates and overlaps -/

/-- The text or the number that two optional fields can both take, when those that both give one agree. -/
theorem common_value {β : Type} (valid : β → Prop) (free : β) (free_valid : valid free)
    {a b : Option FieldValue} {value : FieldValue → β} (a_valid : ∀ v, a = some v → valid (value v))
    (b_valid : ∀ v, b = some v → valid (value v)) (agree : ∀ v w, a = some v → b = some w → value v = value w) :
    ∃ x, valid x ∧ (∀ v, a = some v → value v = x) ∧ ∀ v, b = some v → value v = x := by
  cases a with
  | some v =>
    refine ⟨value v, a_valid v rfl, ?_, fun w named => (agree v w rfl named).symm⟩
    rintro _ ⟨⟩
    rfl
  | none =>
    cases b with
    | some w =>
      refine ⟨value w, b_valid w rfl, by simp, ?_⟩
      rintro _ ⟨⟩
      rfl
    | none => exact ⟨free, free_valid, by simp, by simp⟩

/-- What `whitelist` takes for equal are overlapping strings, unless they name no executable. -/
theorem duplicate_iff_overlap (a b : Call) (named : a.string.path ≠ []) :
    connectionsAreEqual a.string.connection b.string.connection = true ↔ Overlap a.string b.string := by
  rw [connectionsAreEqual_iff]
  constructor
  · intro inside
    obtain ⟨path, ips, ports⟩ := inside
    obtain ⟨ip, ⟨ip_ne, ip_free⟩, ipA, ipB⟩ := common_value
      (fun ip : List Byte => ip ≠ [] ∧ NulFree ip) [49] (by simp)
      (fun v _ => ⟨v.shown_ne_nil, v.shown_nulFree⟩) (fun v _ => ⟨v.shown_ne_nil, v.shown_nulFree⟩) ips
    obtain ⟨port, range, portA, portB⟩ := common_value
      (fun port : Int => 1 ≤ port ∧ port ≤ 65535) 1 (by omega)
      (fun _ => a.port_valid) (fun _ => b.port_valid) ports
    exact ⟨⟨⟨a.string.path, ip, port, a.string.path_nulFree, ip_free, ip_ne, range⟩, named, a.accepted.path⟩,
      ⟨rfl, ipA, portA⟩, ⟨path.symm, ipB, portB⟩⟩
  · intro inside
    obtain ⟨q, inA, inB⟩ := inside
    refine ⟨inA.path.trans inB.path.symm, fun v w hv hw => ?_, fun v w hv hw => ?_⟩
    · exact (inA.ip v hv).trans (inB.ip w hw).symm
    · exact (inA.port v hv).trans (inB.port w hw).symm

/-- The connections a call stands for, as a set. -/
def Call.denoted (call : Call) : Set Probe := {q | call.string.Denotes q}

def duplicate (a b : Call) : Bool := connectionsAreEqual a.string.connection b.string.connection

theorem duplicate_agrees : FirstCome.Agrees duplicate Call.denoted := by
  rintro a b ⟨q, live⟩
  have named : a.string.path ≠ [] := by
    rw [live.path]
    exact q.path_ne
  exact duplicate_iff_overlap a b named

/-- With room left, a string the parser accepts is stored unless it is taken for a duplicate. -/
theorem Call.whitelist_eq (call : Call) {whiteList : List Connection} (room : whiteList.length < maxWhitelistSize) :
    whitelist true call.memory whiteList =
      if whiteList.any (connectionsAreEqual call.string.connection) then (whitelistFail, whiteList)
      else (whitelisted, whiteList ++ [call.string.connection]) := by
  rw [whitelist, if_neg (by omega), Call.memory, call.string.parse call.behind call.accepted]

theorem whitelistAll_snoc (calls : List Call) (call : Call) :
    whitelistAll (calls ++ [call]) = (whitelist true call.memory (whitelistAll calls)).2 := by
  simp [whitelistAll]

theorem whitelistAll_length_le (calls later : List Call) :
    (whitelistAll calls).length ≤ (whitelistAll (calls ++ later)).length := by
  induction later using List.reverseRecOn with
  | nil => simp
  | append_singleton later call ih =>
    rw [← List.append_assoc, whitelistAll_snoc]
    rcases whitelist_cases true call.memory (whitelistAll (calls ++ later)) with failed | ⟨_, _, _, _, stored⟩
    · rw [failed]
      exact ih
    · rw [stored, List.length_append]
      omega

/-- The stored list is the list of kept calls. -/
theorem whitelistAll_eq (calls : List Call) (room : (whitelistAll calls).length < maxWhitelistSize) :
    whitelistAll calls = (FirstCome.enterAll duplicate [] calls).map (·.string.connection) := by
  induction calls using List.reverseRecOn with
  | nil => rfl
  | append_singleton calls call ih =>
    have room' := (whitelistAll_length_le calls [call]).trans_lt room
    have clash : (whitelistAll calls).any (connectionsAreEqual call.string.connection) =
        (FirstCome.enterAll duplicate [] calls).any (duplicate call) := by
      rw [ih room', List.any_map]
      rfl
    rw [whitelistAll_snoc, call.whitelist_eq room', FirstCome.enterAll_snoc, FirstCome.enter, clash]
    split
    · exact ih room'
    · rw [List.map_append, ← ih room']
      rfl

/-- The answer of `is_whitelisted`: some kept call stands for the connection. -/
theorem whitelisted_iff {calls : List Call} (room : (whitelistAll calls).length < maxWhitelistSize) (q : Probe) :
    Whitelisted (whitelistAll calls) q ↔
      ∃ call ∈ FirstCome.enterAll duplicate [] calls, call.string.Denotes q := by
  have scan (task : TaskStruct) (running : task.mm.bind exeFromMm = some q.path) :=
    isWhitelisted_eq running q.path_ne q.path_length q.ip q.port (whitelistAll calls)
  have kept : (∃ c ∈ whitelistAll calls, connectionMatchesAttributes c q.path q.ip q.port = true) ↔
      ∃ call ∈ FirstCome.enterAll duplicate [] calls, call.string.Denotes q := by
    rw [whitelistAll_eq calls room]
    simp [Call.denotes_iff]
  rw [← kept]
  constructor
  · intro answer
    -- a task whose first area is the executable itself
    exact (scan ⟨some [⟨true, some (some q.path)⟩]⟩ rfl).1 (answer _ rfl)
  · exact fun stored task running => (scan task running).2 stored

/-! ## One string for a union of strings -/

/-- A list misses one of any `n + 1` values, if it has `n` elements. -/
theorem exists_fresh {β : Type} (value : Nat → β) (injective : Function.Injective value) (taken : List β) :
    ∃ i ≤ taken.length, value i ∉ taken := by
  classical
  have more : taken.toFinset.card < ((Finset.range (taken.length + 1)).image value).card := by
    rw [Finset.card_image_of_injective _ injective, Finset.card_range]
    exact Nat.lt_succ_of_le taken.toFinset_card_le
  obtain ⟨_, made, fresh⟩ := Finset.exists_mem_notMem_of_card_lt_card more
  obtain ⟨i, range, rfl⟩ := Finset.mem_image.1 made
  exact ⟨i, by simpa [Nat.lt_succ_iff] using range, by simpa using fresh⟩

/-- An ip text and a port that no string of a short list names. -/
theorem exists_unnamed (calls : List Call) (room : calls.length < maxWhitelistSize) :
    ∃ ip port, NulFree ip ∧ ip ≠ [] ∧ 1 ≤ port ∧ port ≤ (65535 : Int) ∧
      ∀ call ∈ calls, (∀ v, call.string.ip = some v → v.shown ≠ ip) ∧
        ∀ v, call.string.port = some v → int32 (numeral v.value) ≠ port := by
  obtain ⟨n, -, freshIp⟩ := exists_fresh (fun i => List.replicate (i + 1) (49 : Byte))
    (fun i j same => by simpa using congrArg List.length same)
    (calls.filterMap fun call => call.string.ip.map FieldValue.shown)
  obtain ⟨p, low, freshPort⟩ := exists_fresh (fun i => (i : Int) + 1) (fun i j same => by simpa using same)
    (calls.filterMap fun call => call.string.port.map fun v => int32 (numeral v.value))
  have short := List.length_filterMap_le (fun call : Call => call.string.port.map fun v => int32 (numeral v.value)) calls
  unfold maxWhitelistSize at room
  refine ⟨List.replicate (n + 1) 49, (p : Int) + 1, ?_, List.replicate_succ_ne_nil, by omega, by omega, fun call member => ⟨?_, ?_⟩⟩
  · intro b inside
    rw [List.eq_of_mem_replicate inside]
    decide
  · intro v named same
    exact freshIp (List.mem_filterMap.2 ⟨call, member, by simp [named, same]⟩)
  · intro v named same
    exact freshPort (List.mem_filterMap.2 ⟨call, member, by simp [named, same]⟩)

/-- A string inside a union of fewer than 150 strings lies inside one of them: the union cannot use up
all ips or all ports. -/
theorem contained_of_union {calls : List Call} (room : calls.length < maxWhitelistSize) {call : Call}
    (live : call.denoted.Nonempty)
    (inside : ∀ q, call.string.Denotes q → ∃ c ∈ calls, c.string.Denotes q) :
    ∃ c ∈ calls, call.denoted ⊆ c.denoted := by
  obtain ⟨q₀, denoted⟩ := live
  obtain ⟨ip, port, ip_free, ip_ne, low, high, unnamed⟩ := exists_unnamed calls room
  -- the probe takes what the string leaves open from what no stored string names
  let q : Probe :=
    { path := q₀.path, path_free := q₀.path_free, path_ne := q₀.path_ne, path_length := q₀.path_length
      ip := if call.string.ip = none then ip else q₀.ip
      port := if call.string.port = none then port else q₀.port
      ip_free := by split <;> [exact ip_free; exact q₀.ip_free]
      ip_ne := by split <;> [exact ip_ne; exact q₀.ip_ne]
      port_range := by split <;> [exact ⟨low, high⟩; exact q₀.port_range] }
  have denotes : call.string.Denotes q := by
    refine ⟨denoted.path, fun v named => ?_, fun v named => ?_⟩
    · simp [q, named, denoted.ip v named]
    · simp [q, named, denoted.port v named]
  obtain ⟨c, member, holds⟩ := inside q denotes
  refine ⟨c, member, fun q' denoted' => ⟨?_, fun v named => ?_, fun v named => ?_⟩⟩
  · rw [holds.path, ← denoted'.path, ← denotes.path]
  · have same := holds.ip v named
    cases hip : call.string.ip with
    | none =>
      simp only [q, hip, if_true] at same
      exact absurd same ((unnamed c member).1 v named)
    | some w =>
      rw [same, ← denotes.ip w hip, denoted'.ip w hip]
  · have same := holds.port v named
    cases hport : call.string.port with
    | none =>
      simp only [q, hport, if_true] at same
      exact absurd same ((unnamed c member).2 v named)
    | some w =>
      rw [same, ← denotes.port w hport, denoted'.port w hport]

/-! ## The union -/

theorem kept_length {calls : List Call} (room : (whitelistAll calls).length < maxWhitelistSize) :
    (FirstCome.enterAll duplicate [] calls).length < maxWhitelistSize := by
  rwa [whitelistAll_eq calls room, List.length_map] at room

/-- The union holds when dropping loses nothing. -/
theorem union_iff_covered {calls : List Call} (room : (whitelistAll calls).length < maxWhitelistSize) :
    (∀ q, Whitelisted (whitelistAll calls) q ↔ ∃ call ∈ calls, call.string.Denotes q) ↔
      FirstCome.Covered duplicate Call.denoted calls := by
  constructor
  · intro union call member live
    refine contained_of_union (kept_length room) live fun q denoted => ?_
    rw [← whitelisted_iff room, union]
    exact ⟨call, member, denoted⟩
  · intro covered q
    rw [whitelisted_iff room]
    constructor
    · intro inside
      obtain ⟨call, kept, denoted⟩ := inside
      exact ⟨call, FirstCome.mem_of_kept kept, denoted⟩
    · intro inside
      obtain ⟨call, member, denoted⟩ := inside
      obtain ⟨k, kept, inside⟩ := covered call member ⟨q, denoted⟩
      exact ⟨k, kept, inside denoted⟩

theorem nested_iff (calls : List Call) : FirstCome.Nested Call.denoted calls ↔ OverlapsContained calls := Iff.rfl

/-- **The whitelist means the union of its strings exactly when each string that overlaps an earlier
one is contained in an earlier one.** -/
theorem means_union_iff (calls : List Call) (room : (whitelistAll calls).length < maxWhitelistSize) :
    MeansUnion calls ↔ OverlapsContained calls := by
  rw [← nested_iff, ← FirstCome.covered_iff duplicate_agrees]
  constructor
  · exact fun means => (union_iff_covered room).1 means.union
  · intro covered
    refine ⟨(union_iff_covered room).2 covered, ?_⟩
    rintro pre call post rfl refused q denoted
    have room' := (whitelistAll_length_le pre (call :: post)).trans_lt room
    have nested := (FirstCome.covered_iff duplicate_agrees _).1 covered
    have before : FirstCome.Covered duplicate Call.denoted pre :=
      (FirstCome.covered_iff duplicate_agrees _).2 fun pre' e post' split =>
        nested pre' e (post' ++ call :: post) (by simp [split])
    rw [call.whitelist_eq room'] at refused
    have clash : (whitelistAll pre).any (connectionsAreEqual call.string.connection) = true := by
      by_contra fresh
      simp [fresh, whitelisted, whitelistFail] at refused
    rw [whitelistAll_eq pre room', List.any_map, List.any_eq_true] at clash
    obtain ⟨x, kept, clash⟩ := clash
    have meets := (duplicate_agrees call x ⟨q, denoted⟩).1 clash
    obtain ⟨c, member, inside⟩ := nested pre call post rfl ⟨x, FirstCome.mem_of_kept kept, meets⟩
    exact ((union_iff_covered room').2 before q).2 ⟨c, member, inside denoted⟩

/-- `/usr/bin/ssh|i<127.0.0.1>`. -/
def sshLocal : Call where
  string := ⟨bytes "/usr/bin/ssh", some ⟨bytes "127.0.0.1", by decide +kernel, by decide +kernel⟩, none, by decide +kernel⟩
  behind := []
  accepted := ((ConnectionString.parse_iff _ [] ⟨noPort, bytes "127.0.0.1", bytes "/usr/bin/ssh"⟩).1
    (by decide +kernel)).1

/-- `/usr/bin/ssh`. -/
def ssh : Call where
  string := ⟨bytes "/usr/bin/ssh", none, none, by decide +kernel⟩
  behind := []
  accepted := ((ConnectionString.parse_iff _ [] ⟨noPort, [], bytes "/usr/bin/ssh"⟩).1 (by decide +kernel)).1

/-- The narrower string comes second. -/
theorem means_union_narrower : MeansUnion [ssh, sshLocal] := by
  refine (means_union_iff _ (by decide +kernel)).2 ?_
  rintro pre call post split ⟨c, member, -⟩
  match pre with
  | [] => cases member
  | [first] =>
    obtain ⟨rfl, rfl, -⟩ : ssh = first ∧ sshLocal = call ∧ [] = post := by simpa using split
    exact ⟨ssh, by simp, fun q denoted => ⟨denoted.path, by simp [ssh], by simp [ssh]⟩⟩
  | _ :: _ :: rest => simp at split

/-- The wider string comes second: it is refused as a duplicate, and the other addresses stay out. -/
theorem means_union_fails :
    ¬ ∀ calls, (whitelistAll calls).length < maxWhitelistSize → MeansUnion calls := by
  intro claim
  have means := claim [sshLocal, ssh] (by decide +kernel)
  let q : Probe :=
    { path := bytes "/usr/bin/ssh", ip := bytes "10.0.0.1", port := 22
      path_free := by decide +kernel, path_ne := by decide +kernel, path_length := by decide +kernel
      ip_free := by decide +kernel, ip_ne := by decide +kernel, port_range := by decide }
  have denoted : ssh.string.Denotes q := ⟨rfl, by simp [ssh], by simp [ssh]⟩
  have answer := (means.union q).2 ⟨ssh, by simp, denoted⟩ ⟨some [⟨true, some (some q.path)⟩]⟩ rfl
  revert answer
  decide +kernel

end Netlog
