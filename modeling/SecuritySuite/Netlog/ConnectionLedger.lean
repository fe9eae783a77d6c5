import SecuritySuite.Foundation.Ledger
import SecuritySuite.Netlog.ProcConfigSteps

/-!
# The connection objects of the white list

`initialize_connection` allocates an object and `destroy_connection` frees it. The configuration is run
here with the object behind each of its entries and the ledger of the allocator. Everything a run does to
the configuration it does in `ProcConfig` too (`trackedStep_follows`); what is added is who owns which object.

`whitelist` forgets one object on one of its exits: that of a string whose connection is stored already.
-/

namespace Netlog
set_option autoImplicit false
open CString Separated Runs

/-- The configuration, the objects that its entries point to in the order of the list, and the allocator. -/
structure Tracked where
  config : ProcConfig
  objects : List Nat
  ledger : Ledger

inductive TrackedFault where
  | violation (violation : Violation)
  /-- `kfree` of an object that is not live. -/
  | badFree
deriving DecidableEq

/-- At module load. -/
def initialTracked : Tracked := ⟨initialProcConfig, [], .empty⟩

/-- `initialize_connection_from_string` with its object: the jump to `out_fail` frees it. -/
def trackedInitialize (kmalloc : Bool) (connectionString : Memory) (ledger : Ledger) :
    Except TrackedFault (Option (Nat × Connection) × Ledger) :=
  match initializeConnection kmalloc with
  | none => .ok (none, ledger)
  | some new =>
    let (object, ledger) := ledger.alloc
    match fillConnection new connectionString with
    | some connection => .ok (some (object, connection), ledger)
    | none =>
      match ledger.free object with
      | .error _ => .error .badFree
      | .ok ledger => .ok (none, ledger)

/-- `whitelist`. The exit "already whitelisted" neither stores the object nor frees it. -/
def trackedWhitelist (kmalloc : Bool) (connectionString : Memory) (st : Tracked) :
    Except TrackedFault (Int × Tracked) :=
  if st.config.whiteList.length = maxWhitelistSize then .ok (whitelistFail, st)
  else
    match trackedInitialize kmalloc connectionString st.ledger with
    | .error fault => .error fault
    | .ok (none, ledger) => .ok (whitelistFail, { st with ledger })
    | .ok (some (object, connection), ledger) =>
      if st.config.whiteList.any (connectionsAreEqual connection) then .ok (whitelistFail, { st with ledger })
      else
        let whiteList := st.config.whiteList ++ [connection]
        let config := addConnectionStringToProcConfig (text connectionString) { st.config with whiteList }
        .ok (whitelisted, ⟨config, st.objects ++ [object], ledger⟩)

/-- `destroy_whitelist` frees the objects of the list. -/
def trackedDestroy (st : Tracked) : Except TrackedFault Tracked :=
  match st.ledger.freeAll st.objects with
  | .error _ => .error .badFree
  | .ok ledger => .ok ⟨destroyWhitelist st.config, [], ledger⟩

/-- `update_whitelist`. -/
def trackedUpdate (kmalloc : Nat → Bool) (stack : Memory) (st : Tracked) : Except TrackedFault Tracked :=
  let temp := st.config.procfsBuffer.bytes
  match trackedDestroy { st with config := initializeProcfsBuffer st.config } with
  | .error fault => .error fault
  | .ok st => updateLoop .violation trackedWhitelist temp temp kmalloc 0 0 stack st

/-- `procfile_write`. -/
def trackedWrite (w : WriteCall) (st : Tracked) : Except TrackedFault (Int × Tracked) :=
  let config := { st.config with procfsBufferSize := w.buffer.length }
  if procfsMaxSize ≤ config.procfsBufferSize then .ok (-enospc, { st with config })
  else
    let (left, copied) := copyFromUser w
    let config := { config with procfsBuffer := config.procfsBuffer.store 0 copied }
    if left ≠ 0 then .ok (-efault, { st with config })
    else if 1 ≤ config.procfsBufferSize then
      let config := { config with procfsBuffer := config.procfsBuffer.store (config.procfsBufferSize - 1) [0] }
      match trackedUpdate w.kmalloc w.stack { st with config } with
      | .error fault => .error fault
      | .ok st => .ok (w.buffer.length, st)
    else .error (.violation .wrap)

/-- The operations that allocate or free. -/
inductive TrackedOp where
  /-- A call with a string and the memory behind its terminator. -/
  | whitelist (kmalloc : Bool) (connectionString behind : List Byte)
  | destroyWhitelist
  | procfileWrite (w : WriteCall)

/-- A step answers with the return value, if there is one. -/
def trackedStep (st : Tracked) : TrackedOp → Except TrackedFault (Option Int × Tracked)
  | .whitelist kmalloc connectionString behind => do
    let (code, st) ← trackedWhitelist kmalloc (connectionString ++ 0 :: behind) st
    return (some code, st)
  | .destroyWhitelist => do
    let st ← trackedDestroy st
    return (none, st)
  | .procfileWrite w => do
    let (code, st) ← trackedWrite w st
    return (some code, st)

/-- The same step on the configuration alone. -/
def configStep (config : ProcConfig) : TrackedOp → Except Violation (Option Int × ProcConfig)
  | .whitelist kmalloc connectionString behind =>
    let (code, config) := whitelistConfig kmalloc (connectionString ++ 0 :: behind) config
    .ok (some code, config)
  | .destroyWhitelist => .ok (none, destroyWhitelist config)
  | .procfileWrite w => do
    let (code, config) ← procfileWrite w config
    return (some code, config)

/-- **No connection object is lost or freed twice.** Between operations the live objects are those of the
list, each of them once, and after `destroy_whitelist` there are none. -/
structure Accounted (ops : List TrackedOp) : Prop where
  freed_once : run trackedStep ops initialTracked ≠ .error .badFree
  aligned : ∀ pre st, pre <+: ops → Reaches trackedStep initialTracked pre st →
    st.objects.length = st.config.whiteList.length
  distinct : ∀ pre st, pre <+: ops → Reaches trackedStep initialTracked pre st → st.objects.Nodup
  owned : ∀ pre st, pre <+: ops → Reaches trackedStep initialTracked pre st → st.ledger.live.Perm st.objects
  released : ∀ pre st, pre ++ [.destroyWhitelist] <+: ops →
    Reaches trackedStep initialTracked (pre ++ [.destroyWhitelist]) st → st.ledger.live = []

/-- A string that is turned away because its connection is stored already. -/
def Duplicate (kmalloc : Bool) (connectionString : Memory) (whiteList : List Connection) : Prop :=
  whiteList.length ≠ maxWhitelistSize ∧
    ∃ c, initializeConnectionFromString kmalloc connectionString = some c ∧
      whiteList.any (connectionsAreEqual c) = true

/-- One of the pieces is, when it is its turn. -/
def DuplicatePiece : (kmalloc : Nat → Bool) → Memory → List (List Byte) → List Connection → Prop
  | _, _, [], _ => False
  | kmalloc, stack, piece :: pieces, whiteList =>
    let newConnectionString := piece ++ 0 :: stack.drop (piece.length + 1)
    Duplicate (kmalloc 0) newConnectionString whiteList ∨
      DuplicatePiece (fun i => kmalloc (i + 1)) newConnectionString pieces
        (whitelist (kmalloc 0) newConnectionString whiteList).2

/-- A write whose text is taken over, piece by piece. -/
structure WriteCall.TakenOver (w : WriteCall) : Prop where
  nonempty : 1 ≤ w.buffer.length
  fits : w.buffer.length < procfsMaxSize
  readable : w.buffer.length ≤ w.readable
  short : ∀ p ∈ writtenPieces w, p.length < maxNewConnectionSize

/-- The operations that forget an object. -/
def Forgets (st : Tracked) : TrackedOp → Prop
  | .whitelist kmalloc connectionString behind =>
    Duplicate kmalloc (connectionString ++ 0 :: behind) st.config.whiteList
  | .destroyWhitelist => False
  | .procfileWrite w => w.TakenOver ∧ DuplicatePiece w.kmalloc w.stack (writtenPieces w) []

/-! ## Ownership -/

/-- What every operation keeps: the entries own distinct live objects. -/
structure Owned (st : Tracked) : Prop where
  aligned : st.objects.length = st.config.whiteList.length
  distinct : st.objects.Nodup
  live : ∀ a ∈ st.objects, a ∈ st.ledger.live

/-- Some live object belongs to no entry. -/
def Leaky (st : Tracked) : Prop := ∃ a ∈ st.ledger.live, a ∉ st.objects

/-- From one state to the next, with an object forgotten where `forgets` says so. -/
structure Settled (forgets : Prop) (st st' : Tracked) : Prop where
  owned : Owned st'
  leaky : Leaky st' ↔ Leaky st ∨ forgets

theorem Owned.initial : Owned initialTracked where
  aligned := rfl
  distinct := .nil
  live := by simp [initialTracked]

theorem not_leaky_initial : ¬ Leaky initialTracked := by
  simp [Leaky, initialTracked, Ledger.empty]

theorem Owned.perm_iff {st : Tracked} (owned : Owned st) : st.ledger.live.Perm st.objects ↔ ¬ Leaky st := by
  constructor
  · intro same leaky
    obtain ⟨a, live, foreign⟩ := leaky
    exact foreign (same.subset live)
  · intro tight
    refine (List.perm_ext_iff_of_nodup st.ledger.live_nodup owned.distinct).2 ?_
    intro a
    refine ⟨fun live => ?_, owned.live a⟩
    by_contra foreign
    exact tight ⟨a, live, foreign⟩

/-- Nothing is allocated, stored or forgotten. -/
theorem Settled.same {forgets : Prop} {st st' : Tracked} (owned : Owned st) (kept : ¬ forgets)
    (objects : st'.objects = st.objects) (length : st'.config.whiteList.length = st.config.whiteList.length)
    (live : st'.ledger.live = st.ledger.live) : Settled forgets st st' where
  owned := by
    refine ⟨?_, ?_, ?_⟩
    · rw [objects, length]
      exact owned.aligned
    · rw [objects]
      exact owned.distinct
    · rw [objects, live]
      exact owned.live
  leaky := by
    rw [Leaky, objects, live, or_iff_left kept]
    rfl

/-- A new object is stored with its entry. -/
theorem Settled.store {forgets : Prop} {st st' : Tracked} (owned : Owned st) (kept : ¬ forgets)
    (objects : st'.objects = st.objects ++ [st.ledger.next])
    (length : st'.config.whiteList.length = st.config.whiteList.length + 1)
    (ledger : st'.ledger = st.ledger.alloc.2) : Settled forgets st st' := by
  have fresh : st.ledger.next ∉ st.objects := fun old => st.ledger.next_fresh (owned.live _ old)
  refine ⟨⟨?_, ?_, ?_⟩, ?_⟩
  · rw [objects, length, List.length_append, owned.aligned]
    rfl
  · rw [objects]
    exact List.nodup_append.2 ⟨owned.distinct, by simp, by
      intro a old b new same
      rw [List.mem_singleton.1 new] at same
      exact fresh (same ▸ old)⟩
  · intro a member
    rw [objects] at member
    rw [ledger, Ledger.alloc_live]
    rcases List.mem_append.1 member with old | new
    · exact List.mem_append_left _ (owned.live a old)
    · exact List.mem_append_right _ new
  · rw [Leaky, objects, ledger, Ledger.alloc_live, or_iff_left kept]
    constructor
    · intro leaky
      obtain ⟨a, live, foreign⟩ := leaky
      obtain ⟨foreign, other⟩ := not_or.1 (fun h => foreign (List.mem_append.2 h))
      exact ⟨a, (List.mem_append.1 live).resolve_right other, foreign⟩
    · intro leaky
      obtain ⟨a, live, foreign⟩ := leaky
      refine ⟨a, List.mem_append_left _ live, fun member => ?_⟩
      rcases List.mem_append.1 member with old | new
      · exact foreign old
      · rw [List.mem_singleton.1 new] at live
        exact st.ledger.next_fresh live

/-- A new object is neither stored nor freed. -/
theorem Settled.forget {forgets : Prop} {st st' : Tracked} (owned : Owned st) (forgotten : forgets)
    (objects : st'.objects = st.objects) (length : st'.config.whiteList.length = st.config.whiteList.length)
    (ledger : st'.ledger = st.ledger.alloc.2) : Settled forgets st st' := by
  have fresh : st.ledger.next ∉ st.objects := fun old => st.ledger.next_fresh (owned.live _ old)
  refine ⟨⟨?_, ?_, ?_⟩, ?_⟩
  · rw [objects, length]
    exact owned.aligned
  · rw [objects]
    exact owned.distinct
  · intro a member
    rw [objects] at member
    rw [ledger, Ledger.alloc_live]
    exact List.mem_append_left _ (owned.live a member)
  · refine iff_of_true ⟨st.ledger.next, ?_, ?_⟩ (.inr forgotten)
    · rw [ledger, Ledger.alloc_live]
      simp
    · rw [objects]
      exact fresh

/-- What is forgotten in two moves is forgotten in one of them. -/
theorem Settled.trans {first second : Prop} {st st' st'' : Tracked} (before : Settled first st st')
    (behind : Settled second st' st'') : Settled (first ∨ second) st st'' where
  owned := behind.owned
  leaky := by rw [behind.leaky, before.leaky, or_assoc]

/-! ## The operations -/

/-- A tracked computation faults where the plain one does, and nowhere else; results are related. -/
def Follows {α β : Type} (related : α → β → Prop) : Except TrackedFault α → Except Violation β → Prop
  | .error fault, .error violation => fault = .violation violation
  | .ok a, .ok b => related a b
  | _, _ => False

section Follows

variable {α β : Type} {related : α → β → Prop} {tracked : Except TrackedFault α} {plain : Except Violation β}

theorem Follows.cases (follows : Follows related tracked plain) :
    (∃ violation, tracked = .error (.violation violation) ∧ plain = .error violation) ∨
      ∃ a b, tracked = .ok a ∧ plain = .ok b ∧ related a b := by
  cases tracked with
  | error fault =>
    cases plain with
    | error violation => exact .inl ⟨violation, by rw [show fault = _ from follows], rfl⟩
    | ok b => exact follows.elim
  | ok a =>
    cases plain with
    | error violation => exact follows.elim
    | ok b => exact .inr ⟨a, b, rfl, rfl, follows⟩

theorem Follows.ok {a : α} {b : β} (tracked_eq : tracked = .ok a) (plain_eq : plain = .ok b) (both : related a b) :
    Follows related tracked plain := by
  rw [tracked_eq, plain_eq]
  exact both

end Follows

theorem trackedInitialize_cases (kmalloc : Bool) (mem : Memory) (l : Ledger) :
    initializeConnectionFromString kmalloc mem = none ∧
        (∃ l', trackedInitialize kmalloc mem l = .ok (none, l') ∧ l'.live = l.live) ∨
      ∃ c, initializeConnectionFromString kmalloc mem = some c ∧
        trackedInitialize kmalloc mem l = .ok (some (l.next, c), l.alloc.2) := by
  cases kmalloc with
  | false => exact .inl ⟨rfl, l, rfl, rfl⟩
  | true =>
    cases filled : fillConnection ⟨noPort, [], []⟩ mem with
    | none =>
      obtain ⟨l', freed, live⟩ := l.free_alloc
      refine .inl ⟨filled, l', ?_, live⟩
      rw [trackedInitialize, initializeConnection]
      simp only [if_true, filled]
      rw [show l.alloc.1 = l.next from rfl, freed]
    | some c =>
      refine .inr ⟨c, filled, ?_⟩
      rw [trackedInitialize, initializeConnection]
      simp only [if_true, filled]
      rfl

/-- `whitelist` on the objects, beside `whitelist` on the configuration. It always returns. -/
theorem trackedWhitelist_ok (kmalloc : Bool) (mem : Memory) {st : Tracked} (owned : Owned st) :
    ∃ st', trackedWhitelist kmalloc mem st = .ok ((whitelistConfig kmalloc mem st.config).1, st') ∧
      st'.config = (whitelistConfig kmalloc mem st.config).2 ∧
      st'.config.whiteList = (whitelist kmalloc mem st.config.whiteList).2 ∧
      Settled (Duplicate kmalloc mem st.config.whiteList) st st' := by
  by_cases full : st.config.whiteList.length = maxWhitelistSize
  · have turned : whitelist kmalloc mem st.config.whiteList = (whitelistFail, st.config.whiteList) := by
      rw [whitelist, if_pos full]
    rw [trackedWhitelist, if_pos full, whitelistConfig, turned]
    exact ⟨st, rfl, rfl, rfl, .same owned (fun duplicate => duplicate.1 full) rfl rfl rfl⟩
  rw [trackedWhitelist, if_neg full, whitelistConfig, whitelist, if_neg full]
  rcases trackedInitialize_cases kmalloc mem st.ledger with ⟨read, l', made, live⟩ | ⟨c, read, made⟩
  · rw [read, made]
    refine ⟨_, rfl, rfl, rfl, .same owned ?_ rfl rfl live⟩
    intro duplicate
    obtain ⟨-, c, parsed, -⟩ := duplicate
    rw [read] at parsed
    cases parsed
  rw [read, made]
  by_cases equal : st.config.whiteList.any (connectionsAreEqual c) = true
  · simp only [if_pos equal]
    exact ⟨_, rfl, rfl, rfl, .forget owned ⟨full, c, read, equal⟩ rfl rfl rfl⟩
  · simp only [if_neg equal, if_true]
    refine ⟨_, rfl, rfl, rfl, .store owned ?_ rfl (by simp) rfl⟩
    intro duplicate
    obtain ⟨-, c', parsed, equal'⟩ := duplicate
    rw [read] at parsed
    cases parsed
    exact equal equal'

/-- One piece after the other. -/
theorem callPieces_follows (pieces : List (List Byte)) (kmalloc : Nat → Bool) (stack : Memory) {st : Tracked}
    (owned : Owned st) :
    Follows (fun st' config => st'.config = config ∧
        Settled (DuplicatePiece kmalloc stack pieces st.config.whiteList) st st')
      (callPieces .violation trackedWhitelist kmalloc stack pieces st)
      (whitelistPieces kmalloc stack pieces st.config) := by
  induction pieces generalizing kmalloc stack st with
  | nil => exact ⟨rfl, .same owned id rfl rfl rfl⟩
  | cons piece pieces ih =>
    rw [callPieces]
    by_cases short : piece.length < maxNewConnectionSize
    · rw [if_pos short, whitelistPieces_cons short]
      obtain ⟨st₁, called, config, list, settled⟩ :=
        trackedWhitelist_ok (kmalloc 0) (piece ++ 0 :: stack.drop (piece.length + 1)) owned
      have rest := ih (fun i => kmalloc (i + 1)) (piece ++ 0 :: stack.drop (piece.length + 1)) settled.owned
      rw [list, config] at rest
      simp only [bind, Except.bind, called]
      rcases rest.cases with ⟨violation, tracked, plain⟩ | ⟨st', config', tracked, plain, rfl, settled'⟩
      · rw [tracked, plain]
        exact rfl
      · rw [tracked, plain]
        exact ⟨rfl, settled.trans settled'⟩
    · rw [if_neg short, whitelistPieces_cons_long short]
      exact rfl

/-- The objects of the list can all be freed, and those that were forgotten stay. -/
theorem trackedDestroy_ok {st : Tracked} (owned : Owned st) :
    ∃ ledger, trackedDestroy st = .ok ⟨destroyWhitelist st.config, [], ledger⟩ ∧
      Settled False st ⟨destroyWhitelist st.config, [], ledger⟩ := by
  obtain ⟨ledger, freed, -, left⟩ := Ledger.freeAll_live owned.distinct owned.live
  refine ⟨ledger, by rw [trackedDestroy, freed], ⟨rfl, .nil, by simp⟩, ?_⟩
  simp only [Leaky, left, List.not_mem_nil, not_false_eq_true, and_true, or_false]

/-- The scan of a text starts from an empty list. -/
theorem trackedUpdate_follows (kmalloc : Nat → Bool) (stack : Memory) {st : Tracked} (owned : Owned st)
    {t junk : List Byte} (free : NulFree t) (bytes : st.config.procfsBuffer.bytes = t ++ 0 :: junk) :
    Follows (fun st' config => st'.config = config ∧ Settled (DuplicatePiece kmalloc stack (t.splitOn 44) []) st st')
      (trackedUpdate kmalloc stack st) (updateWhitelist kmalloc stack st.config) := by
  have start : Owned { st with config := initializeProcfsBuffer st.config } := ⟨owned.aligned, owned.distinct, owned.live⟩
  obtain ⟨ledger, destroyed, cleared⟩ := trackedDestroy_ok start
  have pieces := callPieces_follows (t.splitOn 44) kmalloc stack cleared.owned
  have scan : ∀ {σ ε : Type} (lift : Violation → ε) (call : Bool → Memory → σ → Except ε (Int × σ)) (s : σ),
      updateLoop lift call (t ++ 0 :: junk) (t ++ 0 :: junk) kmalloc 0 0 stack s =
        callPieces lift call kmalloc stack (t.splitOn 44) s := by
    intro σ ε lift call s
    have whole := updateLoop_pieces lift call (t ++ 0 :: junk) free List.not_mem_nil kmalloc 0 rfl stack s
    rwa [List.length_nil, List.nil_append] at whole
  rw [trackedUpdate, destroyed, updateWhitelist, updateWhitelistWith]
  simp only [bytes, scan]
  rw [← whitelistPieces]
  rcases pieces.cases with ⟨violation, tracked, plain⟩ | ⟨st', config, tracked, plain, rfl, settled⟩
  · simp only [tracked, plain]
    exact rfl
  · simp only [tracked, plain]
    refine ⟨rfl, ⟨settled.owned, ?_⟩⟩
    rw [settled.leaky, cleared.leaky, or_false]
    rfl

/-- A write that completes with its text scanned has taken it over. -/
theorem takenOver_of_ok {w : WriteCall} (config : ProcConfig) (nonempty : 1 ≤ w.buffer.length)
    (fits : w.buffer.length < procfsMaxSize) (readable : w.buffer.length ≤ w.readable)
    (completed : ∃ r, procfileWrite w config = .ok r) : w.TakenOver := by
  obtain ⟨r, completed⟩ := completed
  refine ⟨nonempty, fits, readable, ?_⟩
  by_contra long
  push Not at long
  rw [procfileWrite_accepted config nonempty fits readable] at completed
  cases pieces : whitelistPieces w.kmalloc w.stack (writtenPieces w) (shownConfig [] []) with
  | error violation =>
    rw [pieces] at completed
    cases completed
  | ok config'' => exact whitelistPieces_long long _ _ _ _ pieces

theorem trackedWrite_follows (w : WriteCall) {st : Tracked} (owned : Owned st) :
    Follows (fun r r' => r.1 = r'.1 ∧ r.2.config = r'.2 ∧
        Settled (w.TakenOver ∧ DuplicatePiece w.kmalloc w.stack (writtenPieces w) []) st r.2)
      (trackedWrite w st) (procfileWrite w st.config) := by
  by_cases full : procfsMaxSize ≤ w.buffer.length
  · refine .ok (if_pos full) (procfileWrite_enospc st.config full) ⟨rfl, rfl, .same owned ?_ rfl rfl rfl⟩
    intro duplicate
    exact absurd duplicate.1.fits (by omega)
  by_cases readable : w.buffer.length ≤ w.readable
  case neg =>
    have left : (copyFromUser w).1 ≠ 0 := by
      simp only [copyFromUser, List.length_take]
      omega
    have turned : trackedWrite w st = .ok (-efault, { st with config := { st.config with
        procfsBuffer := st.config.procfsBuffer.store 0 (copyFromUser w).2
        procfsBufferSize := w.buffer.length } }) := by
      rw [trackedWrite, if_neg full]
      simp only [if_pos left]
    refine .ok turned (procfileWrite_efault st.config (by omega) (by omega)) ⟨rfl, rfl, .same owned ?_ rfl rfl rfl⟩
    intro duplicate
    exact absurd duplicate.1.readable readable
  by_cases nonempty : 1 ≤ w.buffer.length
  case neg =>
    rw [procfileWrite_empty st.config (by omega), trackedWrite, if_neg full, copyFromUser_readable readable]
    simp only [if_neg (show ¬ (0 : Nat) ≠ 0 by simp), if_neg nonempty]
    exact rfl
  have completed := takenOver_of_ok (w := w) st.config nonempty (by omega) readable
  obtain ⟨junk, bytes⟩ := written_bytes st.config.procfsBuffer nonempty (by omega)
  revert completed
  rw [trackedWrite, if_neg full, procfileWrite, procfileWriteWith, ← updateWhitelist]
  simp only [if_neg full, copyFromUser_readable readable, if_neg (show ¬ (0 : Nat) ≠ 0 by simp), if_pos nonempty,
    check_ok nonempty]
  intro completed
  have written : Owned { st with config := ⟨st.config.whiteList,
      (st.config.procfsBuffer.store 0 w.buffer).store (w.buffer.length - 1) [0], w.buffer.length⟩ } :=
    ⟨owned.aligned, owned.distinct, owned.live⟩
  have update := trackedUpdate_follows w.kmalloc w.stack written (nulFree_text _) bytes
  rcases update.cases with ⟨violation, tracked, plain⟩ | ⟨st', config, tracked, plain, rfl, settled⟩
  · simp only [tracked, plain]
    exact rfl
  · simp only [bind, Except.bind, plain] at completed
    simp only [tracked, plain]
    refine ⟨rfl, rfl, settled.owned, ?_⟩
    rw [settled.leaky, and_iff_right (completed ⟨_, rfl⟩)]
    rfl

/-- **The tracked step does to the configuration what the plain one does**, and settles its objects. -/
theorem trackedStep_follows (op : TrackedOp) {st : Tracked} (owned : Owned st) :
    Follows (fun r r' => r.1 = r'.1 ∧ r.2.config = r'.2 ∧ Settled (Forgets st op) st r.2)
      (trackedStep st op) (configStep st.config op) := by
  cases op with
  | whitelist kmalloc connectionString behind =>
    rw [trackedStep, configStep]
    obtain ⟨st', called, config, -, settled⟩ := trackedWhitelist_ok kmalloc (connectionString ++ 0 :: behind) owned
    rw [called]
    exact ⟨rfl, config, settled⟩
  | destroyWhitelist =>
    obtain ⟨ledger, destroyed, settled⟩ := trackedDestroy_ok owned
    rw [trackedStep, configStep, destroyed]
    exact ⟨rfl, rfl, settled⟩
  | procfileWrite w =>
    rw [trackedStep, configStep]
    rcases (trackedWrite_follows w owned).cases with
      ⟨violation, tracked, plain⟩ | ⟨⟨code, st'⟩, ⟨code', config⟩, tracked, plain, rfl, rfl, settled⟩
    · rw [tracked, plain]
      exact rfl
    · rw [tracked, plain]
      exact ⟨rfl, rfl, settled⟩

/-! ## Runs -/

theorem settled_of_step {st st' : Tracked} {op : TrackedOp} {answer : Option Int} (owned : Owned st)
    (next : trackedStep st op = .ok (answer, st')) : Settled (Forgets st op) st st' := by
  rcases (trackedStep_follows op owned).cases with ⟨violation, tracked, -⟩ | ⟨r, r', tracked, -, -, -, settled⟩
  · rw [next] at tracked
    cases tracked
  · rw [next] at tracked
    cases tracked
    exact settled

/-- An operation that forgets an object completes. -/
theorem completes_of_forgets {st : Tracked} {op : TrackedOp} (owned : Owned st) (forgets : Forgets st op) :
    ∃ answer st', trackedStep st op = .ok (answer, st') := by
  have completed : ∃ r, configStep st.config op = .ok r := by
    cases op with
    | whitelist kmalloc connectionString behind => exact ⟨_, rfl⟩
    | destroyWhitelist => exact ⟨_, rfl⟩
    | procfileWrite w =>
      obtain ⟨takenOver, -⟩ := forgets
      obtain ⟨strings, whiteList, -, -, result⟩ := procfileWrite_shown st.config takenOver.nonempty takenOver.fits
        takenOver.readable takenOver.short
      rw [configStep, result]
      exact ⟨_, rfl⟩
  obtain ⟨r, completed⟩ := completed
  rcases (trackedStep_follows op owned).cases with ⟨violation, -, plain⟩ | ⟨⟨answer, st'⟩, r', tracked, -⟩
  · rw [completed] at plain
    cases plain
  · exact ⟨answer, st', tracked⟩

/-- After a run the live objects are those of the list unless an operation forgot one. -/
theorem settled_of_reaches {ops : List TrackedOp} {st : Tracked} (reaches : Reaches trackedStep initialTracked ops st) :
    Owned st ∧ (¬ Leaky st ↔ Along trackedStep (fun st op => ¬ Forgets st op) ops initialTracked) := by
  refine history_of_reaches (fun ops st =>
    Owned st ∧ (¬ Leaky st ↔ Along trackedStep (fun st op => ¬ Forgets st op) ops initialTracked)) ?_ ?_ reaches
  · exact ⟨.initial, iff_of_true not_leaky_initial trivial⟩
  · intro ops st op answer st' before past next
    have settled := settled_of_step past.1 next
    refine ⟨settled.owned, ?_⟩
    rw [along_snoc before, settled.leaky, not_or, past.2]

/-- **Which runs account for their objects**: exactly those in which no string is turned away as "already
whitelisted", neither by a call of `whitelist` nor as a piece of a written text. -/
theorem accounted_iff (ops : List TrackedOp) :
    Accounted ops ↔ Along trackedStep (fun st op => ¬ Forgets st op) ops initialTracked := by
  constructor
  · intro accounted
    apply along_iff.2
    intro pre op post st split reaches forgets
    obtain ⟨owned, -⟩ := settled_of_reaches reaches
    obtain ⟨answer, st', next⟩ := completes_of_forgets owned forgets
    have settled := settled_of_step owned next
    have front : pre ++ [op] <+: ops := ⟨post, by simp [split]⟩
    have last : Reaches trackedStep initialTracked (pre ++ [op]) st' :=
      reaches_append.2 ⟨st, reaches, reaches_cons.2 ⟨answer, st', next, reaches_nil.2 rfl⟩⟩
    exact settled.owned.perm_iff.1 (accounted.owned _ st' front last) (settled.leaky.2 (.inr forgets))
  · intro along
    have kept : ∀ pre st, pre <+: ops → Reaches trackedStep initialTracked pre st →
        Owned st ∧ st.ledger.live.Perm st.objects := by
      intro pre st front reaches
      obtain ⟨post, rfl⟩ := front
      obtain ⟨owned, tight⟩ := settled_of_reaches reaches
      exact ⟨owned, owned.perm_iff.2 (tight.2 along.front)⟩
    refine ⟨?_, fun pre st front reaches => (kept pre st front reaches).1.aligned,
      fun pre st front reaches => (kept pre st front reaches).1.distinct,
      fun pre st front reaches => (kept pre st front reaches).2, ?_⟩
    · intro faults
      obtain ⟨st, op, owned, -, fault⟩ := fault_of_along Owned
        (fun st op answer st' owned _ next => (settled_of_step owned next).owned) .initial along faults
      rcases (trackedStep_follows op owned).cases with ⟨violation, tracked, -⟩ | ⟨r, r', tracked, -⟩
      · rw [fault] at tracked
        cases tracked
      · rw [fault] at tracked
        cases tracked
    · intro pre st front reaches
      have same := (kept _ st front reaches).2
      obtain ⟨st₁, before, last⟩ := reaches_append.1 reaches
      obtain ⟨answer, st₂, next, rest⟩ := reaches_cons.1 last
      obtain rfl := reaches_nil.1 rest
      obtain ⟨ledger, destroyed, -⟩ := trackedDestroy_ok (settled_of_reaches before).1
      rw [trackedStep, destroyed] at next
      cases next
      exact same.eq_nil

/-- A path that is whitelisted twice leaves an object behind that `destroy_whitelist` does not free. -/
theorem accounted_fails :
    let ops := [.whitelist true [47, 97] [], .whitelist true [47, 97] [], .destroyWhitelist]
    ¬ Accounted ops ∧ ∃ st, Reaches trackedStep initialTracked ops st ∧ st.config.whiteList = [] ∧ st.ledger.live = [1] := by
  refine ⟨?_, _, ⟨_, rfl⟩, rfl, rfl⟩
  intro accounted
  have live := accounted.released [.whitelist true [47, 97] [], .whitelist true [47, 97] []] _
    (List.prefix_refl _) ⟨_, rfl⟩
  revert live
  decide +kernel

end Netlog
