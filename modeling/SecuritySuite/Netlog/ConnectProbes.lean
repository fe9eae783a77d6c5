import Mathlib.Logic.Function.Basic
import SecuritySuite.Foundation.Runs

/-!
# The probes of connect

`match_socket` takes the socket of a call from the entry probe to the return probe. The two are
registered and unregistered one after the other, and a return may be missed, so a call that enters
between the two steps of `unplant_all` may find a socket that an earlier call of its task left.
-/

namespace Netlog
set_option autoImplicit false
open Runs

inductive KernelProbe where
  | connectJprobe
  | connectKretprobe
  | acceptKretprobe
  | tcpCloseJprobe
  | bindJprobe
deriving DecidableEq, Repr

/-- What `plant_all` returns, negated, when the probe cannot be registered. -/
def KernelProbe.failed : KernelProbe → Nat
  | .connectJprobe => 1
  | .connectKretprobe => 1
  | .acceptKretprobe => 2
  | .tcpCloseJprobe => 3
  | .bindJprobe => 4

/-- `PROBE_CONNECTION_CLOSE` and `PROBE_UDP`. -/
structure Build where
  probeConnectionClose : Bool
  probeUdp : Bool

/-- The probes in the order of `plant_all`, which is also that of `unplant_all`. -/
def Build.probes (build : Build) : List KernelProbe :=
  .connectJprobe :: .connectKretprobe :: .acceptKretprobe ::
    ((if build.probeConnectionClose then [.tcpCloseJprobe] else []) ++ if build.probeUdp then [.bindJprobe] else [])

/-- A pointer to a `struct socket`. -/
abbrev SocketRef := Nat

/-- The table that is indexed by the pid, with NULL as `none`. -/
abbrev MatchSocket (pidMaxLimit : Nat) := Fin pidMaxLimit → Option SocketRef

variable {pidMaxLimit : Nat}

def netlogInetStreamConnect (matchSocket : MatchSocket pidMaxLimit) (pid : Fin pidMaxLimit) (sock : SocketRef) :
    MatchSocket pidMaxLimit :=
  Function.update matchSocket pid (some sock)

/-- The socket that the handler reports on, and the table behind it. Every way out clears the entry. -/
def postConnect (matchSocket : MatchSocket pidMaxLimit) (pid : Fin pidMaxLimit) :
    Option SocketRef × MatchSocket pidMaxLimit :=
  (matchSocket pid, Function.update matchSocket pid none)

/-! ## Calls and registrations -/

/-- A call of a task that has entered, and whether an instance of the kretprobe waits for its return. -/
structure ConnectCall where
  sock : SocketRef
  awaited : Bool
deriving DecidableEq, Repr

/-- Where the module stands, with the probes that are still to be registered or unregistered. -/
inductive Control where
  | planting (rest : List KernelProbe)
  | unplanting (rest : List KernelProbe)

structure ProbeState (pidMaxLimit : Nat) where
  control : Control
  registered : KernelProbe → Bool
  matchSocket : MatchSocket pidMaxLimit
  calls : Fin pidMaxLimit → Option ConnectCall

inductive ProbeOp (pidMaxLimit : Nat) where
  /-- The next registration of `plant_all`. -/
  | register (succeeds : Bool)
  /-- The module is removed. -/
  | unplant
  /-- The next step of `unplant_all`. -/
  | unregister
  /-- A task enters connect. An instance of the kretprobe is available unless `maxactive` are in use. -/
  | connect (pid : Fin pidMaxLimit) (sock : SocketRef) (available : Bool)
  | connectReturn (pid : Fin pidMaxLimit)

inductive ProbeAnswer where
  | done
  | plantFailed (code : Nat)
  /-- `post_connect` ran for a call, and read a socket. -/
  | postConnect (own : SocketRef) (read : Option SocketRef)

inductive ProbeFault where
  /-- The step is not one that can come next. -/
  | outOfTurn

namespace ProbeState

variable (build : Build)

/-- The module has been loaded, and `plant_all` begins. -/
def loaded : ProbeState pidMaxLimit :=
  ⟨.planting build.probes, fun _ => false, fun _ => none, fun _ => none⟩

def step (s : ProbeState pidMaxLimit) : ProbeOp pidMaxLimit → Except ProbeFault (ProbeAnswer × ProbeState pidMaxLimit)
  | .register succeeds =>
    match s.control with
    | .planting (probe :: rest) =>
      if succeeds then
        .ok (.done, { s with registered := Function.update s.registered probe true, control := .planting rest })
      else .ok (.plantFailed probe.failed, { s with control := .unplanting build.probes })
    | _ => .error .outOfTurn
  | .unplant =>
    match s.control with
    | .planting [] => .ok (.done, { s with control := .unplanting build.probes })
    | _ => .error .outOfTurn
  | .unregister =>
    match s.control with
    | .unplanting (probe :: rest) =>
      .ok (.done, { s with registered := Function.update s.registered probe false, control := .unplanting rest })
    | _ => .error .outOfTurn
  | .connect pid sock available =>
    match s.calls pid with
    | some _ => .error .outOfTurn
    | none =>
      .ok (.done, { s with
        matchSocket := if s.registered .connectJprobe then netlogInetStreamConnect s.matchSocket pid sock else s.matchSocket
        calls := Function.update s.calls pid (some ⟨sock, s.registered .connectKretprobe && available⟩) })
  | .connectReturn pid =>
    match s.calls pid with
    | none => .error .outOfTurn
    | some call =>
      let s' := { s with calls := Function.update s.calls pid none }
      if call.awaited && s.registered .connectKretprobe then
        let r := Netlog.postConnect s.matchSocket pid
        .ok (.postConnect call.sock r.1, { s' with matchSocket := r.2 })
      else .ok (.done, s')

/-- The entry probe is gone and the return probe is not. -/
def HalfUnplanted (s : ProbeState pidMaxLimit) : Prop :=
  s.registered .connectJprobe = false ∧ s.registered .connectKretprobe = true ∧
    ∃ rest, s.control = .unplanting (.connectKretprobe :: rest)

/-- A call enters between the two steps and will be reported, while its task has left another socket behind. -/
def Strays (s : ProbeState pidMaxLimit) : ProbeOp pidMaxLimit → Prop
  | .connect pid sock available =>
    s.calls pid = none ∧ available = true ∧ s.HalfUnplanted ∧ ∃ earlier, s.matchSocket pid = some earlier ∧ earlier ≠ sock
  | _ => False

/-- Every return that the module handles in a run finds NULL or the socket of its own call. -/
def ReadsOwnSocket (ops : List (ProbeOp pidMaxLimit)) : Prop :=
  ∀ answers s, run (step build) ops (loaded build) = .ok (answers, s) →
    ∀ own read, .postConnect own read ∈ answers → read = none ∨ read = some own

/-! ## What a step does -/

/-- All that a step can do. -/
inductive Move (s : ProbeState pidMaxLimit) : ProbeOp pidMaxLimit → ProbeAnswer → ProbeState pidMaxLimit → Prop where
  | register {probe : KernelProbe} {rest : List KernelProbe} (stands : s.control = .planting (probe :: rest)) :
      Move s (.register true) .done
        { s with registered := Function.update s.registered probe true, control := .planting rest }
  | refuse {probe : KernelProbe} {rest : List KernelProbe} (stands : s.control = .planting (probe :: rest)) :
      Move s (.register false) (.plantFailed probe.failed) { s with control := .unplanting build.probes }
  | unplant (stands : s.control = .planting []) : Move s .unplant .done { s with control := .unplanting build.probes }
  | unregister {probe : KernelProbe} {rest : List KernelProbe} (stands : s.control = .unplanting (probe :: rest)) :
      Move s .unregister .done
        { s with registered := Function.update s.registered probe false, control := .unplanting rest }
  | connect {pid : Fin pidMaxLimit} {sock : SocketRef} {available : Bool} (idle : s.calls pid = none) :
      Move s (.connect pid sock available) .done { s with
        matchSocket := if s.registered .connectJprobe then netlogInetStreamConnect s.matchSocket pid sock else s.matchSocket
        calls := Function.update s.calls pid (some ⟨sock, s.registered .connectKretprobe && available⟩) }
  | handled {pid : Fin pidMaxLimit} {call : ConnectCall} (inside : s.calls pid = some call) (awaited : call.awaited = true) :
      Move s (.connectReturn pid) (.postConnect call.sock (s.matchSocket pid)) { s with
        calls := Function.update s.calls pid none, matchSocket := Function.update s.matchSocket pid none }
  | missed {pid : Fin pidMaxLimit} : Move s (.connectReturn pid) .done { s with calls := Function.update s.calls pid none }

theorem step_move {s s' : ProbeState pidMaxLimit} {op : ProbeOp pidMaxLimit} {answer : ProbeAnswer}
    (next : step build s op = .ok (answer, s')) : Move build s op answer s' := by
  cases op with
  | register succeeds =>
    simp only [step] at next
    split at next
    · rename_i probe rest stands
      cases succeeds with
      | true =>
        cases next
        exact .register stands
      | false =>
        cases next
        exact .refuse stands
    · cases next
  | unplant =>
    simp only [step] at next
    split at next
    · rename_i stands
      cases next
      exact .unplant stands
    · cases next
  | unregister =>
    simp only [step] at next
    split at next
    · rename_i probe rest stands
      cases next
      exact .unregister stands
    · cases next
  | connect pid sock available =>
    simp only [step] at next
    split at next
    · cases next
    · rename_i idle
      cases next
      exact .connect idle
  | connectReturn pid =>
    simp only [step] at next
    split at next
    · cases next
    · rename_i call inside
      split at next
      · rename_i runs
        rw [Bool.and_eq_true] at runs
        cases next
        exact .handled inside runs.1
      · cases next
        exact .missed

/-! ## The order of the probes -/

/-- What is registered follows from what is behind in the list. -/
def InOrder (s : ProbeState pidMaxLimit) : Prop :=
  match s.control with
  | .planting rest => ∃ past, build.probes = past ++ rest ∧ ∀ probe, s.registered probe = true ↔ probe ∈ past
  | .unplanting rest => ∃ past, build.probes = past ++ rest ∧ (∀ probe, s.registered probe = true → probe ∉ past) ∧
      (s.registered .connectKretprobe = true → .connectJprobe ∈ past ∨ s.registered .connectJprobe = true)

variable {build}

theorem jprobe_first {past rest : List KernelProbe} (split : build.probes = past ++ rest)
    (member : .connectKretprobe ∈ past) : .connectJprobe ∈ past := by
  cases past with
  | nil => cases member
  | cons probe past =>
    obtain ⟨rfl, -⟩ := List.cons.inj split
    exact List.mem_cons_self

theorem kretprobe_next {past rest : List KernelProbe} (split : build.probes = past ++ rest)
    (first : .connectJprobe ∈ past) (later : .connectKretprobe ∉ past) : ∃ rest', rest = .connectKretprobe :: rest' := by
  cases past with
  | nil => cases first
  | cons probe past =>
    obtain ⟨-, split⟩ := List.cons.inj split
    cases past with
    | nil => exact ⟨_, split.symm⟩
    | cons probe' past =>
      obtain ⟨rfl, -⟩ := List.cons.inj split
      simp at later

theorem loaded_inOrder : InOrder build (loaded build : ProbeState pidMaxLimit) :=
  ⟨[], rfl, fun _ => by simp [loaded]⟩

/-- `unplant_all` begins with what `plant_all` has registered so far. -/
theorem unplanting_inOrder {s : ProbeState pidMaxLimit} {past rest : List KernelProbe} (split : build.probes = past ++ rest)
    (registered : ∀ probe, s.registered probe = true ↔ probe ∈ past) :
    InOrder build { s with control := .unplanting build.probes } := by
  refine ⟨[], rfl, by simp, fun kretprobe => .inr ?_⟩
  rw [registered] at kretprobe ⊢
  exact jprobe_first split kretprobe

theorem step_inOrder {s s' : ProbeState pidMaxLimit} {op : ProbeOp pidMaxLimit} {answer : ProbeAnswer}
    (order : InOrder build s) (next : step build s op = .ok (answer, s')) : InOrder build s' := by
  unfold InOrder at order
  cases step_move build next with
  | @register probe rest stands =>
    rw [stands] at order
    obtain ⟨past, split, registered⟩ := order
    refine ⟨past ++ [probe], by simpa using split, fun other => ?_⟩
    by_cases same : other = probe
    · simp [same]
    · simp [same, registered]
  | refuse stands =>
    rw [stands] at order
    obtain ⟨past, split, registered⟩ := order
    exact unplanting_inOrder split registered
  | unplant stands =>
    rw [stands] at order
    obtain ⟨past, split, registered⟩ := order
    exact unplanting_inOrder split registered
  | @unregister probe rest stands =>
    rw [stands] at order
    obtain ⟨past, split, gone, both⟩ := order
    refine ⟨past ++ [probe], by simpa using split, fun other => ?_, ?_⟩
    · by_cases same : other = probe
      · simp [same]
      · simpa [same] using gone other
    · intro kretprobe
      by_cases same : KernelProbe.connectJprobe = probe
      · simp [same]
      · by_cases same' : KernelProbe.connectKretprobe = probe
        · simp [same'] at kretprobe
        · simp only [Function.update_of_ne same'] at kretprobe
          simpa [same] using both kretprobe
  | connect idle => exact order
  | handled inside awaited => exact order
  | missed => exact order

/-- The return probe is without the entry probe only between the two steps of `unplant_all`. -/
theorem halfUnplanted_of_inOrder {s : ProbeState pidMaxLimit} (order : InOrder build s)
    (kretprobe : s.registered .connectKretprobe = true) (jprobe : ¬ s.registered .connectJprobe = true) : s.HalfUnplanted := by
  refine ⟨Bool.eq_false_iff.2 jprobe, kretprobe, ?_⟩
  unfold InOrder at order
  cases stands : s.control with
  | planting rest =>
    rw [stands] at order
    obtain ⟨past, split, registered⟩ := order
    rw [registered] at kretprobe jprobe
    exact absurd (jprobe_first split kretprobe) jprobe
  | unplanting rest =>
    rw [stands] at order
    obtain ⟨past, split, gone, both⟩ := order
    obtain ⟨rest', rfl⟩ := kretprobe_next split ((both kretprobe).resolve_right jprobe) (gone _ kretprobe)
    exact ⟨rest', rfl⟩

/-! ## Calls and their sockets -/

/-- A call whose return is awaited finds NULL or its own socket in the table. -/
def Paired (s : ProbeState pidMaxLimit) : Prop :=
  ∀ pid call, s.calls pid = some call → call.awaited = true → s.matchSocket pid = none ∨ s.matchSocket pid = some call.sock

theorem loaded_paired : Paired (loaded build : ProbeState pidMaxLimit) := by
  intro pid call inside
  cases inside

/-- A call that returns leaves the others paired. -/
theorem Paired.leave {s : ProbeState pidMaxLimit} (paired : Paired s) (pid : Fin pidMaxLimit)
    {table : MatchSocket pidMaxLimit} (others : ∀ other, other ≠ pid → table other = s.matchSocket other) :
    Paired { s with calls := Function.update s.calls pid none, matchSocket := table } := by
  intro other call inside awaited
  by_cases same : other = pid
  · simp [same] at inside
  · simp only [Function.update_of_ne same] at inside
    show table other = none ∨ table other = some call.sock
    rw [others other same]
    exact paired other call inside awaited

/-- A step that is no stray entry keeps the pairing. -/
theorem step_paired {s s' : ProbeState pidMaxLimit} {op : ProbeOp pidMaxLimit} {answer : ProbeAnswer}
    (order : InOrder build s) (paired : Paired s) (calm : ¬ s.Strays op) (next : step build s op = .ok (answer, s')) :
    Paired s' := by
  cases step_move build next with
  | register stands => exact paired
  | refuse stands => exact paired
  | unplant stands => exact paired
  | unregister stands => exact paired
  | @connect pid sock available idle =>
    intro other call inside awaited
    by_cases same : other = pid
    · subst same
      simp only [Function.update_self, Option.some.injEq] at inside
      subst inside
      rw [Bool.and_eq_true] at awaited
      by_cases entry : s.registered .connectJprobe = true
      · simp only [if_pos entry]
        exact .inr (Function.update_self ..)
      · -- The entry probe is gone: what the task left behind is NULL or this socket.
        simp only [if_neg entry]
        cases left : s.matchSocket other with
        | none => exact .inl rfl
        | some earlier =>
          by_contra strange
          apply calm
          refine ⟨idle, awaited.2, halfUnplanted_of_inOrder order awaited.1 entry, earlier, left, fun equal => ?_⟩
          exact strange (.inr (congrArg some equal))
    · simp only [Function.update_of_ne same] at inside
      have kept : (if s.registered .connectJprobe then netlogInetStreamConnect s.matchSocket pid sock else s.matchSocket) other =
          s.matchSocket other := by
        split
        · exact Function.update_of_ne same ..
        · rfl
      simp only [kept]
      exact paired other call inside awaited
  | @handled pid call inside awaited => exact paired.leave pid fun other same => Function.update_of_ne same ..
  | @missed pid => exact paired.leave pid fun _ _ => rfl

/-- Where the calls are paired, the handler reads NULL or the socket of its own call. -/
theorem step_reads {s s' : ProbeState pidMaxLimit} {op : ProbeOp pidMaxLimit} {own : SocketRef} {read : Option SocketRef}
    (paired : Paired s) (next : step build s op = .ok (.postConnect own read, s')) : read = none ∨ read = some own := by
  cases step_move build next with
  | @handled pid call inside awaited => exact paired pid call inside awaited

/-- A stray entry whose call returns at once makes the handler read the earlier socket. -/
theorem stray_reads (build : Build) {s : ProbeState pidMaxLimit} {op : ProbeOp pidMaxLimit} (strays : s.Strays op) :
    ∃ pid own earlier s', earlier ≠ own ∧
      run (step build) [op, .connectReturn pid] s = .ok ([.done, .postConnect own (some earlier)], s') := by
  cases op with
  | connect pid sock available =>
    obtain ⟨idle, rfl, ⟨jprobe, kretprobe, -⟩, earlier, left, other⟩ := strays
    have enters : step build s (.connect pid sock true) =
        .ok (.done, { s with calls := Function.update s.calls pid (some ⟨sock, true⟩) }) := by
      simp only [step, idle, jprobe, kretprobe]
      rfl
    have returns : step build { s with calls := Function.update s.calls pid (some ⟨sock, true⟩) } (.connectReturn pid) =
        .ok (.postConnect sock (some earlier), { s with
          calls := Function.update (Function.update s.calls pid (some ⟨sock, true⟩)) pid none
          matchSocket := Function.update s.matchSocket pid none }) := by
      simp only [step, Function.update_self, kretprobe, Netlog.postConnect, left]
      rfl
    exact ⟨pid, sock, earlier, _, other, run_cons.2 ⟨_, _, _, enters, run_cons.2 ⟨_, _, [], returns, rfl, rfl⟩, rfl⟩⟩
  | register succeeds => cases strays
  | unplant => cases strays
  | unregister => cases strays
  | connectReturn pid => cases strays

/-- The run itself: if its entries meet the condition, no handler reads an earlier socket. -/
theorem readsOwnSocket_of_calm {ops : List (ProbeOp pidMaxLimit)}
    (calm : Along (step build) (fun s op => ¬ s.Strays op) ops (loaded build)) : ReadsOwnSocket build ops := by
  intro answers s ran own read member
  have good := answers_of_along (fun s => InOrder build s ∧ Paired s)
    (fun answer => ∀ own read, answer = .postConnect own read → read = none ∨ read = some own) ?_
    ⟨loaded_inOrder, loaded_paired⟩ calm ran
  · exact good _ member own read rfl
  · intro s op answer s' inv here next
    refine ⟨⟨step_inOrder inv.1 next, step_paired inv.1 inv.2 here next⟩, fun own read handled => ?_⟩
    rw [handled] at next
    exact step_reads inv.2 next

/-- **Which runs read no earlier socket**: those in which no call enters between the two steps of `unplant_all`
while its task has left another socket behind. Otherwise the handler reads that socket if the call returns
at once. -/
theorem reads_own_socket_iff (build : Build) (ops : List (ProbeOp pidMaxLimit)) :
    (ReadsOwnSocket build ops ∧ ∀ pre pid, pre <+: ops → ReadsOwnSocket build (pre ++ [.connectReturn pid])) ↔
      Along (step build) (fun s op => ¬ s.Strays op) ops (loaded build) := by
  constructor
  · intro given
    obtain ⟨-, returns⟩ := given
    rw [along_iff]
    intro pre op post s split reaches strays
    obtain ⟨pid, own, earlier, s', other, ran⟩ := stray_reads build strays
    obtain ⟨answers, before⟩ := reaches
    have whole : run (step build) (pre ++ [op] ++ [.connectReturn pid]) (loaded build) =
        .ok (answers ++ [.done, .postConnect own (some earlier)], s') := by
      rw [List.append_assoc]
      exact run_append.2 ⟨answers, s, _, before, ran, rfl⟩
    have reads := returns (pre ++ [op]) pid ⟨post, by simp [split]⟩ _ s' whole own (some earlier) (by simp)
    rcases reads with absent | same
    · cases absent
    · exact other (Option.some.inj same)
  · intro calm
    refine ⟨readsOwnSocket_of_calm calm, fun pre pid front => readsOwnSocket_of_calm ?_⟩
    obtain ⟨post, rfl⟩ := front
    rw [along_append]
    exact ⟨calm.front, fun s _ => along_singleton.2 id⟩

/-- The first call of task 7 is not awaited and leaves its socket behind. The second one enters when the entry
probe is gone. -/
def strayRun : List (ProbeOp 4194304) :=
  [.register true, .connect ⟨7, by decide⟩ 1 true, .connectReturn ⟨7, by decide⟩, .register true, .register true,
    .register true, .unplant, .unregister, .connect ⟨7, by decide⟩ 2 true, .connectReturn ⟨7, by decide⟩]

theorem reads_own_socket_fails : ¬ ReadsOwnSocket ⟨true, false⟩ strayRun := by
  intro reads
  have ran : ∃ s, run (step ⟨true, false⟩) strayRun (loaded ⟨true, false⟩) =
      .ok (List.replicate 9 .done ++ [.postConnect 2 (some 1)], s) := ⟨_, rfl⟩
  obtain ⟨s, ran⟩ := ran
  rcases reads _ s ran 2 (some 1) (by simp) with absent | same
  · cases absent
  · simp at same

end ProbeState

end Netlog
