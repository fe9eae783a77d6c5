import SecuritySuite.Netlog.ConcurrentWrites
import SecuritySuite.Netlog.ConnectProbes
import SecuritySuite.Netlog.ConnectionLedger

/-!
# netlog from `plant_probes` to `unplant_probes`

The module's own statements, one at a time, between which tasks connect and the configuration file is written and
read. The probes are the machine of `ConnectProbes`, the white list and its objects that of `ConnectionLedger`; what
is added is which of their steps the module takes when, and the entry in `/proc`, without which there are no writes.

`destroy_whitelist` runs in front of `destroy_proc_config`. A write that comes between the two fills the list
again, and nothing frees it.
-/

namespace Netlog.Lifecycle
set_option autoImplicit false
open CString Runs Concurrent

variable {pidMaxLimit : Nat}

/-- How far the module is, beside its probes. -/
inductive Phase where
  /-- In front of `create_proc_config`. -/
  | loading
  /-- `do_whitelist`, with the connections that are still to be whitelisted. With none left the module is deployed. -/
  | whitelisting (rest : List (List Byte))
  /-- Between `destroy_whitelist` and `destroy_proc_config`. -/
  | cleared
  | unloaded
deriving DecidableEq

/-- `destroy_whitelist` has run. -/
def Phase.pastList : Phase → Bool
  | .cleared => true
  | .unloaded => true
  | _ => false

structure Module (pidMaxLimit : Nat) where
  probes : ProbeState pidMaxLimit
  phase : Phase
  /-- `netlog_config_proc_file` is not NULL. -/
  procEntry : Bool
  tracked : Tracked

/-- A statement of the module with what the kernel answers to it, or what comes from outside. -/
inductive Event (pidMaxLimit : Nat) where
  /-- A statement of `plant_all` or `unplant_all`, the removal of the module, or a task in connect. -/
  | probe (op : ProbeOp pidMaxLimit)
  | createProcConfig (entry : Bool)
  /-- `whitelist` on the next parameter, with the memory behind its terminator. -/
  | whitelist (kmalloc : Bool) (behind : List Byte)
  | destroyWhitelist
  | destroyProcConfig
  | procfileWrite (w : WriteCall)
  | procfileRead (offset bufferLength : Int)

inductive Answer where
  | done
  | probe (answer : ProbeAnswer)
  | code (value : Option Int)
  | read (result : ReadResult)

inductive Fault where
  /-- The event is not one that can come next. -/
  | outOfTurn
  | tracked (fault : TrackedFault)
  | violation (violation : Violation)

namespace Module

/-- The module has been loaded, and `plant_probes` begins. -/
def loaded (build : Build) : Module pidMaxLimit := ⟨.loaded build, .loading, false, initialTracked⟩

/-- An operation on the white list. -/
def track (s : Module pidMaxLimit) (phase : Phase) (op : TrackedOp) : Except Fault (Answer × Module pidMaxLimit) :=
  match trackedStep s.tracked op with
  | .error fault => .error (.tracked fault)
  | .ok (code, tracked) => .ok (.code code, { s with phase, tracked })

/-- A step of the probes. -/
def probe (build : Build) (s : Module pidMaxLimit) (op : ProbeOp pidMaxLimit) : Except Fault (Answer × Module pidMaxLimit) :=
  match s.probes.step build op with
  | .error _ => .error .outOfTurn
  | .ok (answer, probes) => .ok (.probe answer, { s with probes })

variable (build : Build) (connectionsToWhitelist : List (List Byte))

/-- `do_whitelist` ignores the parameters behind the first `MAX_WHITELIST_SIZE`. -/
def step (s : Module pidMaxLimit) : Event pidMaxLimit → Except Fault (Answer × Module pidMaxLimit)
  | .probe .unplant =>
    match s.phase with
    | .whitelisting [] => s.probe build .unplant
    | _ => .error .outOfTurn
  | .probe op => s.probe build op
  | .createProcConfig entry =>
    match s.probes.control, s.phase with
    | .planting [], .loading =>
      let (code, config) := createProcConfig entry s.tracked.config
      .ok (.code (some code), { s with
        phase := .whitelisting (connectionsToWhitelist.take maxWhitelistSize)
        procEntry := entry
        tracked := { s.tracked with config } })
    | _, _ => .error .outOfTurn
  | .whitelist kmalloc behind =>
    match s.phase with
    | .whitelisting (connection :: rest) => s.track (.whitelisting rest) (.whitelist kmalloc connection behind)
    | _ => .error .outOfTurn
  | .destroyWhitelist =>
    match s.probes.control, s.phase with
    | .unplanting [], .whitelisting [] => s.track .cleared .destroyWhitelist
    | _, _ => .error .outOfTurn
  | .destroyProcConfig =>
    match s.phase with
    | .cleared =>
      if s.procEntry then
        .ok (.done, { s with
          phase := .unloaded
          procEntry := false
          tracked := { s.tracked with config := initializeProcfsBuffer s.tracked.config } })
      else .ok (.done, { s with phase := .unloaded })
    | _ => .error .outOfTurn
  | .procfileWrite w => if s.procEntry then s.track s.phase (.procfileWrite w) else .error .outOfTurn
  | .procfileRead offset bufferLength =>
    if s.procEntry then
      match procfileRead offset bufferLength s.tracked.config with
      | .error violation => .error (.violation violation)
      | .ok (result, config) => .ok (.read result, { s with tracked := { s.tracked with config } })
    else .error .outOfTurn

/-! ## What is to hold -/

/-- The module's code has come to its end: `plant_probes` has failed, or `unplant_probes` has returned. -/
def Over (s : Module pidMaxLimit) : Prop :=
  s.probes.control = .unplanting [] ∧ (s.phase = .loading ∨ s.phase = .unloaded)

/-- A connection is turned away as "already whitelisted", and its object is lost. -/
def Forgets (s : Module pidMaxLimit) : Event pidMaxLimit → Prop
  | .whitelist kmalloc behind =>
    ∃ connection rest, s.phase = .whitelisting (connection :: rest) ∧
      Netlog.Forgets s.tracked (.whitelist kmalloc connection behind)
  | .procfileWrite w => s.procEntry = true ∧ Netlog.Forgets s.tracked (.procfileWrite w)
  | _ => False

/-- A write between `destroy_whitelist` and `destroy_proc_config` lists a connection, and no later one clears the
list. -/
def ListsLate (events : List (Event pidMaxLimit)) : Prop :=
  ∃ pre w post s, events = pre ++ .procfileWrite w :: post ∧
    Reaches (step build connectionsToWhitelist) (loaded build) pre s ∧ s.phase = .cleared ∧
    w.TakenOver ∧ listOf w ≠ [] ∧ ∀ w', .procfileWrite w' ∈ post → ¬ w'.TakenOver

/-! ## What a step does -/

/-- All that a step can do. -/
inductive Move (s : Module pidMaxLimit) : Event pidMaxLimit → Module pidMaxLimit → Prop where
  | probe {op : ProbeOp pidMaxLimit} {answer : ProbeAnswer} {probes : ProbeState pidMaxLimit}
      (next : s.probes.step build op = .ok (answer, probes)) : Move s (.probe op) { s with probes }
  | create {entry : Bool} (loading : s.phase = .loading) :
      Move s (.createProcConfig entry) { s with
        phase := .whitelisting (connectionsToWhitelist.take maxWhitelistSize)
        procEntry := entry
        tracked := { s.tracked with config := (createProcConfig entry s.tracked.config).2 } }
  | whitelist {kmalloc : Bool} {connection behind : List Byte} {rest : List (List Byte)} {code : Option Int}
      {tracked : Tracked} (stands : s.phase = .whitelisting (connection :: rest))
      (next : trackedStep s.tracked (.whitelist kmalloc connection behind) = .ok (code, tracked)) :
      Move s (.whitelist kmalloc behind) { s with phase := .whitelisting rest, tracked }
  | destroyWhitelist {code : Option Int} {tracked : Tracked} (stands : s.phase = .whitelisting [])
      (next : trackedStep s.tracked .destroyWhitelist = .ok (code, tracked)) :
      Move s .destroyWhitelist { s with phase := .cleared, tracked }
  | destroyProcConfig {config : ProcConfig} (stands : s.phase = .cleared)
      (list : config.whiteList = s.tracked.config.whiteList) :
      Move s .destroyProcConfig { s with
        phase := .unloaded, procEntry := false, tracked := { s.tracked with config } }
  | write {w : WriteCall} {code : Option Int} {tracked : Tracked} (entry : s.procEntry = true)
      (next : trackedStep s.tracked (.procfileWrite w) = .ok (code, tracked)) :
      Move s (.procfileWrite w) { s with tracked }
  | read {offset bufferLength : Int} {config : ProcConfig} (list : config.whiteList = s.tracked.config.whiteList) :
      Move s (.procfileRead offset bufferLength) { s with tracked := { s.tracked with config } }

variable {build connectionsToWhitelist} {s s' : Module pidMaxLimit} {event : Event pidMaxLimit} {answer : Answer}

theorem probe_move {op : ProbeOp pidMaxLimit} (next : s.probe build op = .ok (answer, s')) :
    Move build connectionsToWhitelist s (.probe op) s' := by
  unfold probe at next
  split at next
  · cases next
  · rename_i _ probes took
    cases next
    exact .probe took

theorem track_eq {phase : Phase} {op : TrackedOp} (next : s.track phase op = .ok (answer, s')) :
    ∃ code tracked, trackedStep s.tracked op = .ok (code, tracked) ∧ s' = { s with phase, tracked } := by
  unfold track at next
  split at next
  · cases next
  · rename_i code tracked took
    cases next
    exact ⟨code, tracked, took, rfl⟩

theorem procfileRead_list {offset bufferLength : Int} {config config' : ProcConfig} {result : ReadResult}
    (next : procfileRead offset bufferLength config = .ok (result, config')) : config'.whiteList = config.whiteList := by
  unfold procfileRead at next
  split at next
  · cases next
    rfl
  split at next
  · cases next
    rfl
  unfold check at next
  split at next
  case isFalse => cases next
  split at next
  case isFalse => cases next
  simp only [bind, Except.bind] at next
  split at next
  · cases next
  · cases next
    unfold trimLastComma
    split
    · rfl
    · rfl

theorem step_move (next : step build connectionsToWhitelist s event = .ok (answer, s')) :
    Move build connectionsToWhitelist s event s' := by
  cases event with
  | probe op =>
    cases op with
    | unplant =>
      simp only [step] at next
      split at next
      · exact probe_move next
      · cases next
    | register succeeds => exact probe_move next
    | unregister => exact probe_move next
    | connect pid sock available => exact probe_move next
    | connectReturn pid => exact probe_move next
  | createProcConfig entry =>
    simp only [step] at next
    split at next
    · rename_i loading
      cases next
      exact .create loading
    · cases next
  | whitelist kmalloc behind =>
    simp only [step] at next
    split at next
    · rename_i connection rest stands
      obtain ⟨code, tracked, took, rfl⟩ := track_eq next
      exact .whitelist stands took
    · cases next
  | destroyWhitelist =>
    simp only [step] at next
    split at next
    · rename_i stands
      obtain ⟨code, tracked, took, rfl⟩ := track_eq next
      exact .destroyWhitelist stands took
    · cases next
  | destroyProcConfig =>
    simp only [step] at next
    split at next
    · rename_i stands
      split at next
      · cases next
        exact .destroyProcConfig stands rfl
      · rename_i absent
        cases next
        have same : { s with phase := .unloaded } = { s with
            phase := .unloaded, procEntry := false, tracked := { s.tracked with config := s.tracked.config } } := by
          rw [← Bool.eq_false_iff.2 absent]
        rw [same]
        exact .destroyProcConfig stands rfl
    · cases next
  | procfileWrite w =>
    simp only [step] at next
    split at next
    · rename_i entry
      obtain ⟨code, tracked, took, rfl⟩ := track_eq next
      exact .write entry took
    · cases next
  | procfileRead offset bufferLength =>
    simp only [step] at next
    split at next
    · split at next
      · cases next
      · rename_i result config took
        cases next
        exact .read (procfileRead_list took)
    · cases next

/-! ## The list and its objects -/

/-- A write that is taken over leaves its own list, and every other one leaves the list as it is. -/
theorem write_list {st tracked : Tracked} {w : WriteCall} {code : Option Int} (owned : Owned st)
    (next : trackedStep st (.procfileWrite w) = .ok (code, tracked)) :
    (w.TakenOver ∧ tracked.config.whiteList = listOf w) ∨
      (¬ w.TakenOver ∧ tracked.config.whiteList = st.config.whiteList) := by
  obtain ⟨value, written⟩ : ∃ value, procfileWrite w st.config = .ok (value, tracked.config) := by
    rcases (trackedStep_follows (.procfileWrite w) owned).cases with ⟨violation, faults, -⟩ | ⟨r, r', took, plain, -, same, -⟩
    · rw [next] at faults
      cases faults
    rw [next] at took
    cases took
    rw [configStep] at plain
    cases result : procfileWrite w st.config with
    | error violation =>
      rw [result] at plain
      cases plain
    | ok r =>
      rw [result] at plain
      cases plain
      exact ⟨r.1, by rw [show tracked.config = r.2 from same]⟩
  by_cases full : procfsMaxSize ≤ w.buffer.length
  · rw [procfileWrite_enospc st.config full] at written
    simp only [Except.ok.injEq, Prod.mk.injEq] at written
    exact .inr ⟨fun taken => absurd taken.fits (by omega), by rw [← written.2]⟩
  by_cases readable : w.buffer.length ≤ w.readable
  case neg =>
    rw [procfileWrite_efault st.config (by omega) (by omega)] at written
    simp only [Except.ok.injEq, Prod.mk.injEq] at written
    exact .inr ⟨fun taken => readable taken.readable, by rw [← written.2]⟩
  by_cases nonempty : 1 ≤ w.buffer.length
  case neg =>
    rw [procfileWrite_empty st.config (by omega)] at written
    cases written
  have taken : w.TakenOver := takenOver_of_ok st.config nonempty (by omega) readable ⟨_, written⟩
  obtain ⟨_, config, again, list⟩ :=
    procfileWrite_list ⟨taken.nonempty, taken.fits, taken.readable, taken.short⟩ st.config
  rw [written] at again
  cases again
  exact .inl ⟨taken, list⟩

/-- A step forgets an object where `Forgets` says so, and nowhere else. -/
theorem move_settled (owned : Owned s.tracked) (move : Move build connectionsToWhitelist s event s') :
    Settled (s.Forgets event) s.tracked s'.tracked := by
  cases move with
  | probe next => exact .same owned id rfl rfl rfl
  | @create entry loading =>
    refine .same owned id rfl ?_ rfl
    cases entry with
    | true => rfl
    | false => rfl
  | @whitelist kmalloc connection behind rest code tracked stands next =>
    have settled := settled_of_step owned next
    refine ⟨settled.owned, settled.leaky.trans (or_congr_right ?_)⟩
    constructor
    · intro forgets
      exact ⟨connection, rest, stands, forgets⟩
    · intro forgets
      obtain ⟨connection', rest', stands', forgets⟩ := forgets
      rw [stands] at stands'
      cases stands'
      exact forgets
  | destroyWhitelist stands next => exact settled_of_step owned next
  | destroyProcConfig stands list => exact .same owned id rfl (congrArg List.length list) rfl
  | write entry next =>
    have settled := settled_of_step owned next
    exact ⟨settled.owned, settled.leaky.trans (or_congr_right (and_iff_right entry).symm)⟩
  | read list => exact .same owned id rfl (congrArg List.length list) rfl

/-! ## Runs -/

/-- What every step keeps. -/
structure Sound (build : Build) (s : Module pidMaxLimit) : Prop where
  order : s.probes.InOrder build
  built : ∀ probe, s.probes.registered probe = true → probe ∈ build.probes
  owned : Owned s.tracked
  entry : s.phase = .loading ∨ s.phase = .unloaded → s.procEntry = false
  fresh : s.phase = .loading → s.tracked.config.whiteList = []

theorem loaded_sound (build : Build) : Sound build (loaded build : Module pidMaxLimit) where
  order := ProbeState.loaded_inOrder
  built _ registered := by cases registered
  owned := .initial
  entry _ := rfl
  fresh _ := rfl

/-- Only the probes of the build are registered. -/
theorem probe_built {probes probes' : ProbeState pidMaxLimit} {op : ProbeOp pidMaxLimit} {answer : ProbeAnswer}
    (order : probes.InOrder build) (built : ∀ probe, probes.registered probe = true → probe ∈ build.probes)
    (next : probes.step build op = .ok (answer, probes')) :
    ∀ probe, probes'.registered probe = true → probe ∈ build.probes := by
  unfold ProbeState.InOrder at order
  cases ProbeState.step_move build next with
  | @register probe rest stands =>
    rw [stands] at order
    obtain ⟨past, split, -⟩ := order
    intro other registered
    by_cases same : other = probe
    · rw [same, split]
      simp
    · simp only [Function.update_of_ne same] at registered
      exact built other registered
  | @unregister probe rest stands =>
    intro other registered
    by_cases same : other = probe
    · simp [same] at registered
    · simp only [Function.update_of_ne same] at registered
      exact built other registered
  | refuse stands => exact built
  | unplant stands => exact built
  | connect idle => exact built
  | handled inside awaited => exact built
  | missed => exact built

theorem move_sound (sound : Sound build s) (move : Move build connectionsToWhitelist s event s') : Sound build s' := by
  have owned := (move_settled sound.owned move).owned
  cases move with
  | probe next =>
    exact ⟨ProbeState.step_inOrder sound.order next, probe_built sound.order sound.built next, owned, sound.entry,
      sound.fresh⟩
  | create loading => exact ⟨sound.order, sound.built, owned, by simp, by simp⟩
  | whitelist stands next => exact ⟨sound.order, sound.built, owned, by simp, by simp⟩
  | destroyWhitelist stands next => exact ⟨sound.order, sound.built, owned, by simp, by simp⟩
  | destroyProcConfig stands list => exact ⟨sound.order, sound.built, owned, fun _ => rfl, by simp⟩
  | write entry next =>
    refine ⟨sound.order, sound.built, owned, sound.entry, fun loading => ?_⟩
    rw [sound.entry (.inl loading)] at entry
    cases entry
  | read list => exact ⟨sound.order, sound.built, owned, sound.entry, fun loading => list.trans (sound.fresh loading)⟩

/-- Where an element stands in a list with one more at its end. -/
theorem snoc_eq_split {α : Type} {pre post events : List α} {x last : α} :
    events ++ [last] = pre ++ x :: post ↔
      (pre = events ∧ x = last ∧ post = []) ∨ ∃ post', post = post' ++ [last] ∧ events = pre ++ x :: post' := by
  constructor
  · intro same
    rcases List.eq_nil_or_concat' post with rfl | ⟨post', last', rfl⟩
    · obtain ⟨front, back⟩ := List.append_inj' same rfl
      exact .inl ⟨front.symm, (List.cons.inj back).1.symm, rfl⟩
    · rw [← List.cons_append, ← List.append_assoc] at same
      obtain ⟨front, back⟩ := List.append_inj' same rfl
      exact .inr ⟨post', by rw [back], front⟩
  · rintro (⟨rfl, rfl, rfl⟩ | ⟨post', rfl, rfl⟩)
    · rfl
    · simp

/-- An event that is no write lists nothing late. -/
theorem listsLate_snoc_other {events : List (Event pidMaxLimit)} (other : ∀ w, event ≠ .procfileWrite w) :
    ListsLate build connectionsToWhitelist (events ++ [event]) ↔ ListsLate build connectionsToWhitelist events := by
  constructor
  · rintro ⟨pre, w, post, s, split, reaches, cleared, taken, lists, last⟩
    rcases snoc_eq_split.1 split with ⟨-, write, -⟩ | ⟨post, rfl, before⟩
    · exact absurd write.symm (other w)
    · exact ⟨pre, w, post, s, before, reaches, cleared, taken, lists, fun w' member => last w' (by simp [member])⟩
  · rintro ⟨pre, w, post, s, rfl, reaches, cleared, taken, lists, last⟩
    refine ⟨pre, w, post ++ [event], s, by simp, reaches, cleared, taken, lists, fun w' member => ?_⟩
    rcases List.mem_append.1 member with before | same
    · exact last w' before
    · exact absurd (List.mem_singleton.1 same).symm (other w')

/-- A write that is taken over decides alone. -/
theorem listsLate_snoc_write {events : List (Event pidMaxLimit)} {w : WriteCall}
    (reaches : Reaches (step build connectionsToWhitelist) (loaded build) events s) :
    ListsLate build connectionsToWhitelist (events ++ [.procfileWrite w]) ↔
      (s.phase = .cleared ∧ w.TakenOver ∧ listOf w ≠ []) ∨
        (ListsLate build connectionsToWhitelist events ∧ ¬ w.TakenOver) := by
  constructor
  · rintro ⟨pre, w', post, s', split, reaches', cleared, taken, lists, last⟩
    rcases snoc_eq_split.1 split with ⟨rfl, same, rfl⟩ | ⟨post, rfl, before⟩
    · cases same
      rw [reaches'.unique reaches] at cleared
      exact .inl ⟨cleared, taken, lists⟩
    · refine .inr ⟨⟨pre, w', post, s', before, reaches', cleared, taken, lists, fun w'' member => ?_⟩, ?_⟩
      · exact last w'' (List.mem_append_left _ member)
      · exact last w (by simp)
  · rintro (⟨cleared, taken, lists⟩ | ⟨⟨pre, w', post, s', rfl, reaches', cleared, taken, lists, last⟩, untaken⟩)
    · exact ⟨events, w, [], s, rfl, reaches, cleared, taken, lists, by simp⟩
    · refine ⟨pre, w', post ++ [.procfileWrite w], s', by simp, reaches', cleared, taken, lists, fun w'' member => ?_⟩
      rcases List.mem_append.1 member with before | same
      · exact last w'' before
      · cases List.mem_singleton.1 same
        exact untaken

/-- What a run has made of the objects and of the list. -/
structure Past (build : Build) (connectionsToWhitelist : List (List Byte)) (events : List (Event pidMaxLimit))
    (s : Module pidMaxLimit) : Prop where
  sound : Sound build s
  settled : ¬ Leaky s.tracked ↔
    Along (step build connectionsToWhitelist) (fun s event => ¬ s.Forgets event) events (loaded build)
  late : ListsLate build connectionsToWhitelist events ↔ s.phase.pastList = true ∧ s.tracked.config.whiteList ≠ []

theorem loaded_past : Past build connectionsToWhitelist [] (loaded build : Module pidMaxLimit) where
  sound := loaded_sound build
  settled := iff_of_true not_leaky_initial trivial
  late := by simp [ListsLate, loaded, Phase.pastList]

theorem move_late {events : List (Event pidMaxLimit)} (past : Past build connectionsToWhitelist events s)
    (reaches : Reaches (step build connectionsToWhitelist) (loaded build) events s)
    (move : Move build connectionsToWhitelist s event s') :
    ListsLate build connectionsToWhitelist (events ++ [event]) ↔
      s'.phase.pastList = true ∧ s'.tracked.config.whiteList ≠ [] := by
  have late := past.late
  cases move with
  | probe next =>
    rw [listsLate_snoc_other (by simp)]
    exact late
  | create loading =>
    rw [listsLate_snoc_other (by simp), late, loading]
    simp [Phase.pastList]
  | whitelist stands next =>
    rw [listsLate_snoc_other (by simp), late, stands]
    simp [Phase.pastList]
  | @destroyWhitelist code tracked stands next =>
    obtain ⟨ledger, destroyed, -⟩ := trackedDestroy_ok past.sound.owned
    rw [trackedStep, destroyed] at next
    cases next
    rw [listsLate_snoc_other (by simp), late, stands]
    simp [Phase.pastList, destroyWhitelist]
  | destroyProcConfig stands list =>
    rw [listsLate_snoc_other (by simp), late, stands, list]
    simp [Phase.pastList]
  | @write w code tracked entry next =>
    rw [listsLate_snoc_write reaches, late]
    have here : s.phase = .cleared ↔ s.phase.pastList = true := by
      cases phase : s.phase with
      | loading => simp [Phase.pastList]
      | whitelisting rest => simp [Phase.pastList]
      | cleared => simp [Phase.pastList]
      | unloaded =>
        rw [past.sound.entry (.inr phase)] at entry
        cases entry
    rcases write_list past.sound.owned next with ⟨taken, list⟩ | ⟨untaken, list⟩
    · simp only [here, taken, list]
      tauto
    · simp only [untaken, list]
      tauto
  | read list =>
    rw [listsLate_snoc_other (by simp), late, list]

theorem past_of_reaches {events : List (Event pidMaxLimit)}
    (reaches : Reaches (step build connectionsToWhitelist) (loaded build) events s) :
    Past build connectionsToWhitelist events s := by
  refine history_of_reaches (Past build connectionsToWhitelist) loaded_past ?_ reaches
  intro events s event answer s' before past next
  have move := step_move next
  refine ⟨move_sound past.sound move, ?_, move_late past before move⟩
  rw [along_snoc before, (move_settled past.sound.owned move).leaky, not_or, past.settled]

/-- **What the module leaves behind** when its code has come to its end, whatever tasks and writers did meanwhile: no
probe and no entry, and no connection object exactly if no connection was turned away as "already whitelisted" and no
write listed one between `destroy_whitelist` and `destroy_proc_config`. -/
theorem leaves_nothing_iff {events : List (Event pidMaxLimit)}
    (reaches : Reaches (step build connectionsToWhitelist) (loaded build) events s) (gone : s.Over) :
    (∀ probe, s.probes.registered probe = false) ∧ s.procEntry = false ∧
      (s.tracked.ledger.live = [] ↔
        Along (step build connectionsToWhitelist) (fun s event => ¬ s.Forgets event) events (loaded build) ∧
          ¬ ListsLate build connectionsToWhitelist events) := by
  have past := past_of_reaches reaches
  obtain ⟨unplanted, ended⟩ := gone
  have order := past.sound.order
  unfold ProbeState.InOrder at order
  rw [unplanted] at order
  obtain ⟨gone, split, removed, -⟩ := order
  refine ⟨fun probe => ?_, past.sound.entry ended, ?_⟩
  · rw [Bool.eq_false_iff]
    intro registered
    apply removed probe registered
    rw [List.append_nil] at split
    exact split ▸ past.sound.built probe registered
  -- The live objects are those of the list and those that were forgotten.
  have empty : s.tracked.config.whiteList = [] ↔ ¬ ListsLate build connectionsToWhitelist events := by
    rw [past.late]
    rcases ended with loading | unloaded
    · simp [past.sound.fresh loading]
    · simp [unloaded, Phase.pastList]
  have objects : s.tracked.objects = [] ↔ s.tracked.config.whiteList = [] := by
    rw [← List.length_eq_zero_iff, past.sound.owned.aligned, List.length_eq_zero_iff]
  rw [← past.settled, ← empty, ← objects]
  constructor
  · intro released
    refine ⟨fun leaky => ?_, ?_⟩
    · obtain ⟨a, live, -⟩ := leaky
      simp [released] at live
    · apply List.eq_nil_iff_forall_not_mem.2
      intro a member
      simpa [released] using past.sound.owned.live a member
  · rintro ⟨tight, none⟩
    have same := past.sound.owned.perm_iff.2 tight
    rw [none] at same
    exact same.eq_nil

/-- A valid write completes, over any objects. -/
theorem write_completes {st : Tracked} {w : WriteCall} (owned : Owned st) (valid : Valid w) :
    ∃ code tracked, trackedStep st (.procfileWrite w) = .ok (code, tracked) := by
  obtain ⟨code, config, written, -⟩ := procfileWrite_list valid st.config
  rcases (trackedStep_follows (.procfileWrite w) owned).cases with ⟨violation, -, plain⟩ | ⟨⟨code, tracked⟩, -, took, -⟩
  · rw [configStep, written] at plain
    cases plain
  · exact ⟨code, tracked, took⟩

/-- The module is loaded and removed, up to `destroy_whitelist`. -/
def unplanted : List (Event 4194304) :=
  List.replicate 4 (.probe (.register true)) ++ [.createProcConfig true, .probe .unplant] ++
    List.replicate 4 (.probe .unregister) ++ [.destroyWhitelist]

/-- A write of one path comes in front of `destroy_proc_config`. -/
theorem leaves_nothing_late : ∃ s, Reaches (step ⟨true, false⟩ []) (loaded ⟨true, false⟩)
    (unplanted ++ [.procfileWrite (oneString "/bin/a\n"), .destroyProcConfig]) s ∧
    s.procEntry = false ∧ s.tracked.ledger.live ≠ [] := by
  have valid : Valid (oneString "/bin/a\n") := twoWrites_valid false
  obtain ⟨s₁, reaches₁, cleared, entry, unplanting⟩ :
      ∃ s₁, Reaches (step ⟨true, false⟩ []) (loaded ⟨true, false⟩) unplanted s₁ ∧ s₁.phase = .cleared ∧
        s₁.procEntry = true ∧ s₁.probes.control = .unplanting [] := ⟨_, ⟨_, rfl⟩, rfl, rfl, rfl⟩
  obtain ⟨code, tracked, took⟩ := write_completes (past_of_reaches reaches₁).sound.owned valid
  have writes : step ⟨true, false⟩ [] s₁ (.procfileWrite (oneString "/bin/a\n")) = .ok (.code code, { s₁ with tracked }) := by
    simp only [step, entry, if_true, track]
    rw [took]
  obtain ⟨s, last, gone⟩ : ∃ s, step ⟨true, false⟩ [] { s₁ with tracked } .destroyProcConfig = .ok (.done, s) ∧ s.Over := by
    simp only [step, cleared, entry, if_true]
    exact ⟨_, rfl, unplanting, .inr rfl⟩
  have reaches : Reaches (step ⟨true, false⟩ []) (loaded ⟨true, false⟩)
      (unplanted ++ [.procfileWrite (oneString "/bin/a\n"), .destroyProcConfig]) s :=
    reaches_append.2 ⟨s₁, reaches₁, reaches_cons.2 ⟨_, _, writes, reaches_cons.2 ⟨_, _, last, reaches_nil.2 rfl⟩⟩⟩
  obtain ⟨-, absent, released⟩ := leaves_nothing_iff reaches gone
  refine ⟨s, reaches, absent, fun empty => (released.1 empty).2 ?_⟩
  exact ⟨unplanted, _, [.destroyProcConfig], s₁, rfl, reaches₁, cleared,
    ⟨valid.nonempty, valid.fits, valid.readable, valid.short⟩, by decide +kernel, by simp⟩

end Module

end Netlog.Lifecycle
