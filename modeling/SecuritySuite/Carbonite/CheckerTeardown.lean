import SecuritySuite.Carbonite.IntegrityCheck

/-!
# Teardown of the checker beside a tick

The statements of `destroy_sys_call_table_integrity_checker` run on one CPU, those of a tick on another, and other code
writes to memory. Each shared variable is read or written in a step of its own, in the order in which the operands
stand. Two things can go wrong: the tick arms the timer again after it was deleted, and it compares a hash from before
with a size from after the clearing, or the other way round. `teardown_clean_iff` says that nothing else can.
-/

namespace Carbonite.Teardown
set_option autoImplicit false
open CString Runs

/-- The statements of `destroy_sys_call_table_integrity_checker`. The last assigns to five variables, from the right. -/
inductive DestroyStatement where
  | unregisterNotifier
  | delTimer
  | clearName
  | clearHash
  | clearSize
  | clearAddress
  | clearInterval
  | returned
deriving DecidableEq, Repr

/-- The statements of a tick, with what it has read. It waits until the timer expires. -/
inductive TickStatement where
  | waiting
  | readHash
  | readAddress (hash : UInt32)
  | readSize (hash : UInt32) (address : UInt64)
  | compare (hash : UInt32) (address : UInt64) (size : UInt32)
  | dispatch (modified : Bool)
  | testInterval
  | modTimer
  | returned
deriving DecidableEq, Repr

structure State (Handler : Type) where
  checker : Checker Handler
  destroying : DestroyStatement
  ticking : TickStatement

variable {Handler : Type}

/-- `super_fast_hash((char *) address, size)`. -/
def hashOf (memory : UInt64 → Byte) (address : UInt64) (size : UInt32) : UInt32 :=
  superFastHash (if address = 0 then none else some (bytesAt memory address size)) size

/-- One statement of `destroy_sys_call_table_integrity_checker`. `del_timer` only removes a pending timer. -/
def destroyStatement (s : State Handler) : State Handler :=
  match s.destroying with
  | .unregisterNotifier =>
    { s with checker := { s.checker with notifierRegistered := false }, destroying := .delTimer }
  | .delTimer => { s with checker := { s.checker with timerPending := false }, destroying := .clearName }
  | .clearName =>
    { s with checker := { s.checker with checkingModule := s.checker.checkingModule.set 0 0 }, destroying := .clearHash }
  | .clearHash => { s with checker := { s.checker with sysCallTableHash := 0 }, destroying := .clearSize }
  | .clearSize => { s with checker := { s.checker with sysCallTableSize := 0 }, destroying := .clearAddress }
  | .clearAddress => { s with checker := { s.checker with sysCallTableAddress := 0 }, destroying := .clearInterval }
  | .clearInterval => { s with checker := { s.checker with timerInterval := 0 }, destroying := .returned }
  | .returned => s

/-- One statement of the tick. The kernel takes the timer off its list before it calls. -/
def tickStatement (s : State Handler) : Option (Call Handler) × State Handler :=
  match s.ticking with
  | .waiting =>
    if s.checker.timerPending then
      (none, { s with checker := { s.checker with timerPending := false }, ticking := .readHash })
    else (none, s)
  | .readHash => (none, { s with ticking := .readAddress s.checker.sysCallTableHash })
  | .readAddress hash => (none, { s with ticking := .readSize hash s.checker.sysCallTableAddress })
  | .readSize hash address => (none, { s with ticking := .compare hash address s.checker.sysCallTableSize })
  | .compare hash address size =>
    (none, { s with ticking := .dispatch (decide (hash ≠ hashOf s.checker.memory address size)) })
  | .dispatch modified =>
    if modified then
      (s.checker.incidentHandler.map fun handler => (handler, afterIncident),
        { s with checker := { s.checker with incidentHandler := none }, ticking := .testInterval })
    else (none, { s with ticking := .testInterval })
  | .testInterval => (none, { s with ticking := if s.checker.timerInterval = 0 then .returned else .modTimer })
  | .modTimer => (none, { s with checker := { s.checker with timerPending := true }, ticking := .returned })
  | .returned => (none, s)

inductive Op where
  /-- The next statement of `destroy_sys_call_table_integrity_checker`. -/
  | destroy
  /-- The next statement of the tick. -/
  | tick
  | write (address : UInt64) (stored : List Byte)
deriving DecidableEq

def step (s : State Handler) : Op → Except Empty (Option (Call Handler) × State Handler)
  | .destroy => .ok (none, destroyStatement s)
  | .tick => .ok (tickStatement s)
  | .write address stored =>
    .ok (none, { s with checker := { s.checker with memory := store s.checker.memory address stored } })

/-! ## What a step leaves alone -/

/-- How many statements are done. -/
def DestroyStatement.place : DestroyStatement → Nat
  | .unregisterNotifier => 0
  | .delTimer => 1
  | .clearName => 2
  | .clearHash => 3
  | .clearSize => 4
  | .clearAddress => 5
  | .clearInterval => 6
  | .returned => 7

/-- The timer has been deleted. -/
def State.Deleted (s : State Handler) : Prop := 2 ≤ s.destroying.place

/-- Both have finished, or the timer never expired. -/
def State.Finished (s : State Handler) : Prop :=
  s.destroying = .returned ∧ (s.ticking = .waiting ∨ s.ticking = .returned)

instance (s : State Handler) : Decidable s.Deleted := inferInstanceAs (Decidable (_ ≤ _))

instance (s : State Handler) : Decidable s.Finished := inferInstanceAs (Decidable (_ ∧ _))

section Fields

variable (s : State Handler)

@[simp] theorem destroyStatement_ticking : (destroyStatement s).ticking = s.ticking := by
  unfold destroyStatement
  split <;> rfl

@[simp] theorem destroyStatement_memory : (destroyStatement s).checker.memory = s.checker.memory := by
  unfold destroyStatement
  split <;> rfl

@[simp] theorem destroyStatement_handler : (destroyStatement s).checker.incidentHandler = s.checker.incidentHandler := by
  unfold destroyStatement
  split <;> rfl

theorem destroyStatement_place : (destroyStatement s).destroying.place = min 7 (s.destroying.place + 1) := by
  unfold destroyStatement
  split <;> simp [DestroyStatement.place, *]

theorem destroyStatement_pending : (destroyStatement s).checker.timerPending =
    (decide (s.destroying.place ≠ 1) && s.checker.timerPending) := by
  unfold destroyStatement
  split <;> simp [DestroyStatement.place, *]

theorem destroyStatement_hash : (destroyStatement s).checker.sysCallTableHash =
    if s.destroying.place = 3 then 0 else s.checker.sysCallTableHash := by
  unfold destroyStatement
  split <;> simp [DestroyStatement.place, *]

theorem destroyStatement_size : (destroyStatement s).checker.sysCallTableSize =
    if s.destroying.place = 4 then 0 else s.checker.sysCallTableSize := by
  unfold destroyStatement
  split <;> simp [DestroyStatement.place, *]

theorem destroyStatement_address : (destroyStatement s).checker.sysCallTableAddress =
    if s.destroying.place = 5 then 0 else s.checker.sysCallTableAddress := by
  unfold destroyStatement
  split <;> simp [DestroyStatement.place, *]

@[simp] theorem tickStatement_destroying : (tickStatement s).2.destroying = s.destroying := by
  unfold tickStatement
  split <;> first | rfl | (split <;> rfl)

/-- A tick changes the timer and the handler. -/
theorem tickStatement_checker : ∃ pending handler,
    (tickStatement s).2.checker = { s.checker with timerPending := pending, incidentHandler := handler } := by
  unfold tickStatement
  split <;> first | exact ⟨_, _, rfl⟩ | (split <;> exact ⟨_, _, rfl⟩)

end Fields

/-- Undisturbed, the statements of a tick make up the tick. -/
theorem tick_alone (c : Checker Handler) (destroying : DestroyStatement) (pending : c.timerPending = true) :
    ∃ answers, run step (List.replicate 8 .tick) ⟨c, destroying, .waiting⟩ =
        .ok (answers, ⟨(sysCallTableIntegrityChecker c).2, destroying, .returned⟩) ∧
      answers.filterMap id = (sysCallTableIntegrityChecker c).1.toList := by
  have compared : (c.sysCallTableHash ≠ hashOf c.memory c.sysCallTableAddress c.sysCallTableSize) = c.Modified := rfl
  by_cases modified : c.Modified
  · by_cases armed : c.timerInterval = 0 <;> cases set : c.incidentHandler <;>
      simp [run, step, tickStatement, List.replicate, pending, compared, modified, armed, set,
        sysCallTableIntegrityChecker, registerTimerInterrupt]
  · by_cases armed : c.timerInterval = 0 <;>
      simp [run, step, tickStatement, List.replicate, pending, compared, modified, armed,
        sysCallTableIntegrityChecker, registerTimerInterrupt]

/-! ## The timer -/

/-- The timer is armed although it has been deleted. -/
def Rearms (s : State Handler) (op : Op) : Prop := op = .tick ∧ s.ticking = .modTimer ∧ s.Deleted

instance (s : State Handler) (op : Op) : Decidable (Rearms s op) := inferInstanceAs (Decidable (_ ∧ _ ∧ _))

variable {start s s' : State Handler} {answer : Option (Call Handler)} {op : Op}

theorem step_tick (ok : step s .tick = .ok (answer, s')) : answer = (tickStatement s).1 ∧ s' = (tickStatement s).2 := by
  rw [step, Except.ok.injEq] at ok
  rw [ok]
  exact ⟨rfl, rfl⟩

/-- Only the last statement of a tick arms the timer. -/
theorem tickStatement_pending (other : s.ticking ≠ .modTimer) (off : s.checker.timerPending = false) :
    (tickStatement s).2.checker.timerPending = false := by
  unfold tickStatement
  split <;> first | exact absurd ‹_› other | exact off | (split <;> first | exact off | rfl)

/-- Once deleted the timer is not pending. -/
def Off (s : State Handler) : Prop := s.Deleted → s.checker.timerPending = false

theorem step_off (off : Off s) (once : ¬ Rearms s op) (ok : step s op = .ok (answer, s')) : Off s' := by
  cases op with
  | destroy =>
    cases ok
    intro deleted
    rw [destroyStatement_pending]
    by_cases here : s.destroying.place = 1
    · simp [here]
    · rw [State.Deleted, destroyStatement_place] at deleted
      have before : s.Deleted := by
        rw [State.Deleted]
        omega
      rw [off before, Bool.and_false]
  | tick =>
    obtain ⟨-, rfl⟩ := step_tick ok
    intro deleted
    rw [State.Deleted, tickStatement_destroying] at deleted
    have other : s.ticking ≠ .modTimer := fun last => once ⟨rfl, last, deleted⟩
    exact tickStatement_pending other (off deleted)
  | write address stored =>
    cases ok
    exact off

/-- Armed once more, the timer stays pending. -/
structure Stuck (s : State Handler) : Prop where
  deleted : s.Deleted
  pending : s.checker.timerPending = true
  ticked : s.ticking = .returned

theorem step_stuck (stuck : Stuck s) (ok : step s op = .ok (answer, s')) : Stuck s' := by
  have deleted := stuck.deleted
  rw [State.Deleted] at deleted
  cases op with
  | destroy =>
    cases ok
    refine ⟨?_, ?_, ?_⟩
    · rw [State.Deleted, destroyStatement_place]
      omega
    · rw [destroyStatement_pending, stuck.pending, Bool.and_true, decide_eq_true_iff]
      omega
    · rw [destroyStatement_ticking, stuck.ticked]
  | tick =>
    obtain ⟨-, rfl⟩ := step_tick ok
    rw [tickStatement, stuck.ticked]
    exact stuck
  | write address stored =>
    cases ok
    exact ⟨stuck.deleted, stuck.pending, stuck.ticked⟩

/-- The timer is off at the end exactly if it was never armed after it had been deleted. -/
theorem off_iff (first : start.destroying = .unregisterNotifier) {ops : List Op} (reaches : Reaches step start ops s')
    (finished : s'.Finished) :
    s'.checker.timerPending = false ↔ Along step (fun s op => ¬ Rearms s op) ops start := by
  constructor
  · intro off
    apply along_of_front
    rintro pre op post s rfl - before ⟨rfl, last, deleted⟩
    obtain ⟨s₁, front, behind⟩ := reaches_append.1 reaches
    rw [front.unique before] at behind
    obtain ⟨answer, s₂, armed, rest⟩ := reaches_cons.1 behind
    have stuck : Stuck s₂ := by
      obtain ⟨-, rfl⟩ := step_tick armed
      rw [tickStatement, last]
      exact ⟨deleted, rfl, rfl⟩
    have ends := invariant_of_reaches Stuck (fun _ _ _ _ => step_stuck) stuck rest
    rw [ends.pending] at off
    contradiction
  · intro once
    have begins : Off start := by
      intro deleted
      simp [State.Deleted, first, DestroyStatement.place] at deleted
    have ends := invariant_of_along Off (fun _ _ _ _ => step_off) begins once reaches
    apply ends
    rw [State.Deleted, finished.1, DestroyStatement.place]
    decide

/-! ## The comparison -/

/-- No store changes the table. -/
def Untouched (start s : State Handler) (op : Op) : Prop :=
  ∀ address stored, op = .write address stored →
    bytesAt (store s.checker.memory address stored) start.checker.sysCallTableAddress start.checker.sysCallTableSize =
      bytesAt s.checker.memory start.checker.sysCallTableAddress start.checker.sysCallTableSize

/-- The table is never modified, neither before nor in the run. -/
def NeverModified (start : State Handler) (ops : List Op) : Prop :=
  ¬ start.checker.Modified ∧ Along step (Untouched start) ops start

/-- What the tick has read so far. -/
def Reads (start : State Handler) (place : Nat) : TickStatement → Prop
  | .readAddress hash => hash = start.checker.sysCallTableHash ∨ hash = 0
  | .readSize hash address =>
    (hash = start.checker.sysCallTableHash ∨ hash = 0) ∧ (address = start.checker.sysCallTableAddress ∨ 5 < place)
  | .compare hash address size =>
    (hash = start.checker.sysCallTableHash ∨ hash = 0) ∧
      (size = 0 ∨ address = start.checker.sysCallTableAddress ∧ size = start.checker.sysCallTableSize)
  | _ => True

/-- The tick is behind its call of the handler. -/
def TickStatement.Dispatched : TickStatement → Prop
  | .testInterval => True
  | .modTimer => True
  | .returned => True
  | _ => False

/-- The variables are those of the start until they are cleared, one after the other. -/
structure Tracks (start s : State Handler) : Prop where
  table : bytesAt s.checker.memory start.checker.sysCallTableAddress start.checker.sysCallTableSize =
    bytesAt start.checker.memory start.checker.sysCallTableAddress start.checker.sysCallTableSize
  hash : s.checker.sysCallTableHash = if s.destroying.place ≤ 3 then start.checker.sysCallTableHash else 0
  size : s.checker.sysCallTableSize = if s.destroying.place ≤ 4 then start.checker.sysCallTableSize else 0
  address : s.checker.sysCallTableAddress = if s.destroying.place ≤ 5 then start.checker.sysCallTableAddress else 0
  reads : Reads start s.destroying.place s.ticking
  handler : s.ticking.Dispatched ∨ s.checker.incidentHandler = start.checker.incidentHandler

theorem Tracks.refl (first : start.destroying = .unregisterNotifier) (waits : start.ticking = .waiting) :
    Tracks start start := by
  refine ⟨rfl, ?_, ?_, ?_, ?_, .inr rfl⟩
  · simp [first, DestroyStatement.place]
  · simp [first, DestroyStatement.place]
  · simp [first, DestroyStatement.place]
  · simp [waits, Reads]

/-- Clearing goes on while the tick keeps what it has read. -/
theorem Reads.later {place place' : Nat} {ticking : TickStatement} (reads : Reads start place ticking)
    (later : place ≤ place') : Reads start place' ticking := by
  cases ticking with
  | readSize hash address => exact ⟨reads.1, reads.2.imp_right fun cleared => cleared.trans_le later⟩
  | _ => exact reads

/-- A variable that is cleared at place `k`, one statement later. -/
theorem cleared {Word : Type} [Zero Word] (word : Word) {k : Nat} (inside : k < 7) (place : Nat) :
    (if place = k then 0 else if place ≤ k then word else 0) = if min 7 (place + 1) ≤ k then word else 0 := by
  by_cases here : place = k
  · rw [if_pos here, if_neg (by omega)]
  · rw [if_neg here]
    exact if_congr (by omega) rfl rfl

theorem Tracks.destroy (tracks : Tracks start s) : Tracks start (destroyStatement s) := by
  have last : s.destroying.place ≤ 7 := by cases s.destroying <;> decide
  refine ⟨?_, ?_, ?_, ?_, ?_, ?_⟩
  · rw [destroyStatement_memory, tracks.table]
  · rw [destroyStatement_hash, destroyStatement_place, tracks.hash]
    exact cleared _ (by decide) _
  · rw [destroyStatement_size, destroyStatement_place, tracks.size]
    exact cleared _ (by decide) _
  · rw [destroyStatement_address, destroyStatement_place, tracks.address]
    exact cleared _ (by decide) _
  · rw [destroyStatement_place, destroyStatement_ticking]
    exact tracks.reads.later (by omega)
  · rw [destroyStatement_ticking, destroyStatement_handler]
    exact tracks.handler

/-- What the next statement of the tick reads. -/
theorem Tracks.tick_reads (tracks : Tracks start s) : Reads start s.destroying.place (tickStatement s).2.ticking := by
  have hash := tracks.hash
  have size := tracks.size
  have address := tracks.address
  have reads := tracks.reads
  unfold tickStatement
  cases ticking : s.ticking with
  | waiting =>
    by_cases pending : s.checker.timerPending = true <;> simp [pending, Reads, ticking]
  | readHash =>
    rw [Reads, hash]
    exact ite_eq_or_eq _ _ _
  | readAddress read =>
    rw [ticking] at reads
    refine ⟨reads, ?_⟩
    rw [address]
    by_cases before : s.destroying.place ≤ 5
    · exact .inl (if_pos before)
    · exact .inr (by omega)
  | readSize read base =>
    rw [ticking] at reads
    refine ⟨reads.1, ?_⟩
    rw [size]
    by_cases before : s.destroying.place ≤ 4
    · rw [if_pos before]
      exact .inr ⟨reads.2.resolve_right (by omega), rfl⟩
    · rw [if_neg before]
      exact .inl rfl
  | compare read base length => trivial
  | dispatch modified => cases modified <;> trivial
  | testInterval =>
    by_cases zero : s.checker.timerInterval = 0 <;> simp [zero, Reads]
  | modTimer => trivial
  | returned => simp [Reads, ticking]

theorem Tracks.tick_handler (tracks : Tracks start s) : (tickStatement s).2.ticking.Dispatched ∨
    (tickStatement s).2.checker.incidentHandler = start.checker.incidentHandler := by
  have handler := tracks.handler
  unfold tickStatement
  cases ticking : s.ticking with
  | waiting =>
    rw [ticking] at handler
    have unset := handler.resolve_left not_false
    by_cases pending : s.checker.timerPending = true <;> simp [pending, unset]
  | dispatch modified => cases modified <;> exact .inl trivial
  | testInterval =>
    left
    by_cases zero : s.checker.timerInterval = 0 <;> simp [zero, TickStatement.Dispatched]
  | returned =>
    rw [ticking]
    exact .inl trivial
  | _ =>
    rw [ticking] at handler
    first | exact .inl trivial | exact .inr (handler.resolve_left not_false)

theorem Tracks.tick (tracks : Tracks start s) : Tracks start (tickStatement s).2 := by
  obtain ⟨pending, handler, same⟩ := tickStatement_checker s
  refine ⟨?_, ?_, ?_, ?_, ?_, tracks.tick_handler⟩
  · rw [same, tracks.table]
  · rw [same, tickStatement_destroying, tracks.hash]
  · rw [same, tickStatement_destroying, tracks.size]
  · rw [same, tickStatement_destroying, tracks.address]
  · rw [tickStatement_destroying]
    exact tracks.tick_reads

theorem step_tracks (tracks : Tracks start s) (untouched : Untouched start s op) (ok : step s op = .ok (answer, s')) :
    Tracks start s' := by
  cases op with
  | destroy =>
    cases ok
    exact tracks.destroy
  | tick =>
    obtain ⟨-, rfl⟩ := step_tick ok
    exact tracks.tick
  | write address stored =>
    cases ok
    refine ⟨?_, tracks.hash, tracks.size, tracks.address, tracks.reads, tracks.handler⟩
    rw [untouched address stored rfl, tracks.table]

@[simp] theorem hashOf_zero (memory : UInt64 → Byte) (address : UInt64) : hashOf memory address 0 = 0 := by
  unfold hashOf superFastHash
  split
  · rfl
  · rw [if_pos rfl]

/-- A tick finds a table modified that is not, if it has read only one of hash and size as cleared. -/
theorem Tracks.alarm_iff (tracks : Tracks start s) (same : ¬ start.checker.Modified) {hash size : UInt32} {address : UInt64}
    (ticking : s.ticking = .compare hash address size) :
    hash ≠ hashOf s.checker.memory address size ↔ start.checker.sysCallTableHash ≠ 0 ∧ (hash = 0 ↔ size ≠ 0) := by
  have reads := tracks.reads
  rw [ticking] at reads
  obtain ⟨known, clear | ⟨rfl, rfl⟩⟩ := reads
  · rw [clear, hashOf_zero]
    rcases known with rfl | rfl <;> simp
  · have baseline : hashOf s.checker.memory start.checker.sysCallTableAddress start.checker.sysCallTableSize =
        start.checker.sysCallTableHash := by
      rw [hashOf, tracks.table]
      exact (not_ne_iff.1 same).symm
    rw [baseline]
    by_cases empty : start.checker.sysCallTableSize = 0
    · rw [empty, hashOf_zero] at baseline
      rcases known with rfl | rfl <;> simp [← baseline]
    · rcases known with rfl | rfl <;> simp [empty, eq_comm]

/-! ## The call -/

/-- One of hash and size is read before it is cleared and the other after. -/
def Torn (s : State Handler) (op : Op) : Prop :=
  op = .tick ∧ ∃ hash address, s.ticking = .readSize hash address ∧ (hash = 0 ↔ s.checker.sysCallTableSize ≠ 0)

instance (s : State Handler) (op : Op) : Decidable (Torn s op) :=
  match reads : s.ticking with
  | .readSize hash _ => decidable_of_iff (op = .tick ∧ (hash = 0 ↔ s.checker.sysCallTableSize ≠ 0)) (by simp [Torn, reads])
  | .waiting => .isFalse (by simp [Torn, reads])
  | .readHash => .isFalse (by simp [Torn, reads])
  | .readAddress _ => .isFalse (by simp [Torn, reads])
  | .compare _ _ _ => .isFalse (by simp [Torn, reads])
  | .dispatch _ => .isFalse (by simp [Torn, reads])
  | .testInterval => .isFalse (by simp [Torn, reads])
  | .modTimer => .isFalse (by simp [Torn, reads])
  | .returned => .isFalse (by simp [Torn, reads])

/-- The tick has not found a difference. -/
def Quiet (start s : State Handler) : Prop :=
  match s.ticking with
  | .compare hash _ size => ¬ (start.checker.sysCallTableHash ≠ 0 ∧ (hash = 0 ↔ size ≠ 0))
  | .dispatch modified => modified = false
  | _ => True

/-- The tick is about to call the handler. -/
def Doomed (s : State Handler) : Prop :=
  s.checker.incidentHandler ≠ none ∧
    match s.ticking with
    | .compare hash _ size => hash = 0 ↔ size ≠ 0
    | .dispatch modified => modified = true
    | _ => False

theorem step_quiet (same : ¬ start.checker.Modified) (tracks : Tracks start s) (quiet : Quiet start s)
    (whole : start.checker.sysCallTableHash ≠ 0 → ¬ Torn s op) (ok : step s op = .ok (answer, s')) :
    Quiet start s' ∧ answer = none := by
  cases op with
  | destroy =>
    cases ok
    rw [Quiet, destroyStatement_ticking]
    exact ⟨quiet, rfl⟩
  | write address stored =>
    cases ok
    exact ⟨quiet, rfl⟩
  | tick =>
    obtain ⟨rfl, rfl⟩ := step_tick ok
    rw [Quiet] at quiet
    unfold tickStatement
    cases ticking : s.ticking with
    | waiting =>
      by_cases pending : s.checker.timerPending = true <;> simp [pending, Quiet, ticking]
    | readHash => exact ⟨trivial, rfl⟩
    | readAddress hash => exact ⟨trivial, rfl⟩
    | readSize hash address =>
      refine ⟨?_, rfl⟩
      rintro ⟨some_hash, torn⟩
      exact whole some_hash ⟨rfl, hash, address, ticking, torn⟩
    | compare hash address size =>
      rw [ticking] at quiet
      refine ⟨decide_eq_false ?_, rfl⟩
      rw [tracks.alarm_iff same ticking]
      exact quiet
    | dispatch modified =>
      rw [ticking] at quiet
      obtain rfl : modified = false := quiet
      exact ⟨trivial, rfl⟩
    | testInterval =>
      by_cases zero : s.checker.timerInterval = 0 <;> simp [zero, Quiet]
    | modTimer => exact ⟨trivial, rfl⟩
    | returned => simp [Quiet, ticking]

theorem step_doomed (same : ¬ start.checker.Modified) (some_hash : start.checker.sysCallTableHash ≠ 0)
    (tracks : Tracks start s) (doomed : Doomed s) (ok : step s op = .ok (answer, s')) : Doomed s' ∨ answer ≠ none := by
  cases op with
  | destroy =>
    cases ok
    rw [Doomed, destroyStatement_ticking, destroyStatement_handler]
    exact .inl doomed
  | write address stored =>
    cases ok
    exact .inl doomed
  | tick =>
    obtain ⟨rfl, rfl⟩ := step_tick ok
    obtain ⟨set, next⟩ := doomed
    unfold tickStatement
    cases ticking : s.ticking with
    | compare hash address size =>
      rw [ticking] at next
      exact .inl ⟨set, decide_eq_true ((tracks.alarm_iff same ticking).2 ⟨some_hash, next⟩)⟩
    | dispatch modified =>
      rw [ticking] at next
      obtain rfl : modified = true := next
      right
      intro silent
      exact set (Option.map_eq_none_iff.1 silent)
    | _ => simp [ticking] at next

/-- Without a handler there is no call. -/
theorem step_unset (unset : s.checker.incidentHandler = none) (ok : step s op = .ok (answer, s')) :
    s'.checker.incidentHandler = none ∧ answer = none := by
  cases op with
  | destroy =>
    cases ok
    exact ⟨(destroyStatement_handler s).trans unset, rfl⟩
  | write address stored =>
    cases ok
    exact ⟨unset, rfl⟩
  | tick =>
    obtain ⟨rfl, rfl⟩ := step_tick ok
    unfold tickStatement
    split <;> first | exact ⟨unset, rfl⟩ | (split <;> simp [unset])

/-- The tick of a table that was never modified calls no handler exactly if it does not read in the midst of the
clearing. -/
theorem no_call_iff (first : start.destroying = .unregisterNotifier) (waits : start.ticking = .waiting) {ops : List Op}
    {answers : List (Option (Call Handler))} (ran : run step ops start = .ok (answers, s')) (finished : s'.Finished)
    (never : NeverModified start ops) :
    (∀ answer ∈ answers, answer = none) ↔
      (start.checker.incidentHandler ≠ none → start.checker.sysCallTableHash ≠ 0 →
        Along step (fun s op => ¬ Torn s op) ops start) := by
  obtain ⟨same, untouched⟩ := never
  have tracks := Tracks.refl first waits
  constructor
  · intro silent set some_hash
    apply along_of_front
    rintro pre op post s rfl - before ⟨rfl, hash, address, ticking, torn⟩
    obtain ⟨all, s₁, all', front, behind, rfl⟩ := run_append.1 ran
    obtain rfl := Reaches.unique ⟨_, front⟩ before
    obtain ⟨answer, s₂, rest, next, rest_ran, rfl⟩ := run_cons.1 behind
    have untouched := along_append.1 untouched
    have here := invariant_of_along (Tracks start) (fun _ _ _ _ => step_tracks) tracks untouched.1 before
    have behind := untouched.2 _ before
    have there := step_tracks here behind.1 next
    obtain ⟨-, rfl⟩ := step_tick next
    have handler : s₁.checker.incidentHandler ≠ none := by
      have kept := here.handler
      rw [ticking] at kept
      rw [kept.resolve_left not_false]
      exact set
    have doomed : Doomed (tickStatement s₁).2 := by
      rw [tickStatement, ticking]
      exact ⟨handler, torn⟩
    have safe : ¬ (Tracks start s' ∧ Doomed s') := by
      rintro ⟨-, -, next⟩
      rcases finished.2 with waits | returned
      · simp [waits] at next
      · simp [returned] at next
    obtain ⟨called, member, call⟩ := answer_of_leaving (fun s => Tracks start s ∧ Doomed s) (fun answer => answer ≠ none)
      (fun s op answer s' inv untouched ok => (step_doomed same some_hash inv.1 inv.2 ok).imp_left
        fun doomed => ⟨step_tracks inv.1 untouched ok, doomed⟩) ⟨there, doomed⟩ (behind.2 _ _ next) rest_ran safe
    apply call
    exact silent called (List.mem_append_right _ (List.mem_cons_of_mem _ member))
  · intro whole
    by_cases unset : start.checker.incidentHandler = none
    · exact answers_of_along (fun s => s.checker.incidentHandler = none) (· = none)
        (fun s op answer s' unset _ ok => step_unset unset ok) unset (Along.of_forall (fun _ _ => trivial) ops start) ran
    · have whole' : Along step (fun s op => start.checker.sysCallTableHash ≠ 0 → ¬ Torn s op) ops start := by
        by_cases some_hash : start.checker.sysCallTableHash = 0
        · exact Along.of_forall (fun _ _ nonzero => absurd some_hash nonzero) ops start
        · exact (whole unset some_hash).mono fun _ _ whole _ => whole
      have quiet : Quiet start start := by simp [Quiet, waits]
      exact answers_of_along (fun s => Tracks start s ∧ Quiet start s) (· = none)
        (fun s op answer s' inv cond ok =>
          have next := step_quiet same inv.1 inv.2 cond.2 ok
          ⟨⟨step_tracks inv.1 cond.1 ok, next.1⟩, next.2⟩)
        ⟨tracks, quiet⟩ (along_and.2 ⟨untouched, whole'⟩) ran

/-- Nothing is left of the checker at the end of the run, and no handler was called for a table that was not modified. -/
def Clean (start : State Handler) (ops : List Op) (answers : List (Option (Call Handler))) (s' : State Handler) : Prop :=
  s'.checker.timerPending = false ∧ (NeverModified start ops → ∀ answer ∈ answers, answer = none)

/-- **When the teardown is clean**: the timer is not armed after it was deleted, and where there is a handler and a hash
other than 0, the tick reads hash and size on the same side of their clearing. -/
theorem teardown_clean_iff (first : start.destroying = .unregisterNotifier) (waits : start.ticking = .waiting)
    {ops : List Op} {answers : List (Option (Call Handler))} (ran : run step ops start = .ok (answers, s'))
    (finished : s'.Finished) :
    Clean start ops answers s' ↔
      Along step (fun s op => ¬ Rearms s op) ops start ∧
        (NeverModified start ops → start.checker.incidentHandler ≠ none → start.checker.sysCallTableHash ≠ 0 →
          Along step (fun s op => ¬ Torn s op) ops start) := by
  rw [Clean, off_iff first ⟨answers, ran⟩ finished]
  apply and_congr_right
  intro _
  constructor
  · intro silent never
    exact (no_call_iff first waits ran finished never).1 (silent never)
  · intro whole never
    exact (no_call_iff first waits ran finished never).2 (whole never)

/-! ### Two interleavings -/

/-- A checker with a table of one word, just before it is torn down. -/
def monitored : State Unit where
  checker := { (firstLoad fun _ => 1 : Checker Unit) with
    timerInterval := 1000
    timerPending := true
    notifierRegistered := true
    sysCallTableAddress := 4096
    sysCallTableSize := 4
    sysCallTableHash := superFastHash (some [1, 1, 1, 1]) 4
    incidentHandler := some () }
  destroying := .unregisterNotifier
  ticking := .waiting

/-- The timer has expired when the teardown runs, and the tick reads what that leaves. -/
def readBehind : List Op := .tick :: (List.replicate 7 .destroy ++ List.replicate 6 .tick)

/-- It has finished, and nothing is set any more but the handler. -/
def clearedState : State Unit where
  checker := { monitored.checker with
    timerInterval := 0
    timerPending := false
    notifierRegistered := false
    checkingModule := monitored.checker.checkingModule.set 0 0
    sysCallTableAddress := 0
    sysCallTableSize := 0
    sysCallTableHash := 0 }
  destroying := .returned
  ticking := .returned

theorem readBehind_runs : run step readBehind monitored = .ok (List.replicate 14 none, clearedState) := rfl

theorem teardown_clean_read_behind : Clean monitored readBehind (List.replicate 14 none) clearedState :=
  (teardown_clean_iff rfl rfl readBehind_runs ⟨rfl, .inr rfl⟩).2 ⟨by decide +kernel, fun _ _ _ => by decide +kernel⟩

/-- The tick tests the interval, the whole teardown runs, and the tick arms the timer. -/
theorem teardown_clean_fails : ¬ ∀ (ops : List Op) (answers : List (Option (Call Unit))) (s' : State Unit),
    run step ops monitored = .ok (answers, s') → s'.Finished → Clean monitored ops answers s' := by
  intro clean
  have off := (clean (List.replicate 7 .tick ++ List.replicate 7 .destroy ++ [.tick]) _ _ rfl ⟨rfl, .inr rfl⟩).1
  cases off

/-- The tick reads the hash, the whole teardown runs, and the tick finds the table modified that never was. -/
theorem teardown_false_alarm : ∃ answers s',
    run step ([.tick, .tick] ++ List.replicate 7 .destroy ++ List.replicate 5 .tick) monitored = .ok (answers, s') ∧
      NeverModified monitored ([.tick, .tick] ++ List.replicate 7 .destroy ++ List.replicate 5 .tick) ∧
      some ((), afterIncident) ∈ answers := by
  refine ⟨_, _, rfl, ⟨by decide +kernel, ?_⟩, ?_⟩
  · simp [List.replicate, Along, Untouched]
  · decide +kernel

end Carbonite.Teardown
