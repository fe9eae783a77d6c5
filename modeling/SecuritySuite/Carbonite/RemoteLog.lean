import Mathlib.Data.List.Nodup
import SecuritySuite.Carbonite.Logger
import SecuritySuite.Foundation.Runs

/-!
# Messages between `print_log` and the socket

The logger as a machine: initializations, calls of `print_log`, workers and `destroy_logger`, in any order. A
work that has been queued is pending until a worker sends its message and frees it. It is lost when
`destroy_logger` finds it pending, because the socket is released first.
-/

namespace Carbonite
set_option autoImplicit false
open CString Runs

inductive LoggerOp where
  | initLogger (ip : Option (List Byte)) (socket workqueue : Bool)
  | printLog (around : LogSurroundings) (message : Option Message)
  /-- A worker takes the pending work at a place. -/
  | ksocketSend (place : Nat)
  | destroyLogger

/-- The objects of a work. -/
def RemoteLogWork.objects (work : RemoteLogWork) : List Nat := [work.object, work.buffer]

namespace Logger

def step (s : Logger) : LoggerOp → Except LoggerFault (Int × Logger)
  | .initLogger ip socket workqueue => .ok (s.initLogger ip socket workqueue)
  | .printLog around message => s.printLog around message
  | .ksocketSend place =>
    match s.pending[place]? with
    | none => .error .outOfTurn
    | some entry =>
      match ksocketSend { s with pending := s.pending.eraseIdx place } entry.2 with
      | .error fault => .error fault
      | .ok s' => .ok (0, s')
  | .destroyLogger =>
    match s.destroyLogger with
    | .error fault => .error fault
    | .ok s' => .ok (0, s')

/-- Every work that was queued was sent once, with its message, and both of its objects were freed once. -/
structure Settled (s : Logger) : Prop where
  sent : ∀ work ∈ s.queued, (s.sent.map SentMessage.work).count work = 1
  payload : ∀ message ∈ s.sent, message.payload = text message.work.bytes
  freed : ∀ work ∈ s.queued, ∀ object ∈ work.objects, s.heap.freed.count object = 1

/-- The run makes no call of `queue_work` without a work queue, and everything is settled whenever
`destroy_logger` returns. -/
structure Delivers (ops : List LoggerOp) : Prop where
  queue : run step ops loaded ≠ .error .queueWork
  settled : ∀ pre post s, ops = pre ++ .destroyLogger :: post → Reaches step loaded (pre ++ [.destroyLogger]) s → s.Settled

/-- A message that gets as far as `queue_work` finds no work queue, or `destroy_logger` finds works pending. -/
def Loses (s : Logger) : LoggerOp → Prop
  | .printLog around message =>
    s.logRemote = true ∧ s.sock = true ∧ s.remoteLogWorkQueue = none ∧ around.kmallocWork = true ∧
      around.kmallocBuffer = true ∧ ∃ sent, message = some sent ∧ (assemble around sent.remote).isSome = true
  | .destroyLogger => s.pending ≠ []
  | _ => False

/-- Queued works are sent or pending, and what is live belongs to the pending ones. -/
structure Tracked (s : Logger) : Prop where
  accounted : s.queued.Perm (s.sent.map SentMessage.work ++ s.pending.map Prod.snd)
  payload : ∀ message ∈ s.sent, message.payload = text message.work.bytes
  fits : ∀ work ∈ s.queued, (text work.bytes).length ≤ bufferSize
  live : s.heap.live.Perm ((s.pending.map Prod.snd).flatMap RemoteLogWork.objects)
  allocated : ∀ work ∈ s.queued, ∀ object ∈ work.objects, object < s.heap.next
  distinct : (s.queued.flatMap RemoteLogWork.objects).Nodup
  held : ∀ entry ∈ s.pending, s.sock = true ∧ s.remoteLogWorkQueue = some entry.1
  created : s.sock = true → ∀ queue, s.remoteLogWorkQueue = some queue → queue ∈ s.queues.live

end Logger

/-! ## The message -/

theorem Assembly.append_spec {a a' : Assembly} {size : Int} {formatted : List Byte}
    (fits : a.append size formatted = some a') :
    (formatted.length : Int) < size ∧ a'.length = a.length + formatted.length ∧
      a'.remaining = a.remaining - (a.length + formatted.length) := by
  simp only [append, Buffer.kernelSnprintfAt] at fits
  by_cases negative : size < 0
  · simp only [if_pos negative] at fits
    rw [if_pos (by omega)] at fits
    cases fits
  · simp only [if_neg negative] at fits
    split at fits
    · cases fits
    · rename_i room
      cases fits
      exact ⟨by omega, by simp, by simp⟩

/-- A message that is queued fits the buffer. -/
theorem assemble_length {around : LogSurroundings} {message : List Byte} {a : Assembly}
    (assembled : assemble around message = some a) : a.length < bufferSize := by
  simp only [assemble, Option.bind_eq_bind, Option.bind_eq_some_iff] at assembled
  obtain ⟨timed, first, named, second, tagged, third, fourth⟩ := assembled
  obtain ⟨-, length₁, room₁⟩ := Assembly.append_spec first
  obtain ⟨-, length₂, room₂⟩ := Assembly.append_spec second
  obtain ⟨-, length₃, room₃⟩ := Assembly.append_spec third
  obtain ⟨fits, length₄, -⟩ := Assembly.append_spec fourth
  simp only [bufferSize] at *
  omega

theorem copied_length {a : Assembly} (short : a.length < bufferSize) : (text a.copied).length ≤ bufferSize := by
  rw [Assembly.copied, text_strncpy]
  have := List.length_take_le (a.length + 1) (text (a.buffer.store a.length [0]).bytes)
  omega

namespace Logger

/-! ## One spec for each function -/

theorem kfree_spec {s : Logger} {object : Nat} {rest : List Nat} (live : s.heap.live.Perm (object :: rest)) :
    ∃ heap, s.kfree object = .ok { s with heap := heap } ∧ heap.live.Perm rest ∧ heap.next = s.heap.next := by
  obtain ⟨heap, freed, erased, next⟩ := Ledger.free_live (live.mem_iff.2 List.mem_cons_self)
  refine ⟨heap, by rw [kfree, freed], ?_, next⟩
  rw [erased]
  simpa using live.erase object

theorem ksocketSend_spec {s : Logger} (work : RemoteLogWork) {rest : List Nat} (open_ : s.sock = true)
    (live : s.heap.live.Perm (work.objects ++ rest)) :
    ∃ heap, s.ksocketSend work =
        .ok { s with sent := s.sent ++ [⟨work, (text work.bytes).take bufferSize⟩], heap := heap } ∧
      heap.live.Perm rest ∧ heap.next = s.heap.next := by
  have swapped : s.heap.live.Perm (work.buffer :: work.object :: rest) := live.trans (List.Perm.swap ..)
  obtain ⟨heap₁, first, live₁, next₁⟩ :=
    kfree_spec (s := { s with sent := s.sent ++ [⟨work, (text work.bytes).take bufferSize⟩] }) swapped
  obtain ⟨heap₂, second, live₂, next₂⟩ :=
    kfree_spec (s := { s with sent := s.sent ++ [⟨work, (text work.bytes).take bufferSize⟩], heap := heap₁ }) live₁
  refine ⟨heap₂, ?_, live₂, next₂.trans next₁⟩
  rw [ksocketSend, if_pos open_]
  simp only [first, second]

/-- A worker does nothing without a socket. -/
theorem ksocketSend_released {s : Logger} (closed : s.sock = false) (work : RemoteLogWork) : s.ksocketSend work = .ok s := by
  rw [ksocketSend, if_neg (by simp [closed])]

theorem sendAll_released {s : Logger} (closed : s.sock = false) (works : List RemoteLogWork) : sendAll works s = .ok s := by
  induction works with
  | nil => rfl
  | cons work works ih => simp only [sendAll, ksocketSend_released closed, ih]

theorem destroyLogger_spec {s : Logger} (t : Tracked s) :
    s.sock = false ∧ s.destroyLogger = .error .destroyWorkqueue ∨
      ∃ queues, s.destroyLogger = .ok { s with sock := false, queues := queues, pending := [] } := by
  rw [destroyLogger]
  cases pointer : s.remoteLogWorkQueue with
  | none =>
    have idle : s.pending = [] := by
      apply List.eq_nil_iff_forall_not_mem.2
      intro entry member
      rw [(t.held entry member).2] at pointer
      cases pointer
    exact .inr ⟨s.queues, by rw [← idle]⟩
  | some queue =>
    have others : (s.pending.filter fun entry => entry.1 ≠ queue) = [] := by
      rw [List.filter_eq_nil_iff]
      intro entry member
      have same := (t.held entry member).2
      rw [pointer, Option.some.injEq] at same
      simp [same]
    simp only [destroyWorkqueue, others]
    rw [sendAll_released rfl]
    by_cases live : queue ∈ s.queues.live
    · obtain ⟨queues, freed, -⟩ := Ledger.free_live live
      simp only [freed]
      exact .inr ⟨queues, rfl⟩
    · simp only [Ledger.free_error live]
      exact .inl ⟨Bool.eq_false_iff.2 fun open_ => live (t.created open_ queue pointer), trivial⟩

/-! ## What steps keep -/

theorem loaded_tracked : Tracked loaded where
  accounted := .refl _
  payload := by simp [loaded]
  fits := by simp [loaded]
  live := .refl _
  allocated := by simp [loaded]
  distinct := by simp [loaded]
  held := by simp [loaded]
  created := by simp [loaded]

theorem Tracked.pending_nil {s : Logger} (t : Tracked s) (closed : s.sock = false) : s.pending = [] := by
  apply List.eq_nil_iff_forall_not_mem.2
  intro entry member
  rw [(t.held entry member).1] at closed
  cases closed

/-- Objects that come and go leave the works alone. -/
theorem Tracked.heap {s : Logger} {heap : Ledger} (t : Tracked s) (live : heap.live.Perm s.heap.live)
    (next : s.heap.next ≤ heap.next) : Tracked { s with heap := heap } where
  accounted := t.accounted
  payload := t.payload
  fits := t.fits
  live := live.trans t.live
  allocated := fun work member object inside => Nat.lt_of_lt_of_le (t.allocated work member object inside) next
  distinct := t.distinct
  held := t.held
  created := t.created

theorem initLogger_tracked {s : Logger} (t : Tracked s) (ip : Option (List Byte)) (socket workqueue : Bool) :
    Tracked (s.initLogger ip socket workqueue).2 := by
  unfold initLogger
  by_cases open_ : s.sock = true
  · rw [if_pos open_]
    exact t
  rw [if_neg open_]
  have idle := t.pending_nil (Bool.eq_false_iff.2 open_)
  cases ip with
  | none => exact t
  | some ip =>
    cases socket with
    | false => exact { t with held := by simp [idle], created := by simp }
    | true =>
      cases workqueue with
      | false => exact { t with held := by simp [idle], created := by simp }
      | true =>
        refine { t with held := by simp [idle], created := ?_ }
        rintro - queue same
        cases same
        exact List.mem_append_right _ List.mem_cons_self

/-- A work that is queued. -/
theorem Tracked.queue {s : Logger} {queue : Nat} {bytes : List Byte} (t : Tracked s) (open_ : s.sock = true)
    (pointer : s.remoteLogWorkQueue = some queue) (fits : (text bytes).length ≤ bufferSize) :
    Tracked { s with
      heap := s.heap.alloc.2.alloc.2
      pending := s.pending ++ [(queue, ⟨s.heap.next, s.heap.next + 1, bytes⟩)]
      queued := s.queued ++ [⟨s.heap.next, s.heap.next + 1, bytes⟩] } where
  accounted := by
    simp only [List.map_append, List.map_cons, List.map_nil]
    rw [← List.append_assoc]
    exact t.accounted.append_right _
  payload := t.payload
  fits := by
    intro work member
    rcases List.mem_append.1 member with old | new
    · exact t.fits work old
    · rw [List.mem_singleton.1 new]
      exact fits
  live := by
    simp only [Ledger.alloc_live, Ledger.alloc_next, List.map_append, List.flatMap_append, List.append_assoc]
    exact t.live.append_right _
  allocated := by
    intro work member object inside
    simp only [Ledger.alloc_next]
    rcases List.mem_append.1 member with old | new
    · have := t.allocated work old object inside
      omega
    · rw [List.mem_singleton.1 new] at inside
      simp only [RemoteLogWork.objects, List.mem_cons, List.not_mem_nil, or_false] at inside
      omega
  distinct := by
    rw [List.flatMap_append, List.nodup_append]
    refine ⟨t.distinct, by simp [RemoteLogWork.objects], ?_⟩
    intro object old object' new same
    obtain ⟨work, member, inside⟩ := List.mem_flatMap.1 old
    have := t.allocated work member object inside
    simp only [List.flatMap_cons, List.flatMap_nil, RemoteLogWork.objects, List.append_nil, List.mem_cons,
      List.not_mem_nil, or_false] at new
    omega
  held := by
    intro entry member
    rcases List.mem_append.1 member with old | new
    · exact t.held entry old
    · rw [List.mem_singleton.1 new]
      exact ⟨open_, pointer⟩
  created := t.created

theorem remoteUdpLog_tracked {s : Logger} (around : LogSurroundings) (message : List Byte) (t : Tracked s)
    (calm : ¬ (s.sock = true ∧ s.remoteLogWorkQueue = none ∧ around.kmallocWork = true ∧ around.kmallocBuffer = true ∧
      (assemble around message).isSome = true)) :
    ∃ length s', s.remoteUdpLog around message = .ok (length, s') ∧ Tracked s' := by
  rw [remoteUdpLog]
  by_cases open_ : s.sock = true
  case neg => exact ⟨-1, s, by rw [if_pos (by simpa using open_)], t⟩
  rw [if_neg (by simpa using open_)]
  cases assembled : assemble around message with
  | none => exact ⟨0, s, rfl, t⟩
  | some a =>
    by_cases first : around.kmallocWork = true
    case neg => exact ⟨0, s, by simp only [if_pos (show (!around.kmallocWork) = true by simpa using first)], t⟩
    simp only [if_neg (show ¬ (!around.kmallocWork) = true by simpa using first)]
    by_cases second : around.kmallocBuffer = true
    · rw [if_neg (by simpa using second)]
      cases pointer : s.remoteLogWorkQueue with
      | none => exact absurd ⟨open_, pointer, first, second, by rw [assembled]; rfl⟩ calm
      | some queue =>
        have live := t.created open_ queue pointer
        simp only [queueWork, if_pos live]
        refine ⟨_, _, rfl, ?_⟩
        have queued := t.queue open_ pointer (copied_length (assemble_length assembled))
        rw [← pointer]
        exact queued
    · -- The object of the work goes back.
      have fresh : (s.heap.alloc.2.live).Perm (s.heap.next :: s.heap.live) := by
        rw [Ledger.alloc_live]
        exact List.perm_append_singleton _ _
      obtain ⟨heap, freed, live, next⟩ := kfree_spec (s := { s with heap := s.heap.alloc.2 }) fresh
      rw [if_pos (by simpa using second)]
      refine ⟨0, { s with heap := heap }, ?_, t.heap live (by rw [next, Ledger.alloc_next]; omega)⟩
      rw [show s.heap.alloc.1 = s.heap.next from rfl, freed]

theorem printLog_tracked {s : Logger} {around : LogSurroundings} {message : Option Message} (t : Tracked s)
    (calm : ¬ s.Loses (.printLog around message)) :
    ∃ answer s', s.printLog around message = .ok (answer, s') ∧ Tracked s' := by
  cases message with
  | none => exact ⟨-1, s, rfl, t⟩
  | some message =>
    rw [printLog]
    by_cases remote : s.logRemote = true
    case neg => exact ⟨around.vprintk message.printed, s, by rw [if_neg remote], t⟩
    obtain ⟨length, s', logged, tracked⟩ := remoteUdpLog_tracked around message.remote t fun lost =>
      calm ⟨remote, lost.1, lost.2.1, lost.2.2.1, lost.2.2.2.1, message, rfl, lost.2.2.2.2⟩
    exact ⟨around.vprintk message.printed, s', by rw [if_pos remote, logged], tracked⟩

/-- A worker sends its message and frees its objects. -/
theorem ksocketSend_tracked {s : Logger} {place : Nat} {entry : Nat × RemoteLogWork} (t : Tracked s)
    (takes : s.pending[place]? = some entry) :
    ∃ s', ksocketSend { s with pending := s.pending.eraseIdx place } entry.2 = .ok s' ∧ Tracked s' := by
  obtain ⟨inside, here⟩ := List.getElem?_eq_some_iff.1 takes
  have taken : s.pending.Perm (entry :: s.pending.eraseIdx place) := by
    rw [← here]
    exact (List.getElem_cons_eraseIdx_perm inside).symm
  have works : (s.pending.map Prod.snd).Perm (entry.2 :: (s.pending.eraseIdx place).map Prod.snd) := taken.map Prod.snd
  have member : entry ∈ s.pending := taken.mem_iff.2 List.mem_cons_self
  obtain ⟨heap, sent, live, next⟩ := ksocketSend_spec (s := { s with pending := s.pending.eraseIdx place })
    entry.2 (t.held entry member).1 (t.live.trans (works.flatMap_right RemoteLogWork.objects))
  have queued : entry.2 ∈ s.queued :=
    t.accounted.mem_iff.2 (List.mem_append_right _ (works.mem_iff.2 List.mem_cons_self))
  have whole : (text entry.2.bytes).take bufferSize = text entry.2.bytes := List.take_of_length_le (t.fits _ queued)
  rw [whole] at sent
  refine ⟨_, sent, { t with accounted := ?_, payload := ?_, live := live, allocated := ?_, held := ?_ }⟩
  · rw [List.map_append, List.append_assoc]
    exact t.accounted.trans (works.append_left _)
  · intro message inside
    rcases List.mem_append.1 inside with old | new
    · exact t.payload message old
    · rw [List.mem_singleton.1 new]
  · intro work inside object among
    exact Nat.lt_of_lt_of_eq (t.allocated work inside object among) next.symm
  · intro other later
    exact t.held other (taken.mem_iff.2 (List.mem_cons_of_mem _ later))

theorem destroyLogger_tracked {s s' : Logger} (t : Tracked s) (idle : s.pending = [])
    (destroyed : s.destroyLogger = .ok s') : Tracked s' := by
  rcases destroyLogger_spec t with ⟨-, faults⟩ | ⟨queues, ok⟩
  · rw [faults] at destroyed
    cases destroyed
  · rw [ok] at destroyed
    cases destroyed
    rw [← idle]
    exact { t with held := by simp [idle], created := by simp }

/-- A step that loses nothing keeps the accounts, or it does not happen: it is out of turn, or `destroy_logger` is
called again. -/
theorem step_calm {s : Logger} {op : LoggerOp} (t : Tracked s) (calm : ¬ s.Loses op) :
    (∃ answer s', step s op = .ok (answer, s') ∧ Tracked s') ∨
      step s op = .error .outOfTurn ∨ step s op = .error .destroyWorkqueue := by
  cases op with
  | initLogger ip socket workqueue => exact .inl ⟨_, _, rfl, initLogger_tracked t ip socket workqueue⟩
  | printLog around message => exact .inl (printLog_tracked t calm)
  | ksocketSend place =>
    rw [step]
    cases takes : s.pending[place]? with
    | none => exact .inr (.inl rfl)
    | some entry =>
      obtain ⟨s', sent, tracked⟩ := ksocketSend_tracked t takes
      exact .inl ⟨0, s', by simp only [sent], tracked⟩
  | destroyLogger =>
    rcases destroyLogger_spec t with ⟨-, faults⟩ | ⟨queues, ok⟩
    · exact .inr (.inr (by simp only [step, faults]))
    · have tracked := destroyLogger_tracked t (Classical.not_not.1 calm) ok
      exact .inl ⟨0, _, by simp only [step, ok], tracked⟩

theorem step_tracked {s s' : Logger} {op : LoggerOp} {answer : Int} (t : Tracked s) (calm : ¬ s.Loses op)
    (next : step s op = .ok (answer, s')) : Tracked s' := by
  rcases step_calm t calm with ⟨answer', s'', ok, tracked⟩ | out | again
  · rw [ok] at next
    cases next
    exact tracked
  · rw [out] at next
    cases next
  · rw [again] at next
    cases next

/-! ## What is lost -/

theorem printLog_loses {s : Logger} {around : LogSurroundings} {message : Option Message}
    (loses : s.Loses (.printLog around message)) : step s (.printLog around message) = .error .queueWork := by
  obtain ⟨remote, open_, pointer, first, second, message, rfl, fits⟩ := loses
  obtain ⟨a, assembled⟩ := Option.isSome_iff_exists.1 fits
  simp only [step, printLog, remoteUdpLog, remote, open_, assembled, first, second, queueWork, pointer]
  rfl

/-- Works are distinct, because their objects are. -/
theorem Tracked.nodup {s : Logger} (t : Tracked s) : s.queued.Nodup := by
  apply (List.nodup_flatMap.1 t.distinct).2.imp
  intro work work' apart same
  have shared : work.object ∈ work'.objects := same ▸ List.mem_cons_self
  exact apart List.mem_cons_self shared

theorem Tracked.settled {s : Logger} (t : Tracked s) (idle : s.pending = []) : Settled s := by
  have accounted : s.queued.Perm (s.sent.map SentMessage.work) := by
    simpa [idle] using t.accounted
  have nothing : s.heap.live = [] := by
    have live := t.live
    rw [idle] at live
    exact live.eq_nil
  have all := s.heap.accounted
  have once := s.heap.nodup
  rw [nothing, List.nil_append] at all once
  refine ⟨?_, t.payload, ?_⟩
  · intro work member
    rw [← accounted.count_eq]
    exact List.count_eq_one_of_mem t.nodup member
  · intro work member object among
    exact List.count_eq_one_of_mem once (all.mem_iff.2 (List.mem_range.2 (t.allocated work member object among)))

/-- A work that `destroy_logger` finds pending is not sent. -/
theorem destroyLogger_loses {s : Logger} (t : Tracked s) (loses : s.Loses .destroyLogger) :
    ∃ s', step s .destroyLogger = .ok (0, s') ∧ ¬ Settled s' := by
  obtain ⟨entry, member⟩ := List.exists_mem_of_ne_nil _ loses
  rcases destroyLogger_spec t with ⟨closed, -⟩ | ⟨queues, ok⟩
  · rw [(t.held entry member).1] at closed
    cases closed
  · have next : step s .destroyLogger = .ok (0, { s with sock := false, queues := queues, pending := [] }) := by
      simp only [step, ok]
    refine ⟨_, next, fun settled => ?_⟩
    have waits : entry.2 ∈ s.pending.map Prod.snd := List.mem_map_of_mem member
    have queued := t.accounted.mem_iff.2 (List.mem_append_right (s.sent.map SentMessage.work) waits)
    have sent : entry.2 ∈ s.sent.map SentMessage.work := by
      have once := settled.sent entry.2 queued
      exact List.count_pos_iff.1 (Nat.lt_of_lt_of_eq Nat.one_pos once.symm)
    exact List.disjoint_of_nodup_append (t.accounted.nodup_iff.1 t.nodup) sent waits

/-! ## Runs -/

theorem tracked_of_calm {ops : List LoggerOp} {s : Logger} (calm : Along step (fun s op => ¬ s.Loses op) ops loaded)
    (reaches : Reaches step loaded ops s) : Tracked s :=
  invariant_of_along Tracked (fun _ _ _ _ t here next => step_tracked t here next) loaded_tracked calm reaches

/-- **Which runs deliver their messages**: exactly those in which no message gets to `queue_work` while the socket
is there and the work queue is not, and `destroy_logger` never finds works pending. -/
theorem delivers_iff (ops : List LoggerOp) : Delivers ops ↔ Along step (fun s op => ¬ s.Loses op) ops loaded := by
  constructor
  · intro delivers
    apply along_of_front
    intro pre op post s split calm reaches loses
    cases op with
    | printLog around message =>
      apply delivers.queue
      rw [split]
      exact run_fault reaches (printLog_loses loses)
    | destroyLogger =>
      obtain ⟨s', next, unsettled⟩ := destroyLogger_loses (tracked_of_calm calm reaches) loses
      apply unsettled
      apply delivers.settled pre post s' split
      exact reaches_append.2 ⟨s, reaches, reaches_cons.2 ⟨0, s', next, reaches_nil.2 rfl⟩⟩
    | initLogger ip socket workqueue => exact loses
    | ksocketSend place => exact loses
  · intro calm
    constructor
    · intro faults
      obtain ⟨s, op, t, here, fault⟩ :=
        fault_of_along Tracked (fun _ _ _ _ t here next => step_tracked t here next) loaded_tracked calm faults
      rcases step_calm t here with ⟨answer, s', ok, -⟩ | out | again
      · rw [ok] at fault
        cases fault
      · rw [out] at fault
        cases fault
      · rw [again] at fault
        cases fault
    · intro pre post s split reaches
      have front : Along step (fun s op => ¬ s.Loses op) (pre ++ [.destroyLogger]) loaded := by
        rw [split, List.append_cons] at calm
        exact calm.front
      obtain ⟨s₁, before, last⟩ := reaches_append.1 reaches
      have idle : s₁.pending = [] := Classical.not_not.1 ((along_snoc before).1 front).2
      obtain ⟨answer, s₂, next, rest⟩ := reaches_cons.1 last
      obtain rfl := reaches_nil.1 rest
      apply (tracked_of_calm front reaches).settled
      rcases destroyLogger_spec (tracked_of_calm front.front before) with ⟨-, faults⟩ | ⟨queues, ok⟩
      · simp [step, faults] at next
      · simp only [step, ok] at next
        cases next
        rfl

/-- A call on a host at some time of day. -/
def noonSurroundings : LogSurroundings :=
  ⟨bytes "2013-3-01T12:0:0.0+00:00 ", bytes "host", .zero _, fun text => text.length, true, true⟩

/-- A message that follows a failure to create the work queue, and a message that waits when the logger is
destroyed. -/
theorem delivers_fails :
    ¬ Delivers [.initLogger (some (bytes "10.0.0.1")) true false, .printLog noonSurroundings (some (.plain (bytes "<3>failed")))] ∧
    ¬ Delivers [.initLogger (some (bytes "10.0.0.1")) true true, .printLog noonSurroundings (some (.plain (bytes "<6>ready"))),
      .destroyLogger] := by
  constructor
  · intro delivers
    exact delivers.queue rfl
  · intro delivers
    have settled := delivers.settled [_, _] [] _ rfl ⟨_, rfl⟩
    have sent := settled.sent _ List.mem_cons_self
    cases sent

end Logger

end Carbonite
