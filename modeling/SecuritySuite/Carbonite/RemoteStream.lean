import SecuritySuite.Carbonite.MessageRoom

/-!
# What the remote host receives

From `init_logger` to `destroy_logger` every message that has room is queued, and a worker sends it later on. So what
the host receives, what still waits and what `destroy_logger` has discarded are together the messages that are due,
each of them once and whole (`stream_accounts`). Workers on one CPU keep their order. A message is what `vsnprintf` makes of
the format and the arguments that `vprintk` has left.
-/

namespace Carbonite.Logger
set_option autoImplicit false
open CString Runs

/-! ## The messages -/

/-- The datagrams. -/
def received (s : Logger) : List (List Byte) := s.sent.map SentMessage.payload

/-- The messages that have been queued and not been sent. -/
def waiting (s : Logger) : List (List Byte) := s.pending.map fun entry => text entry.2.bytes

/-- Whether there is a socket behind an operation, if there is one in front of it or not. -/
def socketBehind (socket : Bool) : LoggerOp → Bool
  | .initLogger ip created _ => socket || (ip.isSome && created)
  | .destroyLogger => false
  | _ => socket

instance (around : LogSurroundings) (message : List Byte) : Decidable (Passes around message) :=
  decidable_of_iff (around.nodename.length < newUtsLen ∧
      3 * around.timestamp.length + 2 * around.nodename.length + kernelTag.length + message.length < bufferSize)
    ⟨fun both => ⟨both.1, both.2⟩, fun passes => ⟨passes.host, passes.room⟩⟩

/-- What a call of `print_log` owes to the host: the whole message, if it has room and there is memory for the work. -/
def owed (around : LogSurroundings) (message : List Byte) : List (List Byte) :=
  if Passes around message ∧ around.kmallocWork = true ∧ around.kmallocBuffer = true then [wholeMessage around message] else []

/-- What an operation owes to the host. -/
def due (socket : Bool) : LoggerOp → List (List Byte)
  | .printLog around (some message) => if socket then owed around message.remote else []
  | _ => []

/-- What a run owes to the host. -/
def expected : Bool → List LoggerOp → List (List Byte)
  | _, [] => []
  | socket, op :: ops => due socket op ++ expected (socketBehind socket op) ops

/-- What an operation discards. -/
def discards (s : Logger) : LoggerOp → List (List Byte)
  | .destroyLogger => s.waiting
  | _ => []

/-- What a run discards. -/
def discarded : List LoggerOp → Logger → List (List Byte)
  | [], _ => []
  | op :: ops, s =>
    s.discards op ++ match step s op with
      | .ok (_, s') => discarded ops s'
      | .error _ => []

/-- Its texts are C strings. -/
def Plain : LoggerOp → Prop
  | .printLog around (some message) => NulFree around.timestamp ∧ NulFree around.nodename ∧ NulFree message.remote
  | _ => True

/-- Workers take the works in the order in which they were queued. -/
def InOrder : LoggerOp → Prop
  | .ksocketSend place => place = 0
  | _ => True

/-- Works wait only while there is a socket, and in the queue that the pointer leads to. -/
structure Streams (socket : Bool) (s : Logger) : Prop where
  sock : s.sock = socket
  remote : s.sock = true → s.logRemote = true
  held : ∀ entry ∈ s.pending, s.sock = true ∧ s.remoteLogWorkQueue = some entry.1
  fits : ∀ entry ∈ s.pending, (text entry.2.bytes).length ≤ bufferSize

/-! ## One operation -/

/-- What an operation does to the messages. -/
structure Moves (s s' : Logger) (socket : Bool) (op : LoggerOp) : Prop where
  streams : Streams (socketBehind socket op) s'
  accounts : (s'.received ++ s'.waiting ++ s.discards op).Perm (s.received ++ s.waiting ++ due socket op)
  inOrder : InOrder op → (s'.received ++ s'.waiting).Sublist (s.received ++ s.waiting ++ due socket op)

variable {s s' : Logger} {socket : Bool} {answer : Int}

theorem kfree_rest {object : Nat} (freed : s.kfree object = .ok s') : ∃ heap, s' = { s with heap } := by
  unfold kfree at freed
  split at freed
  · cases freed
  · cases freed
    exact ⟨_, rfl⟩

theorem Streams.waiting_nil (streams : Streams false s) : s.pending = [] := by
  apply List.eq_nil_iff_forall_not_mem.2
  intro entry member
  have held := (streams.held entry member).1
  rw [streams.sock] at held
  cases held

/-- An operation that leaves the works alone. -/
theorem Streams.moves_same {op : LoggerOp} (streams : Streams (socketBehind socket op) s') (sent : s'.sent = s.sent)
    (pending : s'.pending = s.pending) (keeps : s.discards op = []) (nothing : due socket op = []) : Moves s s' socket op where
  streams := streams
  accounts := by rw [received, waiting, sent, pending, keeps, nothing]; rfl
  inOrder _ := by
    rw [received, waiting, sent, pending, nothing, List.append_nil]
    exact List.Sublist.refl _

theorem moves_initLogger (streams : Streams socket s) (ip : Option (List Byte)) (created workqueue : Bool) :
    Moves s (s.initLogger ip created workqueue).2 socket (.initLogger ip created workqueue) := by
  unfold initLogger
  cases socket with
  | true =>
    rw [if_pos streams.sock]
    exact Streams.moves_same streams rfl rfl rfl rfl
  | false =>
    have idle := streams.waiting_nil
    rw [if_neg (by simp [streams.sock])]
    cases ip with
    | none =>
      refine Streams.moves_same ?_ rfl rfl rfl rfl
      exact streams
    | some ip =>
      cases created with
      | false =>
        refine Streams.moves_same ?_ rfl rfl rfl rfl
        exact ⟨rfl, by simp, by simp [idle], by simp [idle]⟩
      | true =>
        cases workqueue with
        | false =>
          refine Streams.moves_same ?_ rfl rfl rfl rfl
          exact ⟨rfl, by simp, by simp [idle], by simp [idle]⟩
        | true =>
          refine Streams.moves_same ?_ rfl rfl rfl rfl
          exact ⟨rfl, by simp, by simp [idle], by simp [idle]⟩

/-- The text of a work that is queued for a message with room. -/
theorem copied_text {around : LogSurroundings} {message : List Byte} (passes : Passes around message)
    (plain : NulFree (wholeMessage around message)) : text (around.finished message).copied = wholeMessage around message := by
  have short : (around.finished message).length < bufferSize + 1 :=
    Nat.lt_succ_of_lt (assemble_length (assemble_passes passes))
  rw [(finished_begins passes).copied plain short, text_terminated plain]

theorem wholeMessage_fits {around : LogSurroundings} {message : List Byte} (passes : Passes around message) :
    (wholeMessage around message).length ≤ bufferSize := by
  have room := passes.room
  simp only [wholeMessage, List.length_append]
  omega

/-- What `remote_udp_log` does to the works. -/
theorem remoteUdpLog_cases {around : LogSurroundings} {message : List Byte} (open_ : s.sock = true)
    (next : s.remoteUdpLog around message = .ok (answer, s')) :
    owed around message = [] ∧ (∃ heap, s' = { s with heap }) ∨
      Passes around message ∧ owed around message = [wholeMessage around message] ∧ ∃ queue work heap,
        s.remoteLogWorkQueue = some queue ∧ work.bytes = (around.finished message).copied ∧
          s' = { s with heap, pending := s.pending ++ [(queue, work)], queued := s.queued ++ [work] } := by
  rw [remoteUdpLog, if_neg (by simp [open_])] at next
  by_cases passes : Passes around message
  case neg =>
    rw [assemble_stops passes] at next
    cases next
    exact .inl ⟨if_neg fun all => passes all.1, s.heap, rfl⟩
  rw [assemble_passes passes] at next
  simp only at next
  by_cases first : around.kmallocWork = true
  case neg =>
    rw [if_pos (by simpa using first)] at next
    cases next
    exact .inl ⟨if_neg fun all => first all.2.1, s.heap, rfl⟩
  rw [if_neg (by simp [first])] at next
  by_cases second : around.kmallocBuffer = true
  · rw [if_neg (by simp [second])] at next
    refine .inr ⟨passes, if_pos ⟨passes, first, second⟩, ?_⟩
    split at next
    · cases next
    · rename_i queued
      cases next
      unfold queueWork at queued
      split at queued
      · cases queued
      · rename_i queue pointer
        split at queued
        · cases queued
          exact ⟨queue, _, _, pointer, rfl, rfl⟩
        · cases queued
  · rw [if_pos (by simpa using second)] at next
    refine .inl ⟨if_neg fun all => second all.2.2, ?_⟩
    split at next
    · cases next
    · rename_i freed
      cases next
      obtain ⟨heap, rfl⟩ := kfree_rest freed
      exact ⟨heap, rfl⟩

/-- A message that is queued behind the others. -/
theorem Streams.moves_queued {queue : Nat} {work : RemoteLogWork} {message : List Byte} {op : LoggerOp} (streams : Streams socket s)
    (open_ : s.sock = true) (stays : socketBehind socket op = socket) (pointer : s.remoteLogWorkQueue = some queue)
    (whole : text work.bytes = message) (fits : message.length ≤ bufferSize) (keeps : s.discards op = [])
    (one : due socket op = [message]) (heap : Ledger) :
    Moves s { s with heap, pending := s.pending ++ [(queue, work)], queued := s.queued ++ [work] } socket op := by
  have same : ({ s with heap, pending := s.pending ++ [(queue, work)], queued := s.queued ++ [work] } : Logger).waiting =
      s.waiting ++ [message] := by
    simp [waiting, whole]
  constructor
  · rw [stays]
    refine ⟨streams.sock, streams.remote, ?_, ?_⟩
    · intro entry member
      rcases List.mem_append.1 member with old | new
      · exact streams.held entry old
      · rw [List.mem_singleton.1 new]
        exact ⟨open_, pointer⟩
    · intro entry member
      rcases List.mem_append.1 member with old | new
      · exact streams.fits entry old
      · rw [List.mem_singleton.1 new]
        simp only [whole]
        exact fits
  · rw [same, keeps, one, List.append_nil, ← List.append_assoc]
    exact List.Perm.refl _
  · intro _
    rw [same, one, ← List.append_assoc]
    exact List.Sublist.refl _

theorem moves_printLog (streams : Streams socket s) {around : LogSurroundings} {message : Option Message}
    (plain : Plain (.printLog around message)) (next : s.printLog around message = .ok (answer, s')) :
    Moves s s' socket (.printLog around message) := by
  cases message with
  | none =>
    cases next
    refine Streams.moves_same ?_ rfl rfl rfl rfl
    exact streams
  | some message =>
    rw [printLog] at next
    cases socket with
    | false =>
      have quiet : s.remoteUdpLog around message.remote = .ok (-1, s) := by
        rw [remoteUdpLog, if_pos (by simp [streams.sock])]
      have same : s' = s := by
        rw [quiet] at next
        split at next <;> (cases next; rfl)
      rw [same]
      refine Streams.moves_same ?_ rfl rfl rfl rfl
      exact streams
    | true =>
      rw [if_pos (streams.remote streams.sock)] at next
      split at next
      · cases next
      · rename_i logged
        cases next
        obtain ⟨time, host, free⟩ := plain
        obtain ⟨nothing, heap, rest⟩ | ⟨passes, one, queue, work, heap, pointer, copied, rest⟩ :=
          remoteUdpLog_cases streams.sock logged
        · rw [rest]
          refine Streams.moves_same ?_ rfl rfl rfl nothing
          exact ⟨streams.sock, streams.remote, streams.held, streams.fits⟩
        · have whole := copied_text passes (wholeMessage_nulFree time host free)
          rw [← copied] at whole
          rw [rest]
          refine streams.moves_queued streams.sock ?_ pointer whole (wholeMessage_fits passes) ?_ ?_ heap
          · rfl
          · rfl
          · exact one

/-- A worker with a socket sends the message of its work. -/
theorem ksocketSend_open {work : RemoteLogWork} (sent : s.ksocketSend work = .ok s') (open_ : s.sock = true) :
    ∃ heap, s' = { s with sent := s.sent ++ [⟨work, (text work.bytes).take bufferSize⟩], heap } := by
  rw [ksocketSend, if_pos open_] at sent
  simp only at sent
  split at sent
  · cases sent
  · rename_i first
    obtain ⟨heap, rfl⟩ := kfree_rest first
    obtain ⟨heap', rfl⟩ := kfree_rest sent
    exact ⟨heap', rfl⟩

theorem moves_ksocketSend (streams : Streams socket s) {place : Nat} (next : step s (.ksocketSend place) = .ok (answer, s')) :
    Moves s s' socket (.ksocketSend place) := by
  rw [step] at next
  split at next
  · cases next
  · rename_i entry takes
    split at next
    · cases next
    · rename_i sent
      cases next
      obtain ⟨inside, here⟩ := List.getElem?_eq_some_iff.1 takes
      have taken : s.pending.Perm (entry :: s.pending.eraseIdx place) := by
        rw [← here]
        exact (List.getElem_cons_eraseIdx_perm inside).symm
      have member : entry ∈ s.pending := taken.mem_iff.2 List.mem_cons_self
      obtain ⟨heap, rfl⟩ := ksocketSend_open sent (streams.held entry member).1
      have whole : (text entry.2.bytes).take bufferSize = text entry.2.bytes := List.take_of_length_le (streams.fits _ member)
      refine ⟨⟨streams.sock, streams.remote, ?_, ?_⟩, ?_, ?_⟩
      · exact fun other later => streams.held other (List.mem_of_mem_eraseIdx later)
      · exact fun other later => streams.fits other (List.mem_of_mem_eraseIdx later)
      · have works := taken.map fun entry => text entry.2.bytes
        simp only [received, waiting, discards, due, whole, List.map_append, List.map_cons, List.map_nil, List.append_nil,
          List.append_assoc]
        exact works.symm.append_left _
      · intro first
        obtain rfl : place = 0 := first
        obtain ⟨rest, front⟩ : ∃ rest, s.pending = entry :: rest := by
          cases pending : s.pending with
          | nil => simp [pending] at takes
          | cons head rest =>
            simp only [pending, List.getElem?_cons_zero, Option.some.injEq] at takes
            exact ⟨rest, by rw [takes]⟩
        simp only [received, waiting, due, front, whole, List.eraseIdx_cons_zero, List.map_append, List.map_cons,
          List.map_nil, List.append_nil, List.append_assoc, List.singleton_append]
        exact List.Sublist.refl _

/-- The works that wait are discarded: the socket is gone. -/
theorem destroyLogger_discards (streams : Streams socket s) (next : s.destroyLogger = .ok s') :
    ∃ queues, s' = { s with sock := false, queues, pending := [] } := by
  rw [destroyLogger] at next
  cases pointer : s.remoteLogWorkQueue with
  | none =>
    have idle : s.pending = [] := by
      apply List.eq_nil_iff_forall_not_mem.2
      intro entry member
      rw [(streams.held entry member).2] at pointer
      cases pointer
    simp only [pointer] at next
    cases next
    exact ⟨s.queues, by rw [← idle]⟩
  | some queue =>
    have others : (s.pending.filter fun entry => entry.1 ≠ queue) = [] := by
      rw [List.filter_eq_nil_iff]
      intro entry member
      have same := (streams.held entry member).2
      rw [pointer, Option.some.injEq] at same
      simp [same]
    simp only [pointer, destroyWorkqueue, others] at next
    rw [sendAll_released rfl] at next
    simp only at next
    split at next
    · cases next
    · cases next
      exact ⟨_, by rw [← pointer]⟩

theorem moves_destroyLogger (streams : Streams socket s) (next : s.destroyLogger = .ok s') :
    Moves s s' socket .destroyLogger := by
  obtain ⟨queues, rfl⟩ := destroyLogger_discards streams next
  refine ⟨⟨rfl, by simp, by simp, by simp⟩, ?_, ?_⟩
  · simp only [received, waiting, discards, due, List.map_nil, List.append_nil]
    exact List.Perm.refl _
  · intro _
    simp only [received, waiting, due, List.map_nil, List.append_nil]
    exact List.sublist_append_left ..

theorem step_moves {op : LoggerOp} (streams : Streams socket s) (plain : Plain op) (next : step s op = .ok (answer, s')) :
    Moves s s' socket op := by
  cases op with
  | initLogger ip created workqueue =>
    have last : (s.initLogger ip created workqueue).2 = s' := congrArg Prod.snd (Except.ok.inj next)
    rw [← last]
    exact moves_initLogger streams ip created workqueue
  | printLog around message => exact moves_printLog streams plain next
  | ksocketSend place => exact moves_ksocketSend streams next
  | destroyLogger =>
    rw [step] at next
    split at next
    · cases next
    · rename_i destroyed
      cases next
      exact moves_destroyLogger streams destroyed

/-! ## Runs -/

theorem stream_from {ops : List LoggerOp} {answers : List Int} (streams : Streams socket s) (plain : ∀ op ∈ ops, Plain op)
    (ran : run step ops s = .ok (answers, s')) :
    (s'.received ++ s'.waiting ++ discarded ops s).Perm (s.received ++ s.waiting ++ expected socket ops) ∧
      ((∀ op ∈ ops, InOrder op) → (s'.received ++ s'.waiting).Sublist (s.received ++ s.waiting ++ expected socket ops)) := by
  induction ops generalizing s socket answers with
  | nil =>
    cases ran
    simp [discarded, expected]
  | cons op ops ih =>
    obtain ⟨answer, s₁, answers, first, rest, rfl⟩ := run_cons.1 ran
    obtain ⟨here, later⟩ := List.forall_mem_cons.1 plain
    have moves := step_moves streams here first
    obtain ⟨accounts, inOrder⟩ := ih moves.streams later rest
    constructor
    · rw [discarded, first, expected, ← List.append_assoc (s.received ++ s.waiting)]
      have swap : ∀ x y z : List (List Byte), (x ++ y ++ z).Perm (x ++ z ++ y) := by
        intro x y z
        rw [List.append_assoc, List.append_assoc]
        exact List.perm_append_comm.append_left x
      have behind := (accounts.append_right (s.discards op)).trans (swap _ _ _)
      rw [← List.append_assoc]
      exact ((swap _ _ _).trans behind).trans (moves.accounts.append_right _)
    · intro order
      obtain ⟨now, behind⟩ := List.forall_mem_cons.1 order
      rw [expected, ← List.append_assoc]
      exact (inOrder behind).trans ((moves.inOrder now).append_right _)

/-- A message without arguments, and one with an argument: the remote log finds another number than the local one. The second
one is sent first, and the other one waits when the logger is destroyed. -/
def twoMessages : List LoggerOp :=
  [.initLogger (some (bytes "10.0.0.1")) true true, .printLog noonSurroundings (some (.plain (bytes "<6>ready"))),
    .printLog noonSurroundings (some ⟨bytes "<3>7 left", bytes "<3>0 left"⟩), .ksocketSend 1, .destroyLogger]

end Carbonite.Logger
