import SecuritySuite.Netlog.ConcurrentWrites
import SecuritySuite.Netlog.LoggedConnections

/-!
# The log while the list is rewritten

`procfile_write` destroys the white list and builds the new one string by string, and probe handlers look at it in
between. What they find is the beginning of the new list. So a connection is only kept out of the log if a whole text
exempts it, the one that was there or that of a write, and a connection that all of them exempt is only logged if its
handler looked while a list was being built (`logged_unless_exempt`).
-/

namespace Netlog.Rewriting
set_option autoImplicit false
open CString Runs
open AddressBuffers (InetSock Current getDestinationPort)

/-- Handlers and writes beside each other. -/
structure State (Id Writer : Type) where
  handling : AddressBuffers.State Id
  writing : Concurrent.State Writer

inductive Op (Id Writer : Type) where
  | handler (id : Id)
  | write (writer : Writer)
deriving DecidableEq

/-- The handlers that run, the writes, and the settings of the module. -/
structure System (Id Writer : Type) where
  calls : Id → AddressBuffers.Call
  writes : Writer → WriteCall
  settings : AddressBuffers.Settings

variable {Id Writer : Type} [DecidableEq Id] [DecidableEq Writer]

/-- The handlers over the list that there is. -/
def System.world (system : System Id Writer) (whiteList : List Connection) : AddressBuffers.World Id :=
  ⟨system.calls, whiteList, system.settings⟩

/-- Handlers begin, and so do writes, over any configuration. -/
def start (st : ProcConfig) : State Id Writer := ⟨AddressBuffers.start, Concurrent.start st⟩

variable (system : System Id Writer)

/-- The next step of a handler or of a write. The lock makes one step of a call of `whitelist` or `is_whitelisted`. -/
def step (s : State Id Writer) : Op Id Writer → Except Violation (AddressBuffers.Answer Id × State Id Writer)
  | .handler id =>
    match AddressBuffers.step (system.world s.writing.config.whiteList) s.handling id with
    | .ok (answer, handling) => .ok (answer, { s with handling })
    | .error never => nomatch never
  | .write writer =>
    match Concurrent.step system.writes s.writing writer with
    | .ok (_, writing) => .ok (.none, { s with writing })
    | .error violation => .error violation

/-! ## What is to hold -/

/-- A handler overwrites the text of another one, or a write disturbs another one. -/
def Disturbs (s : State Id Writer) : Op Id Writer → Prop
  | .handler id => AddressBuffers.Overwrites (system.world s.writing.config.whiteList) s.handling id
  | .write writer => Concurrent.Disturbs s.writing writer

/-- The list that was there, or the one of a write that has begun. -/
def Listed (st : ProcConfig) (ops : List (Op Id Writer)) (whiteList : List Connection) : Prop :=
  whiteList = st.whiteList ∨ ∃ writer, .write writer ∈ ops ∧ whiteList = Concurrent.listOf (system.writes writer)

/-- The list has been destroyed, and the end of the text has not been found: a string is to be taken out, whitelisted or
passed over, the step behind the last string included. -/
def building : Concurrent.Place → Bool
  | .extract _ _ _ => true
  | .call _ _ _ => true
  | .next _ _ _ => true
  | _ => false

/-- A handler looks at the list while a write builds it. -/
def LooksMeanwhile (st : ProcConfig) (ops : List (Op Id Writer)) (id : Id) : Prop :=
  ∃ pre post s writer, ops = pre ++ .handler id :: post ∧ Reaches (step system) (start st) pre s ∧
    (∃ destinationIp, s.handling.place id = .isWhitelisted destinationIp) ∧ building (s.writing.place writer) = true

/-- A list exempts the connection of a socket to an address. -/
def Exempts (sock : InetSock) (current : Current) (destination : Address) (whiteList : List Connection) : Prop :=
  isWhitelisted (some current.task) destination.text (getDestinationPort sock) whiteList = whitelisted

/-- What the log says of the connection of a handler. -/
structure Accounts (st : ProcConfig) (ops : List (Op Id Writer)) (answers : List (AddressBuffers.Answer Id)) (id : Id)
    (sock : InetSock) (current : Current) (destination : Address) : Prop where
  silent : (∀ line, .printed id line ∉ answers) → ∃ whiteList, Listed system st ops whiteList ∧
    Exempts sock current destination whiteList
  logged : ∀ line, .printed id line ∈ answers → some line = Logged.lineOf system.settings (system.calls id) sock current ∧
    ((∀ whiteList, Listed system st ops whiteList → Exempts sock current destination whiteList) →
      LooksMeanwhile system st ops id)

/-! ## Lists -/

theorem whitelist_front (kmalloc : Bool) (mem : Memory) (whiteList : List Connection) :
    whiteList <+: (whitelist kmalloc mem whiteList).2 := by
  rcases whitelist_cases kmalloc mem whiteList with failed | ⟨c, -, -, -, appended⟩
  · rw [failed]
  · rw [appended]
    exact List.prefix_append _ _

/-- Strings are only added. -/
theorem listPieces_front (kmalloc : Nat → Bool) (stack : Memory) (pieces : List (List Byte)) (whiteList : List Connection) :
    whiteList <+: Concurrent.listPieces kmalloc stack pieces whiteList := by
  induction pieces generalizing kmalloc stack whiteList with
  | nil => exact List.prefix_refl _
  | cons piece pieces ih => exact (whitelist_front _ _ _).trans (ih _ _ _)

theorem exempts_front {sock : InetSock} {current : Current} {destination : Address} {front whiteList : List Connection}
    (within : front <+: whiteList) (exempts : Exempts sock current destination front) :
    Exempts sock current destination whiteList := by
  unfold Exempts isWhitelisted at *
  split at exempts
  · cases exempts
  · split at exempts
    · cases exempts
    · rename_i fits
      rw [if_neg fits]
      split at exempts
      · rename_i found
        obtain ⟨c, member, matches_⟩ := List.any_eq_true.1 found
        rw [if_pos (List.any_eq_true.2 ⟨c, within.subset member, matches_⟩)]
      · cases exempts

section Writes

variable {writes : Writer → WriteCall} {s s' : Concurrent.State Writer} {writer : Writer}

omit [DecidableEq Writer] in
/-- While a write builds the list, the list is the front of its own. -/
theorem front_of_building (sound : Concurrent.Sound writes s) (builds : building (s.place writer) = true) :
    s.config.whiteList <+: Concurrent.listOf (writes writer) := by
  have scans := sound.scans writer
  cases place : s.place writer with
  | extract start newConnectionString kmalloc =>
    rw [place] at scans
    obtain ⟨pieces, -, -, leads⟩ := scans
    rw [← leads]
    exact listPieces_front _ _ _ _
  | call stop newConnectionString kmalloc =>
    rw [place] at scans
    obtain ⟨-, pieces, -, -, leads⟩ := scans
    rw [← leads]
    exact (whitelist_front _ _ _).trans (listPieces_front _ _ _ _)
  | next stop newConnectionString kmalloc =>
    rw [place] at scans
    obtain ⟨pieces, -, -, leads⟩ := scans
    rw [← leads]
    exact listPieces_front _ _ _ _
  | _ =>
    rw [place] at builds
    cases builds

theorem storeText_list {w : WriteCall} {st st' : ProcConfig} {failed : Option Int}
    (stored : Concurrent.storeText w st = .ok (failed, st')) : st'.whiteList = st.whiteList := by
  unfold Concurrent.storeText at stored
  simp only at stored
  split at stored
  · cases stored
    rfl
  split at stored
  · cases stored
    rfl
  by_cases nonempty : 1 ≤ w.buffer.length
  · rw [check_ok nonempty] at stored
    cases stored
    rfl
  · rw [check_error nonempty] at stored
    cases stored

/-- What a step of a write does to the list: nothing, or the write goes on to build it, or it has built its own. -/
inductive Rewrites (writes : Writer → WriteCall) (s s' : Concurrent.State Writer) (writer : Writer) : Prop where
  | leaves (list : s'.config.whiteList = s.config.whiteList) (idle : building (s.place writer) = false)
  | builds (now : building (s'.place writer) = true)
  | built (list : s'.config.whiteList = Concurrent.listOf (writes writer))

theorem write_rewrites (sound : Concurrent.Sound writes s) (next : Concurrent.step writes s writer = .ok ((), s')) :
    Rewrites writes s s' writer ∧ ∀ other, other ≠ writer → s'.place other = s.place other := by
  have own (place : Concurrent.Place) (other : Writer) (different : other ≠ writer) :
      Function.update s.place writer place other = s.place other := Function.update_of_ne different ..
  cases stands : s.place writer with
  | store =>
    cases stored : Concurrent.storeText (writes writer) s.config with
    | error violation => simp [Concurrent.step, stands, stored, bind, Except.bind] at next
    | ok r =>
      obtain ⟨failed, config⟩ := r
      simp only [Concurrent.step, stands, stored, bind, Except.bind, pure, Except.pure] at next
      cases next
      exact ⟨.leaves (storeText_list stored) (by rw [stands]; rfl), own _⟩
  | takeOver =>
    rw [Concurrent.step_takeOver writes stands] at next
    cases next
    exact ⟨.leaves rfl (by rw [stands]; rfl), own _⟩
  | destroy =>
    rw [Concurrent.step_destroy writes stands] at next
    cases next
    exact ⟨.builds (by simp [building]), own _⟩
  | extract start newConnectionString kmalloc =>
    cases taken : Concurrent.extractPiece s.tempProcfsBuffer start newConnectionString with
    | error violation => simp [Concurrent.step, stands, taken, bind, Except.bind] at next
    | ok r =>
      obtain ⟨stop, copied⟩ := r
      rw [Concurrent.step_extract writes stands taken] at next
      cases next
      exact ⟨.builds (by simp [building]), own _⟩
  | call stop newConnectionString kmalloc =>
    rw [Concurrent.step_call writes stands] at next
    cases next
    exact ⟨.builds (by simp [building]), own _⟩
  | next stop newConnectionString kmalloc =>
    have scans := sound.scans writer
    rw [stands] at scans
    obtain ⟨pieces, ⟨bound, ends⟩, short, leads⟩ := scans
    -- behind the last piece all strings have been whitelisted, behind a comma the next one is taken out
    rcases ends with ⟨last, rfl⟩ | ⟨comma, left⟩
    · rw [Concurrent.step_last writes stands bound last] at next
      cases next
      exact ⟨.built leads, own _⟩
    · obtain ⟨stop', copied, taken, -⟩ := Concurrent.extractPiece_scans left short leads
      rw [Concurrent.step_next writes stands bound comma taken] at next
      cases next
      exact ⟨.builds (by simp [building]), own _⟩
  | clear =>
    rw [Concurrent.step_clear writes stands] at next
    cases next
    exact ⟨.leaves rfl (by rw [stands]; rfl), own _⟩
  | returned value =>
    rw [Concurrent.step, stands] at next
    cases next
    exact ⟨.leaves rfl (by rw [stands]; rfl), fun other _ => rfl⟩

end Writes

/-! ## Handlers -/

/-- The text behind a pointer that shows what was returned. -/
theorem shows_text {buffers : AddressBuffers.Buffers} {filled : Option (AddressBuffers.BufferName × List Byte)}
    {pointer : Option AddressBuffers.BufferName} (shows_ : AddressBuffers.Shows buffers filled pointer) :
    buffers.read pointer = (filled.map (·.2)).getD [] := by
  cases result : filled with
  | none =>
    rw [shows_.1, result]
    rfl
  | some r => exact shows_.read result

section Handlers

variable (st : ProcConfig) (ops : List (Op Id Writer)) (answers : List (AddressBuffers.Answer Id)) (id : Id)
  (sock : InetSock) (current : Current) (destination : Address)

/-- Nothing has been printed. -/
def Silent : Prop := ∀ line, .printed id line ∉ answers

/-- A handler that goes on to print found nothing, so it looked meanwhile if every list exempts its connection. -/
def Missed : Prop :=
  (∀ whiteList, Listed system st ops whiteList → Exempts sock current destination whiteList) →
    LooksMeanwhile system st ops id

/-- What a handler has done at a place. -/
def Stands : AddressBuffers.Place → Prop
  | .getDestinationIp => Silent answers id
  | .isWhitelisted _ => Silent answers id
  | .getSourceIp _ line =>
    Silent answers id ∧ system.settings.reports (system.calls id).handler sock = some line ∧
      Missed system st ops id sock current destination
  | .printk _ _ line =>
    Silent answers id ∧ system.settings.reports (system.calls id).handler sock = some line ∧
      Missed system st ops id sock current destination
  | .out => system.settings.reports (system.calls id).handler sock ≠ none →
    Accounts system st ops answers id sock current destination

end Handlers

variable {system} {st : ProcConfig} {ops : List (Op Id Writer)} {answers : List (AddressBuffers.Answer Id)}
  {s s' : State Id Writer} {id : Id} {op : Op Id Writer} {answer : AddressBuffers.Answer Id}
  {sock : InetSock} {current : Current} {destination : Address}

omit [DecidableEq Id] [DecidableEq Writer] in
theorem Listed.snoc {whiteList : List Connection} (listed : Listed system st ops whiteList) :
    Listed system st (ops ++ [op]) whiteList :=
  listed.imp_right fun ⟨writer, member, is⟩ => ⟨writer, List.mem_append_left _ member, is⟩

theorem LooksMeanwhile.snoc (looks : LooksMeanwhile system st ops id) : LooksMeanwhile system st (ops ++ [op]) id := by
  obtain ⟨pre, post, s, writer, rfl, found⟩ := looks
  exact ⟨pre, post ++ [op], s, writer, by simp, found⟩

theorem Missed.snoc (missed : Missed system st ops id sock current destination) :
    Missed system st (ops ++ [op]) id sock current destination :=
  fun all => (missed fun whiteList listed => all whiteList listed.snoc).snoc

omit [DecidableEq Id] in
theorem none_prints_nothing (line : AddressBuffers.Line) : (.none : AddressBuffers.Answer Id) ≠ .printed id line := by
  intro is
  cases is

omit [DecidableEq Id] in
theorem checked_prints_nothing {other : Id} {ip : List Byte} {exempt : Bool} (line : AddressBuffers.Line) :
    AddressBuffers.Answer.checked other ip exempt ≠ .printed id line := by
  intro is
  cases is

omit [DecidableEq Id] in
theorem silent_snoc (other : ∀ line, answer ≠ .printed id line) :
    Silent (answers ++ [answer]) id ↔ Silent answers id := by
  simp only [Silent, List.mem_append, List.mem_singleton, not_or]
  exact ⟨fun both line => (both line).1, fun none_yet line => ⟨none_yet line, fun is => other line is.symm⟩⟩

theorem Accounts.snoc (other : ∀ line, answer ≠ .printed id line)
    (accounts : Accounts system st ops answers id sock current destination) :
    Accounts system st (ops ++ [op]) (answers ++ [answer]) id sock current destination := by
  constructor
  · intro silent
    obtain ⟨whiteList, listed, exempts⟩ := accounts.silent ((silent_snoc other).1 silent)
    exact ⟨whiteList, listed.snoc, exempts⟩
  · intro line member
    have before : .printed id line ∈ answers :=
      (List.mem_append.1 member).resolve_right fun last => other line (List.mem_singleton.1 last).symm
    obtain ⟨own, missed⟩ := accounts.logged line before
    exact ⟨own, fun all => (missed fun whiteList listed => all whiteList listed.snoc).snoc⟩

/-- Where a handler stands is not changed by a step that is not its own. -/
theorem Stands.snoc {place : AddressBuffers.Place} (other : ∀ line, answer ≠ .printed id line)
    (stands : Stands system st ops answers id sock current destination place) :
    Stands system st (ops ++ [op]) (answers ++ [answer]) id sock current destination place := by
  cases place with
  | getDestinationIp => exact (silent_snoc other).2 stands
  | isWhitelisted destinationIp => exact (silent_snoc other).2 stands
  | getSourceIp destinationIp line => exact ⟨(silent_snoc other).2 stands.1, stands.2.1, stands.2.2.snoc⟩
  | printk destinationIp sourceIp line => exact ⟨(silent_snoc other).2 stands.1, stands.2.1, stands.2.2.snoc⟩
  | out => exact fun reports => (stands reports).snoc other

/-! ## Steps -/

/-- What every run keeps. -/
structure Past (system : System Id Writer) (st : ProcConfig) (ops : List (Op Id Writer))
    (answers : List (AddressBuffers.Answer Id)) (s : State Id Writer) : Prop where
  sound : Concurrent.Sound system.writes s.writing
  begun : ∀ writer, building (s.writing.place writer) = true → .write writer ∈ ops
  list : (∃ writer, building (s.writing.place writer) = true) ∨ Listed system st ops s.writing.config.whiteList
  kept : ∀ id, AddressBuffers.KeptBy (system.world s.writing.config.whiteList) s.handling id
  stands : ∀ id sock current destination, (system.calls id).passes = some (sock, current) →
    sock.far.remoteAddress = some destination →
      Stands system st ops answers id sock current destination (s.handling.place id)

theorem start_past (system : System Id Writer) (st : ProcConfig) : Past system st [] [] (start st) where
  sound := Concurrent.start_sound system.writes st
  begun writer builds := by cases builds
  list := .inr (.inl rfl)
  kept := AddressBuffers.start_keptBy
  stands _ _ _ _ _ _ _ member := by cases member

/-- The list is the front of one that is listed. -/
theorem Past.front (past : Past system st ops answers s) :
    ∃ whiteList, Listed system st ops whiteList ∧ s.writing.config.whiteList <+: whiteList := by
  rcases past.list with ⟨writer, builds⟩ | listed
  · exact ⟨_, .inr ⟨writer, past.begun writer builds, rfl⟩, front_of_building past.sound builds⟩
  · exact ⟨_, listed, List.prefix_refl _⟩

theorem Past.write (past : Past system st ops answers s) (valid : ∀ writer, Concurrent.Valid (system.writes writer))
    {writer : Writer} (quiet : ¬ Concurrent.Disturbs s.writing writer) :
    ∃ s', step system s (.write writer) = .ok (.none, s') ∧
      Past system st (ops ++ [.write writer]) (answers ++ [.none]) s' := by
  obtain ⟨⟨⟩, writing, next, sound⟩ := Concurrent.step_sound valid s.writing writer past.sound quiet
  obtain ⟨rewrites, others⟩ := write_rewrites past.sound next
  refine ⟨{ s with writing }, by simp only [step, next], sound, ?_, ?_, past.kept, ?_⟩
  · intro other builds
    by_cases same : other = writer
    · rw [same]
      simp
    · rw [others other same] at builds
      exact List.mem_append_left _ (past.begun other builds)
  · cases rewrites with
    | leaves list idle =>
      -- a write that builds the list is another one, and goes on with it
      rcases past.list with ⟨other, builds⟩ | listed
      · have different : other ≠ writer := by
          rintro rfl
          rw [idle] at builds
          cases builds
        exact .inl ⟨other, by rw [others other different]; exact builds⟩
      · right
        rw [list]
        exact listed.snoc
    | builds now => exact .inl ⟨writer, now⟩
    | built list => exact .inr (.inr ⟨writer, by simp, list⟩)
  · intro id sock current destination passes far
    exact (past.stands id sock current destination passes far).snoc none_prints_nothing

/-- A handler that has looked at the list, and found its connection or not. -/
theorem Past.checked (past : Past system st ops answers s) (reaches : Reaches (step system) (start st) ops s)
    {destinationIp : Option AddressBuffers.BufferName} (place : s.handling.place id = .isWhitelisted destinationIp)
    (own : s.handling.buffers.read destinationIp = destination.text) {exempt : Bool}
    (found : exempt = (isWhitelisted (some current.task) (s.handling.buffers.read destinationIp) (getDestinationPort sock)
      s.writing.config.whiteList == whitelisted)) :
    (exempt = true → ∃ whiteList, Listed system st (ops ++ [.handler id]) whiteList ∧
      Exempts sock current destination whiteList) ∧
      (exempt = false → Missed system st (ops ++ [.handler id]) id sock current destination) := by
  rw [own] at found
  constructor
  · rintro rfl
    obtain ⟨whiteList, listed, front⟩ := past.front
    exact ⟨whiteList, listed.snoc, exempts_front front (beq_iff_eq.1 found.symm)⟩
  · rintro rfl all
    -- If no write builds the list, it is one of those that exempt the connection, and would have been a hit.
    rcases past.list with ⟨writer, builds⟩ | listed
    · exact ⟨ops, [], s, writer, rfl, reaches, ⟨destinationIp, place⟩, builds⟩
    · have exempts := all _ listed.snoc
      rw [Exempts] at exempts
      rw [exempts] at found
      exact absurd found (by decide)

/-- Where a handler stands behind its own step. -/
theorem Past.stands_self (past : Past system st ops answers s) (reaches : Reaches (step system) (start st) ops s)
    {handling : AddressBuffers.State Id}
    (move : AddressBuffers.Move (system.world s.writing.config.whiteList) s.handling id answer handling)
    (passes : (system.calls id).passes = some (sock, current)) (far : sock.far.remoteAddress = some destination) :
    Stands system st (ops ++ [.handler id]) (answers ++ [answer]) id sock current destination (handling.place id) := by
  have before := past.stands id sock current destination passes far
  have kept := past.kept id
  rw [AddressBuffers.keptBy_iff passes] at kept
  obtain ⟨-, destination', -, buffer, -, remote, -, filled⟩ := AddressBuffers.passes_texts passes
  rw [far] at remote
  cases remote
  cases move with
  | leave fails => cases passes.symm.trans fails
  | formatDestination passes' place =>
    rw [place] at before
    simp only [Function.update_self]
    exact (silent_snoc none_prints_nothing).2 before
  | @check sock' current' destinationIp exempt passes' place found =>
    cases passes.symm.trans passes'
    rw [place] at before kept
    obtain ⟨hit, miss⟩ := past.checked reaches place (kept.read filled) found
    have silent : Silent (answers ++ [.checked id (s.handling.buffers.read destinationIp) exempt]) id :=
      (silent_snoc checked_prints_nothing).2 before
    simp only [Function.update_self, AddressBuffers.World.afterCheck]
    cases exempt with
    | true => exact fun _ => ⟨fun _ => hit rfl, fun line member => absurd member (silent line)⟩
    | false =>
      simp only [Bool.false_eq_true, if_false]
      split
      · rename_i line reports
        exact ⟨silent, reports, miss rfl⟩
      · rename_i reports
        exact fun some_line => absurd reports some_line
  | formatSource passes' place =>
    cases passes.symm.trans passes'
    rw [place] at before
    simp only [Function.update_self]
    exact ⟨(silent_snoc none_prints_nothing).2 before.1, before.2.1, before.2.2.snoc⟩
  | @print sock' current' destinationIp sourceIp line passes' place =>
    cases passes.symm.trans passes'
    rw [place] at before kept
    obtain ⟨silent, reports, missed⟩ := before
    simp only [Function.update_self]
    intro _
    constructor
    · intro none_printed
      exact absurd (List.mem_append_right _ (List.mem_singleton.2 rfl)) (none_printed _)
    · intro printed member
      rcases List.mem_append.1 member with earlier | last
      · exact absurd earlier (silent printed)
      · obtain ⟨-, rfl⟩ := AddressBuffers.Answer.printed.inj (List.mem_singleton.1 last)
        refine ⟨?_, missed.snoc⟩
        rw [Logged.lineOf, reports, Option.map_some, ← shows_text kept.1, ← shows_text kept.2]
        rfl
  | done place =>
    rw [place] at before ⊢
    exact before.snoc none_prints_nothing

theorem printed_own {world : AddressBuffers.World Id} {handling handling' : AddressBuffers.State Id} {other : Id}
    (move : AddressBuffers.Move world handling id answer handling') (different : other ≠ id) (line : AddressBuffers.Line) :
    answer ≠ .printed other line := by
  cases move with
  | print passes place =>
    intro is
    exact different (AddressBuffers.Answer.printed.inj is).1.symm
  | check passes place found => exact checked_prints_nothing line
  | _ => exact none_prints_nothing line

theorem Past.handler (past : Past system st ops answers s) (reaches : Reaches (step system) (start st) ops s)
    (calm : ¬ AddressBuffers.Overwrites (system.world s.writing.config.whiteList) s.handling id) :
    ∃ answer s', step system s (.handler id) = .ok (answer, s') ∧
      Past system st (ops ++ [.handler id]) (answers ++ [answer]) s' := by
  obtain ⟨answer, handling, next⟩ :=
    AddressBuffers.step_total (system.world s.writing.config.whiteList) s.handling id
  have move := AddressBuffers.step_move next
  refine ⟨answer, { s with handling }, by simp only [step, next], past.sound, ?_, ?_,
    AddressBuffers.step_kept past.kept calm next, ?_⟩
  · exact fun writer builds => List.mem_append_left _ (past.begun writer builds)
  · exact past.list.imp_right Listed.snoc
  · intro other sock current destination passes far
    by_cases same : other = id
    · subst same
      exact past.stands_self reaches move passes far
    · rw [show handling.place other = s.handling.place other from move.place_of_ne same]
      exact (past.stands other sock current destination passes far).snoc (printed_own move same)

/-! ## Runs -/

theorem past_of_calm (valid : ∀ writer, Concurrent.Valid (system.writes writer)) (st : ProcConfig)
    (calm : Along (step system) (fun s op => ¬ Disturbs system s op) ops (start st)) :
    ∃ answers s, run (step system) ops (start st) = .ok (answers, s) ∧ Past system st ops answers s := by
  induction ops using List.reverseRecOn with
  | nil => exact ⟨[], start st, rfl, start_past system st⟩
  | append_singleton ops op ih =>
    obtain ⟨answers, s, ran, past⟩ := ih calm.front
    have here := ((along_snoc ⟨answers, ran⟩).1 calm).2
    cases op with
    | handler id =>
      obtain ⟨answer, s', next, past'⟩ := past.handler ⟨answers, ran⟩ here
      exact ⟨answers ++ [answer], s', run_snoc.2 ⟨answers, s, answer, ran, next, rfl⟩, past'⟩
    | write writer =>
      obtain ⟨s', next, past'⟩ := past.write valid here
      exact ⟨answers ++ [.none], s', run_snoc.2 ⟨answers, s, .none, ran, next, rfl⟩, past'⟩

/-- **A connection is logged unless a whole text exempts it**: the list that was there, or that of a write that has
begun, however handlers and writes take turns. A connection that all of them exempt is only logged if its handler
looked while a write was building the list. -/
theorem logged_unless_exempt (system : System Id Writer) (valid : ∀ writer, Concurrent.Valid (system.writes writer))
    (st : ProcConfig) (calm : Along (step system) (fun s op => ¬ Disturbs system s op) ops (start st)) :
    ∃ answers s, run (step system) ops (start st) = .ok (answers, s) ∧ ∀ id sock current destination,
      (system.calls id).passes = some (sock, current) → sock.far.remoteAddress = some destination →
        system.settings.reports (system.calls id).handler sock ≠ none → s.handling.place id = .out →
          Accounts system st ops answers id sock current destination := by
  obtain ⟨answers, s, ran, past⟩ := past_of_calm valid st calm
  refine ⟨answers, s, ran, fun id sock current destination passes far reports out => ?_⟩
  have stands := past.stands id sock current destination passes far
  rw [out] at stands
  exact stands reports

/-- `/bin/a` connects while the list is rewritten that exempts it. -/
def rewritten : System Unit Unit where
  calls _ := AddressBuffers.connectTo ⟨1, 2, 3, 4⟩ (bytes "/bin/a")
  writes _ := Concurrent.oneString "/bin/a\n"
  settings := ⟨false, false⟩

def exemptFirst : ProcConfig := { initialProcConfig with whiteList := [⟨noPort, [], bytes "/bin/a"⟩] }

/-- The handler looks when the list has been destroyed. -/
def looksBetween : List (Op Unit Unit) :=
  [.handler (), .write (), .write (), .write (), .handler (), .handler (), .handler ()]

theorem looksBetween_calm :
    Along (step rewritten) (fun s op => ¬ Disturbs rewritten s op) looksBetween (start exemptFirst) := by
  have quiet : Along (step rewritten) (fun s op => ∀ writer, op = .write writer → ¬ Concurrent.Disturbs s.writing writer)
      looksBetween (start exemptFirst) := by
    decide +kernel
  apply quiet.mono
  intro s op quiet
  cases op with
  | handler id =>
    rintro ⟨_, _, other, different, -⟩
    exact different rfl
  | write writer => exact quiet writer rfl

/-- The connection is logged, although both lists exempt it. -/
theorem logged_unless_exempt_rewritten : ∃ answers s line,
    run (step rewritten) looksBetween (start exemptFirst) = .ok (answers, s) ∧ .printed () line ∈ answers ∧
      LooksMeanwhile rewritten exemptFirst looksBetween () := by
  have valid : ∀ writer, Concurrent.Valid (rewritten.writes writer) := by
    intro writer
    constructor <;> revert writer <;> decide +kernel
  obtain ⟨answers, s, ran, accounts⟩ := logged_unless_exempt rewritten valid exemptFirst looksBetween_calm
  have ends : (run (step rewritten) looksBetween (start exemptFirst)).toOption.map (fun r =>
      (r.2.handling.place (), (AddressBuffers.printed r.1).length)) = some (.out, 1) := by
    decide +kernel
  rw [ran] at ends
  obtain ⟨out, one⟩ : s.handling.place () = .out ∧ (AddressBuffers.printed answers).length = 1 := by
    simpa [Except.toOption] using ends
  have own := accounts () _ _ (.inet ⟨1, 2, 3, 4⟩) rfl rfl (by decide +kernel) out
  obtain ⟨line, member⟩ := List.exists_mem_of_length_pos (by omega : 0 < (AddressBuffers.printed answers).length)
  obtain ⟨answer, inside, shows_⟩ := List.mem_filterMap.1 member
  have printed : .printed () line ∈ answers := by
    cases answer with
    | printed id line' =>
      cases shows_
      exact inside
    | none => cases shows_
    | checked id ip exempt => cases shows_
  refine ⟨answers, s, line, ran, printed, (own.logged line printed).2 ?_⟩
  rintro whiteList (rfl | ⟨writer, -, rfl⟩)
  · unfold Exempts
    decide +kernel
  · revert writer
    unfold Exempts
    decide +kernel

end Netlog.Rewriting
