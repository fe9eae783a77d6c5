import Mathlib.Data.Fintype.Basic
import SecuritySuite.Netlog.ProcConfigSteps

/-!
# Writes of the proc file beside each other

Calls of `procfile_write` that share `procfs_buffer`, the static `temp_procfs_buffer` and the white list. A step is the
copy of the text into the first, the copy from there into the second, the destruction of the list, the extraction of
one piece, one call of `whitelist`, or the clearing of the second buffer. The lock covers a call, not the sequence of
them: a write is undisturbed only while no other write stores into `procfs_buffer` in front of its first copy, or
copies to `temp_procfs_buffer` or clears it while it takes out its pieces (`Disturbs`).
-/

namespace Netlog.Concurrent
set_option autoImplicit false
open CString Separated Runs

/-- The next step of a write. -/
inductive Place where
  /-- The copy into `procfs_buffer`, with its size and its terminator. -/
  | store
  /-- The copy into `temp_procfs_buffer`, and the reset of `procfs_buffer`. -/
  | takeOver
  | destroy
  /-- The first piece is taken out of `temp_procfs_buffer`. -/
  | extract (start : Nat) (newConnectionString : Memory) (kmalloc : Nat → Bool)
  /-- `whitelist` on the piece in front of the index. -/
  | call (stop : Nat) (newConnectionString : Memory) (kmalloc : Nat → Bool)
  /-- The character at the index is looked at again, and the next piece is taken out unless it is NUL. -/
  | next (stop : Nat) (newConnectionString : Memory) (kmalloc : Nat → Bool)
  /-- `temp_procfs_buffer` is cleared. -/
  | clear
  | returned (value : Int)

/-- Between the copy into `temp_procfs_buffer` and the end of its text. -/
def Place.scanning : Place → Bool
  | .destroy => true
  | .extract _ _ _ => true
  | .call _ _ _ => true
  | .next _ _ _ => true
  | _ => false

/-- In front of the copy into `temp_procfs_buffer`. -/
def Place.waiting : Place → Bool
  | .store => true
  | .takeOver => true
  | _ => false

/-- The text of the write is in `procfs_buffer`. -/
def Place.stored : Place → Bool
  | .takeOver => true
  | _ => false

variable {Id : Type} [DecidableEq Id]

structure State (Id : Type) where
  config : ProcConfig
  tempProcfsBuffer : List Byte
  place : Id → Place

def endOfPiece (b : Byte) : Bool := b == 44 || b == 0

/-- The index of the end of the piece, and `new_connection_string` with the piece. -/
def extractPiece (temp : List Byte) (start : Nat) (newConnectionString : Memory) : Except Violation (Nat × Memory) := do
  let connectionStringLength := (upTo endOfPiece (temp.drop start)).length + 1
  check .index (start + connectionStringLength ≤ temp.length)
  check .copy (connectionStringLength ≤ maxNewConnectionSize)
  let copied := (temp.drop start).take connectionStringLength
  return (start + connectionStringLength - 1,
    (copied ++ newConnectionString.drop connectionStringLength).set (connectionStringLength - 1) 0)

/-- The first step of `procfile_write`, with the value that it returns if it fails. -/
def storeText (w : WriteCall) (st : ProcConfig) : Except Violation (Option Int × ProcConfig) :=
  let st := { st with procfsBufferSize := w.buffer.length }
  if procfsMaxSize ≤ st.procfsBufferSize then return (some (-enospc), st)
  else
    let (left, copied) := copyFromUser w
    let st := { st with procfsBuffer := st.procfsBuffer.store 0 copied }
    if left ≠ 0 then return (some (-efault), st)
    else do
      check .wrap (1 ≤ st.procfsBufferSize)
      return (none, { st with procfsBuffer := st.procfsBuffer.store (st.procfsBufferSize - 1) [0] })

variable (writes : Id → WriteCall)

/-- The next step of a write. -/
def step (s : State Id) (id : Id) : Except Violation (Unit × State Id) :=
  let goes (place : Place) : Id → Place := Function.update s.place id place
  match s.place id with
  | .store => do
    let (failed, config) ← storeText (writes id) s.config
    let place : Place :=
      match failed with
      | some value => .returned value
      | none => .takeOver
    return ((), { s with config := config, place := goes place })
  | .takeOver => .ok ((), {
      config := initializeProcfsBuffer s.config
      tempProcfsBuffer := s.config.procfsBuffer.bytes
      place := goes .destroy })
  | .destroy => .ok ((), { s with
      config := destroyWhitelist s.config
      place := goes (.extract 0 (writes id).stack (writes id).kmalloc) })
  | .extract start newConnectionString kmalloc => do
    let (stop, newConnectionString) ← extractPiece s.tempProcfsBuffer start newConnectionString
    return ((), { s with place := goes (.call stop newConnectionString kmalloc) })
  | .call stop newConnectionString kmalloc =>
    let (_, config) := whitelistConfig (kmalloc 0) newConnectionString s.config
    .ok ((), { s with config := config, place := goes (.next stop newConnectionString fun i => kmalloc (i + 1)) })
  | .next stop newConnectionString kmalloc => do
    check .index (stop < s.tempProcfsBuffer.length)
    if s.tempProcfsBuffer.getD stop 0 = 0 then return ((), { s with place := goes .clear })
    else
      let (stop, newConnectionString) ← extractPiece s.tempProcfsBuffer (stop + 1) newConnectionString
      return ((), { s with place := goes (.call stop newConnectionString kmalloc) })
  | .clear => .ok ((), { s with
      tempProcfsBuffer := List.replicate procfsMaxSize 0
      place := goes (.returned (writes id).buffer.length) })
  | .returned _ => .ok ((), s)

/-! ## What is to hold -/

/-- The writes are about to begin, over any configuration. -/
def start (st : ProcConfig) : State Id := ⟨st, List.replicate procfsMaxSize 0, fun _ => .store⟩

/-- A text that is taken over whole, with pieces that fit `new_connection_string`. -/
structure Valid (w : WriteCall) : Prop where
  nonempty : 1 ≤ w.buffer.length
  fits : w.buffer.length < procfsMaxSize
  readable : w.buffer.length ≤ w.readable
  short : ∀ piece ∈ writtenPieces w, piece.length < maxNewConnectionSize

def Place.isReturned : Place → Bool
  | .returned _ => true
  | _ => false

/-- Every write has returned. -/
def State.Finished (s : State Id) : Prop := ∀ id, (s.place id).isReturned = true

/-- What two writes leave that run one after the other, in one of the two orders. -/
def InTurn (writes : Bool → WriteCall) (st : ProcConfig) (whiteList : List Connection) : Prop :=
  ∃ first code code' st₁ st₂, procfileWrite (writes first) st = .ok (code, st₁) ∧
    procfileWrite (writes !first) st₁ = .ok (code', st₂) ∧ whiteList = st₂.whiteList

/-- The run completes, and once both writes have returned the list is the one of the two in turn. -/
def Serialisable (writes : Bool → WriteCall) (st : ProcConfig) (ops : List Bool) : Prop :=
  ∃ s, Reaches (step writes) (start st) ops s ∧ (s.Finished → InTurn writes st s.config.whiteList)

/-- How the next step of a write disturbs: it stores over the text of another one, or copies to `temp_procfs_buffer`
or clears it while another one takes out its pieces. -/
def DisturbsAt (s : State Id) (id : Id) : Place → Prop
  | .store => ∃ other, other ≠ id ∧ (s.place other).stored = true
  | .takeOver => ∃ other, other ≠ id ∧ (s.place other).scanning = true
  | .clear => ∃ other, other ≠ id ∧ (s.place other).scanning = true
  | _ => False

def Disturbs (s : State Id) (id : Id) : Prop := DisturbsAt s id (s.place id)

instance [Fintype Id] (s : State Id) (id : Id) : (place : Place) → Decidable (DisturbsAt s id place)
  | .store => inferInstanceAs (Decidable (∃ other, other ≠ id ∧ (s.place other).stored = true))
  | .takeOver => inferInstanceAs (Decidable (∃ other, other ≠ id ∧ (s.place other).scanning = true))
  | .clear => inferInstanceAs (Decidable (∃ other, other ≠ id ∧ (s.place other).scanning = true))
  | .call _ _ _ => inferInstanceAs (Decidable False)
  | .destroy => inferInstanceAs (Decidable False)
  | .extract _ _ _ => inferInstanceAs (Decidable False)
  | .next _ _ _ => inferInstanceAs (Decidable False)
  | .returned _ => inferInstanceAs (Decidable False)

instance [Fintype Id] (s : State Id) (id : Id) : Decidable (Disturbs s id) :=
  inferInstanceAs (Decidable (DisturbsAt s id (s.place id)))

/-! ## The list of a text -/

/-- The list after `whitelist` on one piece after the other. -/
def listPieces : (kmalloc : Nat → Bool) → Memory → List (List Byte) → List Connection → List Connection
  | _, _, [], whiteList => whiteList
  | kmalloc, stack, piece :: pieces, whiteList =>
    let newConnectionString := piece ++ 0 :: stack.drop (piece.length + 1)
    listPieces (fun i => kmalloc (i + 1)) newConnectionString pieces
      (whitelist (kmalloc 0) newConnectionString whiteList).2

/-- The list of a write on its own. -/
def listOf (w : WriteCall) : List Connection := listPieces w.kmalloc w.stack (writtenPieces w) []

/-- The list of a call with the proc buffer is that of the call without it. -/
theorem whitelistConfig_list (kmalloc : Bool) (mem : Memory) (st : ProcConfig) :
    (whitelistConfig kmalloc mem st).2.whiteList = (whitelist kmalloc mem st.whiteList).2 := by
  rw [whitelistConfig]
  rcases whitelist_cases kmalloc mem st.whiteList with failed | ⟨c, -, -, -, listed⟩
  · rw [failed]
    rfl
  · rw [listed]
    simp

/-- The calls behind the first one. -/
theorem whitelistPieces_rest {kmalloc : Nat → Bool} {stack : Memory} {piece : List Byte} {pieces : List (List Byte)}
    {st st' : ProcConfig} (completes : whitelistPieces kmalloc stack (piece :: pieces) st = .ok st') :
    whitelistPieces (fun i => kmalloc (i + 1)) (piece ++ 0 :: stack.drop (piece.length + 1)) pieces
      (whitelistConfig (kmalloc 0) (piece ++ 0 :: stack.drop (piece.length + 1)) st).2 = .ok st' := by
  by_cases short : piece.length < maxNewConnectionSize
  · rwa [whitelistPieces_cons short] at completes
  · rw [whitelistPieces_cons_long short] at completes
    cases completes

theorem whitelistPieces_list {kmalloc : Nat → Bool} {stack : Memory} {pieces : List (List Byte)} {st st' : ProcConfig}
    (completes : whitelistPieces kmalloc stack pieces st = .ok st') :
    st'.whiteList = listPieces kmalloc stack pieces st.whiteList := by
  induction pieces generalizing kmalloc stack st with
  | nil =>
    cases completes
    rfl
  | cons piece pieces ih => rw [ih (whitelistPieces_rest completes), listPieces, whitelistConfig_list]

/-- A valid write leaves its list, over any configuration. -/
theorem procfileWrite_list {w : WriteCall} (valid : Valid w) (st : ProcConfig) :
    ∃ code st', procfileWrite w st = .ok (code, st') ∧ st'.whiteList = listOf w := by
  obtain ⟨strings, whiteList, -, -, completes⟩ :=
    procfileWrite_shown st valid.nonempty valid.fits valid.readable valid.short
  refine ⟨_, _, completes, ?_⟩
  rw [procfileWrite_accepted st valid.nonempty valid.fits valid.readable] at completes
  cases result : whitelistPieces w.kmalloc w.stack (writtenPieces w) (shownConfig [] []) with
  | error violation =>
    rw [result] at completes
    cases completes
  | ok st' =>
    rw [result] at completes
    cases completes
    exact whitelistPieces_list result

/-! ## The text in `procfs_buffer` -/

/-- The text of a write and its terminator stand in front of what is appended. -/
structure StoredText (w : WriteCall) (config : ProcConfig) : Prop where
  begins : writtenText w ++ [0] <+: config.procfsBuffer.bytes
  covered : (writtenText w).length + 1 ≤ config.procfsBufferSize
  small : config.procfsBufferSize ≤ procfsMaxSize + maxNewConnectionSize

theorem writtenText_length {w : WriteCall} (nonempty : 1 ≤ w.buffer.length) :
    (writtenText w).length + 1 ≤ w.buffer.length := by
  have bound := (List.takeWhile_prefix (p := fun b : Byte => b != 0) (l := w.buffer.dropLast)).length_le
  rw [List.length_dropLast] at bound
  unfold writtenText text
  omega

theorem storeText_accepted {w : WriteCall} (st : ProcConfig) (nonempty : 1 ≤ w.buffer.length)
    (fits : w.buffer.length < procfsMaxSize) (readable : w.buffer.length ≤ w.readable) :
    ∃ st', storeText w st = .ok (none, st') ∧ StoredText w st' ∧ st'.whiteList = st.whiteList := by
  obtain ⟨junk, bytes⟩ := written_bytes st.procfsBuffer nonempty fits
  rw [storeText, copyFromUser_readable readable]
  simp only [if_neg (show ¬ procfsMaxSize ≤ w.buffer.length from Nat.not_le.2 fits),
    if_neg (show ¬ (0 : Nat) ≠ 0 by simp), check_ok nonempty]
  refine ⟨_, rfl, ⟨⟨junk, ?_⟩, writtenText_length nonempty, Nat.le_add_right_of_le (Nat.le_of_lt fits)⟩, rfl⟩
  rw [List.append_assoc]
  exact bytes.symm

/-- What is appended goes behind the text, or nowhere. -/
theorem StoredText.append {w : WriteCall} {config : ProcConfig} {connectionString : List Byte}
    (stored : StoredText w config) (short : connectionString.length < maxNewConnectionSize) :
    StoredText w (addConnectionStringToProcConfig connectionString config) := by
  have covered := stored.covered
  by_cases small : config.procfsBufferSize ≤ procfsMaxSize
  case neg =>
    have limit := stored.small
    unfold procfsMaxSize maxNewConnectionSize at limit
    rwa [addConnectionStringToProcConfig_full _ (Nat.not_le.1 small) (by omega)]
  have size : ulong (config.procfsBufferSize + (connectionString.length + 1)) =
      config.procfsBufferSize + (connectionString.length + 1) := by
    unfold maxNewConnectionSize at short
    unfold procfsMaxSize at small
    have := ulong_of_lt (x := config.procfsBufferSize + (connectionString.length + 1)) (by omega)
    push_cast at this
    exact this
  rw [addConnectionStringToProcConfig_room _ small]
  constructor
  · simp only [Buffer.snprintfAt]
    split
    · exact stored.begins
    rename_i room
    have fits : config.procfsBufferSize +
        ((connectionString ++ [44]).take (procfsMaxSize - config.procfsBufferSize - 1) ++ [0]).length ≤ procfsMaxSize := by
      rw [List.length_append, List.length_take, List.length_singleton]
      omega
    rw [Buffer.store_bytes _ fits]
    apply List.IsPrefix.trans _ (List.prefix_append _ _)
    exact List.prefix_take_iff.2 ⟨stored.begins, by rw [List.length_append, List.length_singleton]; omega⟩
  · simp only [size]
    omega
  · simp only [size]
    omega

/-- A call of `whitelist` keeps a stored text. -/
theorem StoredText.called {w : WriteCall} {st : ProcConfig} {kmalloc : Bool} {mem : Memory}
    (stored : StoredText w st) (short : (text mem).length < maxNewConnectionSize) :
    StoredText w (whitelistConfig kmalloc mem st).2 := by
  rcases whitelistConfig_cases kmalloc mem st with ⟨-, result⟩ | ⟨c, -, -, result⟩
  · rw [result]
    exact stored
  · rw [result]
    have before : StoredText w { st with whiteList := st.whiteList ++ [c] } := ⟨stored.begins, stored.covered, stored.small⟩
    exact before.append short

/-! ## Pieces -/

/-- The text from an index on is made of these pieces. -/
def Left (temp : List Byte) (start : Nat) (pieces : List (List Byte)) : Prop :=
  ∃ t junk, temp.drop start = t ++ 0 :: junk ∧ NulFree t ∧ pieces = t.splitOn 44

/-- A piece ends at the index, and these are behind it. -/
def Stops (temp : List Byte) (stop : Nat) (pieces : List (List Byte)) : Prop :=
  stop < temp.length ∧
    (temp.getD stop 0 = 0 ∧ pieces = [] ∨ temp.getD stop 0 = 44 ∧ Left temp (stop + 1) pieces)

/-- The copy of a stored text is made of the pieces of the write. -/
theorem StoredText.left {w : WriteCall} {config : ProcConfig} (stored : StoredText w config) :
    Left config.procfsBuffer.bytes 0 (writtenPieces w) := by
  obtain ⟨junk, bytes⟩ := stored.begins
  exact ⟨writtenText w, junk, by rw [List.drop_zero, ← bytes]; simp, nulFree_text _, rfl⟩

theorem getD_of_drop {temp rest : List Byte} {start : Nat} {piece : List Byte} {b : Byte}
    (place : temp.drop start = piece ++ b :: rest) :
    start + piece.length < temp.length ∧ temp.getD (start + piece.length) 0 = b ∧
      temp.drop (start + piece.length + 1) = rest := by
  have length := congrArg List.length place
  rw [List.length_drop, List.length_append, List.length_cons] at length
  refine ⟨by omega, ?_, ?_⟩
  · have here : (temp.drop start)[piece.length]? = some b := by
      rw [place]
      simp
    rw [List.getElem?_drop] at here
    rw [List.getD_eq_getElem?_getD, here]
    rfl
  · rw [Nat.add_assoc, ← List.drop_drop, place, List.drop_append, List.drop_eq_nil_of_le (by omega)]
    simp

/-- A piece that fits is taken out with its terminator. -/
theorem extractPiece_at {temp rest : List Byte} {start : Nat} {piece : List Byte} {b : Byte}
    (place : temp.drop start = piece ++ b :: rest) (ends : endOfPiece b = true)
    (inside : ∀ c ∈ piece, endOfPiece c = false) (short : piece.length < maxNewConnectionSize) (mem : Memory) :
    extractPiece temp start mem = .ok (start + piece.length, piece ++ 0 :: mem.drop (piece.length + 1)) := by
  obtain ⟨bound, -, -⟩ := getD_of_drop place
  have scanned : (upTo endOfPiece (temp.drop start)).length = piece.length := by
    rw [place, upTo_delimited inside ends]
  rw [extractPiece]
  simp only [scanned]
  rw [check_ok (show start + (piece.length + 1) ≤ temp.length by omega), check_ok (show piece.length + 1 ≤ _ from short)]
  simp only [copied_piece place mem]
  rfl

theorem extractPiece_left {temp : List Byte} {start : Nat} {pieces : List (List Byte)} (left : Left temp start pieces)
    (short : ∀ p ∈ pieces, p.length < maxNewConnectionSize) (mem : Memory) :
    ∃ piece rest stop, pieces = piece :: rest ∧ Stops temp stop rest ∧ NulFree piece ∧
      extractPiece temp start mem = .ok (stop, piece ++ 0 :: mem.drop (piece.length + 1)) := by
  obtain ⟨t, junk, place, free, rfl⟩ := left
  by_cases comma : 44 ∈ t
  · obtain ⟨piece, rest, rfl, inside⟩ := List.eq_append_cons_of_mem comma
    obtain ⟨freePiece, freeRest⟩ := nulFree_append.1 free
    rw [List.splitOn_append_cons_self_of_not_mem inside] at short ⊢
    rw [List.append_assoc, List.cons_append] at place
    obtain ⟨bound, here, behind⟩ := getD_of_drop place
    have plain : ∀ c ∈ piece, endOfPiece c = false := by
      intro c member
      have := freePiece c member
      have : c ≠ 44 := fun same => inside (same ▸ member)
      simp [endOfPiece, *]
    refine ⟨piece, _, _, rfl, ⟨bound, .inr ⟨here, rest, junk, behind, (nulFree_cons.1 freeRest).2, rfl⟩⟩, freePiece, ?_⟩
    exact extractPiece_at place rfl plain (short piece List.mem_cons_self) mem
  · rw [List.splitOn_eq_singleton comma] at short ⊢
    obtain ⟨bound, here, -⟩ := getD_of_drop place
    have plain : ∀ c ∈ t, endOfPiece c = false := by
      intro c member
      have := free c member
      have : c ≠ 44 := fun same => comma (same ▸ member)
      simp [endOfPiece, *]
    refine ⟨t, [], _, rfl, ⟨bound, .inl ⟨here, rfl⟩⟩, free, ?_⟩
    exact extractPiece_at place rfl plain (short t List.mem_cons_self) mem

/-! ## Steps -/

section Steps

variable (writes : Id → WriteCall) {s : State Id} {id : Id} {stop : Nat} {newConnectionString : Memory}
  {kmalloc : Nat → Bool}

theorem step_store {config : ProcConfig} (stands : s.place id = .store)
    (stored : storeText (writes id) s.config = .ok (none, config)) :
    step writes s id = .ok ((), { s with config := config, place := Function.update s.place id .takeOver }) := by
  rw [step, stands]
  simp only [stored]
  rfl

/-- The call fails. -/
theorem step_reject {config : ProcConfig} {value : Int} (stands : s.place id = .store)
    (failed : storeText (writes id) s.config = .ok (some value, config)) :
    step writes s id = .ok ((), { s with config := config, place := Function.update s.place id (.returned value) }) := by
  rw [step, stands]
  simp only [failed]
  rfl

theorem step_takeOver (stands : s.place id = .takeOver) :
    step writes s id = .ok ((), ⟨initializeProcfsBuffer s.config, s.config.procfsBuffer.bytes,
      Function.update s.place id .destroy⟩) := by
  rw [step, stands]

theorem step_destroy (stands : s.place id = .destroy) :
    step writes s id = .ok ((), { s with
      config := destroyWhitelist s.config
      place := Function.update s.place id (.extract 0 (writes id).stack (writes id).kmalloc) }) := by
  rw [step, stands]

theorem step_extract {start : Nat} {copied : Memory} (stands : s.place id = .extract start newConnectionString kmalloc)
    (taken : extractPiece s.tempProcfsBuffer start newConnectionString = .ok (stop, copied)) :
    step writes s id = .ok ((), { s with place := Function.update s.place id (.call stop copied kmalloc) }) := by
  rw [step, stands]
  simp only [taken]
  rfl

theorem step_call (stands : s.place id = .call stop newConnectionString kmalloc) :
    step writes s id = .ok ((), { s with
      config := (whitelistConfig (kmalloc 0) newConnectionString s.config).2
      place := Function.update s.place id (.next stop newConnectionString fun i => kmalloc (i + 1)) }) := by
  rw [step, stands]

/-- The text goes on behind a comma. -/
theorem step_next {stop' : Nat} {copied : Memory} (stands : s.place id = .next stop newConnectionString kmalloc)
    (bound : stop < s.tempProcfsBuffer.length) (comma : s.tempProcfsBuffer.getD stop 0 = 44)
    (taken : extractPiece s.tempProcfsBuffer (stop + 1) newConnectionString = .ok (stop', copied)) :
    step writes s id = .ok ((), { s with place := Function.update s.place id (.call stop' copied kmalloc) }) := by
  rw [step, stands]
  simp only [check_ok bound, comma, taken]
  rfl

theorem step_last (stands : s.place id = .next stop newConnectionString kmalloc)
    (bound : stop < s.tempProcfsBuffer.length) (last : s.tempProcfsBuffer.getD stop 0 = 0) :
    step writes s id = .ok ((), { s with place := Function.update s.place id .clear }) := by
  rw [step, stands]
  simp only [check_ok bound, last]
  rfl

theorem step_clear (stands : s.place id = .clear) :
    step writes s id = .ok ((), { s with
      tempProcfsBuffer := List.replicate procfsMaxSize 0
      place := Function.update s.place id (.returned (writes id).buffer.length) }) := by
  rw [step, stands]

/-- The calls of a write that runs on its own, from the first one on. -/
theorem calls_alone {pieces : List (List Byte)} {config' : ProcConfig} (stops : Stops s.tempProcfsBuffer stop pieces)
    (stands : s.place id = .call stop newConnectionString kmalloc)
    (later : whitelistPieces (fun i => kmalloc (i + 1)) newConnectionString pieces
      (whitelistConfig (kmalloc 0) newConnectionString s.config).2 = .ok config') :
    ∃ n s', Reaches (step writes) s (List.replicate n id) s' ∧ s'.config = config' ∧ s'.place id = .clear := by
  induction pieces generalizing s stop newConnectionString kmalloc with
  | nil =>
    obtain ⟨bound, ⟨last, -⟩ | ⟨-, t, junk, -, -, impossible⟩⟩ := stops
    · cases later
      have first := step_call writes stands
      let config := (whitelistConfig (kmalloc 0) newConnectionString s.config).2
      let places := Function.update s.place id (.next stop newConnectionString fun i => kmalloc (i + 1))
      have second := step_last writes (s := ⟨config, s.tempProcfsBuffer, places⟩) (Function.update_self ..) bound last
      exact ⟨2, _, reaches_cons.2 ⟨_, _, first, reaches_cons.2 ⟨_, _, second, reaches_nil.2 rfl⟩⟩, rfl,
        Function.update_self ..⟩
    · exact absurd impossible.symm (List.splitOn_ne_nil 44 t)
  | cons piece pieces ih =>
    obtain ⟨bound, ⟨-, impossible⟩ | ⟨comma, left⟩⟩ := stops
    · cases impossible
    have short : ∀ p ∈ piece :: pieces, p.length < maxNewConnectionSize := by
      intro p member
      exact Nat.not_le.1 fun long => whitelistPieces_long ⟨p, member, long⟩ _ _ _ _ later
    obtain ⟨piece', rest, stop', same, stops, -, taken⟩ := extractPiece_left left short newConnectionString
    cases same
    have first := step_call writes stands
    let config := (whitelistConfig (kmalloc 0) newConnectionString s.config).2
    let places := Function.update s.place id (.next stop newConnectionString fun i => kmalloc (i + 1))
    have second := step_next writes (s := ⟨config, s.tempProcfsBuffer, places⟩) (Function.update_self ..) bound comma taken
    let copied := piece ++ 0 :: newConnectionString.drop (piece.length + 1)
    let places' := Function.update places id (.call stop' copied fun i => kmalloc (i + 1))
    obtain ⟨n, s', reaches, done, ends⟩ :=
      ih (s := ⟨config, s.tempProcfsBuffer, places'⟩) stops (Function.update_self ..) (whitelistPieces_rest later)
    exact ⟨n + 2, s', reaches_cons.2 ⟨_, _, first, reaches_cons.2 ⟨_, _, second, reaches⟩⟩, done, ends⟩

/-- A write that is not rejected. -/
theorem accepted_alone (stands : s.place id = .store) (nonempty : 1 ≤ (writes id).buffer.length)
    (fits : (writes id).buffer.length < procfsMaxSize) (readable : (writes id).buffer.length ≤ (writes id).readable)
    {config' : ProcConfig} (completes : whitelistPieces (writes id).kmalloc (writes id).stack (writtenPieces (writes id))
      (shownConfig [] []) = .ok config') :
    ∃ n s', Reaches (step writes) s (List.replicate n id) s' ∧ s'.config = config' ∧
      s'.place id = .returned (writes id).buffer.length := by
  obtain ⟨config, stored, text, -⟩ := storeText_accepted s.config nonempty fits readable
  have short : ∀ p ∈ writtenPieces (writes id), p.length < maxNewConnectionSize := by
    intro p member
    exact Nat.not_le.1 fun long => whitelistPieces_long ⟨p, member, long⟩ _ _ _ _ completes
  obtain ⟨piece, rest, stop, pieces, stops, -, taken⟩ := extractPiece_left text.left short (writes id).stack
  rw [pieces] at completes
  have later := whitelistPieces_rest completes
  rw [← cleared_eq config] at later
  let s₁ : State Id := ⟨config, s.tempProcfsBuffer, Function.update s.place id .takeOver⟩
  let s₂ : State Id := ⟨initializeProcfsBuffer config, config.procfsBuffer.bytes, Function.update s₁.place id .destroy⟩
  let s₃ : State Id := ⟨destroyWhitelist s₂.config, s₂.tempProcfsBuffer,
    Function.update s₂.place id (.extract 0 (writes id).stack (writes id).kmalloc)⟩
  let s₄ : State Id := ⟨s₃.config, s₃.tempProcfsBuffer, Function.update s₃.place id
    (.call stop (piece ++ 0 :: (writes id).stack.drop (piece.length + 1)) (writes id).kmalloc)⟩
  have first : step writes s id = .ok ((), s₁) := step_store writes stands stored
  have second : step writes s₁ id = .ok ((), s₂) := step_takeOver writes (Function.update_self ..)
  have third : step writes s₂ id = .ok ((), s₃) := step_destroy writes (Function.update_self ..)
  have fourth : step writes s₃ id = .ok ((), s₄) := step_extract writes (Function.update_self ..) taken
  obtain ⟨n, s', reaches, done, ends⟩ := calls_alone writes (s := s₄) stops (Function.update_self ..) later
  have last := reaches_append.2 ⟨s', reaches, reaches_cons.2 ⟨_, _, step_clear writes ends, reaches_nil.2 rfl⟩⟩
  rw [← List.replicate_succ'] at last
  exact ⟨n + 1 + 4, _, reaches_cons.2 ⟨_, _, first, reaches_cons.2 ⟨_, _, second, reaches_cons.2 ⟨_, _, third,
    reaches_cons.2 ⟨_, _, fourth, last⟩⟩⟩⟩, done, Function.update_self ..⟩

/-- **The steps of a write that runs on its own are `procfile_write`.** -/
theorem write_alone {code : Int} {st' : ProcConfig} (stands : s.place id = .store)
    (completes : procfileWrite (writes id) s.config = .ok (code, st')) :
    ∃ n s', Reaches (step writes) s (List.replicate n id) s' ∧ s'.config = st' ∧ s'.place id = .returned code := by
  by_cases full : procfsMaxSize ≤ (writes id).buffer.length
  · have failed : storeText (writes id) s.config =
        .ok (some (-enospc), { s.config with procfsBufferSize := (writes id).buffer.length }) := by
      rw [storeText, if_pos full]
      rfl
    rw [procfileWrite_enospc _ full] at completes
    cases completes
    exact ⟨1, _, reaches_cons.2 ⟨_, _, step_reject writes stands failed, reaches_nil.2 rfl⟩, rfl, Function.update_self ..⟩
  have fits := Nat.not_le.1 full
  by_cases fault : (writes id).readable < (writes id).buffer.length
  · have left : (copyFromUser (writes id)).1 ≠ 0 := by
      simp only [copyFromUser, List.length_take]
      omega
    have failed : storeText (writes id) s.config = .ok (some (-efault), { s.config with
        procfsBuffer := s.config.procfsBuffer.store 0 (copyFromUser (writes id)).2
        procfsBufferSize := (writes id).buffer.length }) := by
      rw [storeText, if_neg full]
      simp only [if_pos left]
      rfl
    rw [procfileWrite_efault _ fits fault] at completes
    cases completes
    exact ⟨1, _, reaches_cons.2 ⟨_, _, step_reject writes stands failed, reaches_nil.2 rfl⟩, rfl, Function.update_self ..⟩
  have readable := Nat.not_lt.1 fault
  by_cases empty : (writes id).buffer.length = 0
  · rw [procfileWrite_empty _ empty] at completes
    cases completes
  have nonempty := Nat.one_le_iff_ne_zero.2 empty
  rw [procfileWrite_accepted _ nonempty fits readable] at completes
  cases result : whitelistPieces (writes id).kmalloc (writes id).stack (writtenPieces (writes id)) (shownConfig [] []) with
  | error violation =>
    rw [result] at completes
    cases completes
  | ok st₁ =>
    rw [result] at completes
    cases completes
    exact accepted_alone writes stands nonempty fits readable result

end Steps

/-! ## The invariant -/

def Short (pieces : List (List Byte)) : Prop := ∀ piece ∈ pieces, piece.length < maxNewConnectionSize

/-- What is in `temp_procfs_buffer` and in the list leads to the list of the write. -/
def Scans (w : WriteCall) (temp : List Byte) (whiteList : List Connection) : Place → Prop
  | .destroy => Left temp 0 (writtenPieces w)
  | .extract start newConnectionString kmalloc => ∃ pieces, Left temp start pieces ∧ Short pieces ∧
      listPieces kmalloc newConnectionString pieces whiteList = listOf w
  | .call stop newConnectionString kmalloc => (text newConnectionString).length < maxNewConnectionSize ∧
      ∃ pieces, Stops temp stop pieces ∧ Short pieces ∧
        listPieces (fun i => kmalloc (i + 1)) newConnectionString pieces
          (whitelist (kmalloc 0) newConnectionString whiteList).2 = listOf w
  | .next stop newConnectionString kmalloc => ∃ pieces, Stops temp stop pieces ∧ Short pieces ∧
      listPieces kmalloc newConnectionString pieces whiteList = listOf w
  | _ => True

theorem scans_of_idle {place : Place} (idle : place.scanning = false) (w : WriteCall) (temp : List Byte)
    (whiteList : List Connection) : Scans w temp whiteList place := by
  cases place with
  | destroy => cases idle
  | extract start newConnectionString kmalloc => cases idle
  | call stop newConnectionString kmalloc => cases idle
  | next stop newConnectionString kmalloc => cases idle
  | _ => trivial

/-- The next piece is taken out, and a call with it leads to the list of the write. -/
theorem extractPiece_scans {w : WriteCall} {temp : List Byte} {whiteList : List Connection} {start : Nat}
    {newConnectionString : Memory} {kmalloc : Nat → Bool} {pieces : List (List Byte)} (left : Left temp start pieces)
    (short : Short pieces) (leads : listPieces kmalloc newConnectionString pieces whiteList = listOf w) :
    ∃ stop copied, extractPiece temp start newConnectionString = .ok (stop, copied) ∧
      Scans w temp whiteList (.call stop copied kmalloc) := by
  obtain ⟨piece, rest, stop, rfl, stops, free, taken⟩ := extractPiece_left left short newConnectionString
  refine ⟨stop, _, taken, ?_, rest, stops, fun p member => short p (List.mem_cons_of_mem _ member), leads⟩
  rw [text_terminated free]
  exact short piece List.mem_cons_self

variable {writes : Id → WriteCall} {s : State Id} {id : Id}

structure Sound (writes : Id → WriteCall) (s : State Id) : Prop where
  oneStored : ∀ a b, (s.place a).stored = true → (s.place b).stored = true → a = b
  stored : ∀ id, (s.place id).stored = true → StoredText (writes id) s.config
  oneScans : ∀ a b, (s.place a).scanning = true → (s.place b).scanning = true → a = b
  scans : ∀ id, Scans (writes id) s.tempProcfsBuffer s.config.whiteList (s.place id)
  settled : (∀ id, (s.place id).scanning = false) → (∃ id, (s.place id).waiting = false) →
    ∃ id, s.config.whiteList = listOf (writes id)

omit [DecidableEq Id] in
theorem start_sound (writes : Id → WriteCall) (st : ProcConfig) : Sound writes (start st) where
  oneStored _ _ stands := by cases stands
  stored _ stands := by cases stands
  oneScans _ _ scanning := by cases scanning
  scans _ := trivial
  settled _ ahead := by
    obtain ⟨id, ahead⟩ := ahead
    cases ahead

/-- Where at most one write is at such a place, it stays so if a write goes there alone. -/
theorem one_update {p : Place → Prop} {places : Id → Place} (one : ∀ a b, p (places a) → p (places b) → a = b)
    {place : Place} (alone : p place → ∀ other, other ≠ id → ¬ p (places other)) (a b : Id)
    (there : p (Function.update places id place a)) (there' : p (Function.update places id place b)) : a = b := by
  by_cases first : a = id <;> by_cases second : b = id
  · rw [first, second]
  · rw [first, Function.update_self] at there
    rw [Function.update_of_ne second] at there'
    exact absurd there' (alone there b second)
  · rw [second, Function.update_self] at there'
    rw [Function.update_of_ne first] at there
    exact absurd there (alone there' a first)
  · rw [Function.update_of_ne first] at there
    rw [Function.update_of_ne second] at there'
    exact one a b there there'

/-- What a step has to leave of the invariant. -/
theorem Sound.move (sound : Sound writes s) {config : ProcConfig} {temp : List Byte} {place : Place}
    (oneStored : place.stored = true → ∀ other, other ≠ id → (s.place other).stored ≠ true)
    (stored : place.stored = true → StoredText (writes id) config)
    (othersStored : ∀ other, other ≠ id → (s.place other).stored = true → StoredText (writes other) config)
    (oneScans : place.scanning = true → ∀ other, other ≠ id → (s.place other).scanning ≠ true)
    (scans : Scans (writes id) temp config.whiteList place)
    (othersScan : ∀ other, other ≠ id → Scans (writes other) temp config.whiteList (s.place other))
    (settled : place.scanning = false → (∀ other, other ≠ id → (s.place other).scanning = false) →
      place.waiting = false ∨ (∃ other, other ≠ id ∧ (s.place other).waiting = false) →
      ∃ id, config.whiteList = listOf (writes id)) :
    Sound writes ⟨config, temp, Function.update s.place id place⟩ where
  oneStored := one_update (p := (·.stored = true)) sound.oneStored oneStored
  stored := (Function.forall_update_iff s.place fun other place => place.stored = true → StoredText (writes other) config).2
    ⟨stored, othersStored⟩
  oneScans := one_update (p := (·.scanning = true)) sound.oneScans oneScans
  scans := (Function.forall_update_iff s.place fun other place => Scans (writes other) temp config.whiteList place).2
    ⟨scans, othersScan⟩
  settled idle ahead := by
    obtain ⟨mine, theirs⟩ := (Function.forall_update_iff s.place fun _ place => place.scanning = false).1 idle
    exact settled mine theirs ((Function.exists_update_iff s.place fun _ place => place.waiting = false).1 ahead)

omit [DecidableEq Id] in
/-- While one write takes out pieces, no other one does. -/
theorem Sound.others_idle (sound : Sound writes s) (scanning : (s.place id).scanning = true) (other : Id)
    (different : other ≠ id) : (s.place other).scanning ≠ true :=
  fun theirs => different (sound.oneScans other id theirs scanning)

omit [DecidableEq Id] in
theorem others_scan (idle : ∀ other, other ≠ id → (s.place other).scanning ≠ true) (temp : List Byte)
    (whiteList : List Connection) (other : Id) (different : other ≠ id) :
    Scans (writes other) temp whiteList (s.place other) :=
  scans_of_idle (Bool.eq_false_iff.2 (idle other different)) ..

/-- The first step of a write. -/
theorem store_sound (sound : Sound writes s) (valid : Valid (writes id)) (stands : s.place id = .store)
    (quiet : ¬ Disturbs s id) : ∃ answer s', step writes s id = .ok (answer, s') ∧ Sound writes s' := by
  obtain ⟨config, stored, text, list⟩ := storeText_accepted s.config valid.nonempty valid.fits valid.readable
  rw [Disturbs, stands] at quiet
  have alone : ∀ other, other ≠ id → (s.place other).stored ≠ true :=
    fun other different theirs => quiet ⟨other, different, theirs⟩
  refine ⟨_, _, step_store writes stands stored, ?_⟩
  apply sound.move
  · exact fun _ => alone
  · exact fun _ => text
  · exact fun other different theirs => absurd theirs (alone other different)
  · exact fun scanning => by cases scanning
  · trivial
  · intro other different
    rw [list]
    exact sound.scans other
  · intro _ idle ahead
    rw [list]
    apply sound.settled
    · intro other
      by_cases same : other = id
      · rw [same, stands]
        rfl
      · exact idle other same
    · rcases ahead with ahead | ⟨other, -, ahead⟩
      · cases ahead
      · exact ⟨other, ahead⟩

theorem takeOver_sound (sound : Sound writes s) (stands : s.place id = .takeOver) (quiet : ¬ Disturbs s id) :
    ∃ answer s', step writes s id = .ok (answer, s') ∧ Sound writes s' := by
  rw [Disturbs, stands] at quiet
  have idle : ∀ other, other ≠ id → (s.place other).scanning ≠ true :=
    fun other different theirs => quiet ⟨other, different, theirs⟩
  have stored : (s.place id).stored = true := by rw [stands]; rfl
  refine ⟨_, _, step_takeOver writes stands, ?_⟩
  apply sound.move
  · exact fun there => by cases there
  · exact fun there => by cases there
  · exact fun other different theirs => absurd (sound.oneStored other id theirs stored) different
  · exact fun _ => idle
  · exact (sound.stored id stored).left
  · exact others_scan idle _ _
  · exact fun scanning => by cases scanning

theorem destroy_sound (sound : Sound writes s) (valid : Valid (writes id)) (stands : s.place id = .destroy) :
    ∃ answer s', step writes s id = .ok (answer, s') ∧ Sound writes s' := by
  have scanning : (s.place id).scanning = true := by rw [stands]; rfl
  have idle := sound.others_idle scanning
  have left := sound.scans id
  rw [stands] at left
  refine ⟨_, _, step_destroy writes stands, ?_⟩
  apply sound.move
  · exact fun there => by cases there
  · exact fun there => by cases there
  · exact fun other _ theirs => ⟨(sound.stored other theirs).begins, (sound.stored other theirs).covered,
      (sound.stored other theirs).small⟩
  · exact fun _ => idle
  · exact ⟨_, left, valid.short, rfl⟩
  · exact others_scan idle _ _
  · exact fun scanning => by cases scanning

/-- A step that takes out a piece. -/
theorem Sound.extracted (sound : Sound writes s) (scanning : (s.place id).scanning = true) {stop : Nat} {copied : Memory}
    {kmalloc : Nat → Bool}
    (scans : Scans (writes id) s.tempProcfsBuffer s.config.whiteList (.call stop copied kmalloc)) :
    Sound writes { s with place := Function.update s.place id (.call stop copied kmalloc) } := by
  apply sound.move
  · exact fun there => by cases there
  · exact fun there => by cases there
  · exact fun other _ theirs => sound.stored other theirs
  · exact fun _ => sound.others_idle scanning
  · exact scans
  · exact fun other _ => sound.scans other
  · exact fun idle => by cases idle

theorem extract_sound (sound : Sound writes s) {start : Nat} {newConnectionString : Memory} {kmalloc : Nat → Bool}
    (stands : s.place id = .extract start newConnectionString kmalloc) :
    ∃ answer s', step writes s id = .ok (answer, s') ∧ Sound writes s' := by
  have scans := sound.scans id
  rw [stands] at scans
  obtain ⟨pieces, left, short, leads⟩ := scans
  obtain ⟨stop, copied, taken, later⟩ := extractPiece_scans left short leads
  exact ⟨_, _, step_extract writes stands taken, sound.extracted (by rw [stands]; rfl) later⟩

theorem call_sound (sound : Sound writes s) {stop : Nat} {newConnectionString : Memory} {kmalloc : Nat → Bool}
    (stands : s.place id = .call stop newConnectionString kmalloc) :
    ∃ answer s', step writes s id = .ok (answer, s') ∧ Sound writes s' := by
  have scanning : (s.place id).scanning = true := by rw [stands]; rfl
  have idle := sound.others_idle scanning
  have scans := sound.scans id
  rw [stands] at scans
  obtain ⟨fits, pieces, stops, short, leads⟩ := scans
  refine ⟨_, _, step_call writes stands, ?_⟩
  apply sound.move
  · exact fun there => by cases there
  · exact fun there => by cases there
  · exact fun other _ theirs => (sound.stored other theirs).called fits
  · exact fun _ => idle
  · refine ⟨pieces, stops, short, ?_⟩
    rw [whitelistConfig_list]
    exact leads
  · exact others_scan idle _ _
  · exact fun scanning => by cases scanning

theorem next_sound (sound : Sound writes s) {stop : Nat} {newConnectionString : Memory} {kmalloc : Nat → Bool}
    (stands : s.place id = .next stop newConnectionString kmalloc) :
    ∃ answer s', step writes s id = .ok (answer, s') ∧ Sound writes s' := by
  have scanning : (s.place id).scanning = true := by rw [stands]; rfl
  have idle := sound.others_idle scanning
  have scans := sound.scans id
  rw [stands] at scans
  obtain ⟨pieces, ⟨bound, ends⟩, short, leads⟩ := scans
  rcases ends with ⟨last, rfl⟩ | ⟨comma, left⟩
  · refine ⟨_, _, step_last writes stands bound last, ?_⟩
    apply sound.move
    · exact fun there => by cases there
    · exact fun there => by cases there
    · exact fun other _ theirs => sound.stored other theirs
    · exact fun there => by cases there
    · trivial
    · exact fun other _ => sound.scans other
    · exact fun _ _ _ => ⟨id, leads⟩
  · obtain ⟨stop', copied, taken, later⟩ := extractPiece_scans left short leads
    exact ⟨_, _, step_next writes stands bound comma taken, sound.extracted scanning later⟩

theorem clear_sound (sound : Sound writes s) (stands : s.place id = .clear) (quiet : ¬ Disturbs s id) :
    ∃ answer s', step writes s id = .ok (answer, s') ∧ Sound writes s' := by
  rw [Disturbs, stands] at quiet
  have idle : ∀ other, other ≠ id → (s.place other).scanning ≠ true :=
    fun other different theirs => quiet ⟨other, different, theirs⟩
  refine ⟨_, _, step_clear writes stands, ?_⟩
  apply sound.move
  · exact fun there => by cases there
  · exact fun there => by cases there
  · exact fun other _ theirs => sound.stored other theirs
  · exact fun there => by cases there
  · trivial
  · exact others_scan idle _ _
  · intro _ theirs _
    refine sound.settled (fun other => ?_) ⟨id, by rw [stands]; rfl⟩
    by_cases same : other = id
    · rw [same, stands]
      rfl
    · exact theirs other same

/-- **A step that does not disturb another write completes and keeps the invariant.** -/
theorem step_sound (valid : ∀ id, Valid (writes id)) (s : State Id) (id : Id) (sound : Sound writes s)
    (quiet : ¬ Disturbs s id) : ∃ answer s', step writes s id = .ok (answer, s') ∧ Sound writes s' := by
  cases stands : s.place id with
  | store => exact store_sound sound (valid id) stands quiet
  | takeOver => exact takeOver_sound sound stands quiet
  | destroy => exact destroy_sound sound (valid id) stands
  | extract start newConnectionString kmalloc => exact extract_sound sound stands
  | call stop newConnectionString kmalloc => exact call_sound sound stands
  | next stop newConnectionString kmalloc => exact next_sound sound stands
  | clear => exact clear_sound sound stands quiet
  | returned value => exact ⟨(), s, by rw [step, stands], sound⟩

theorem returned_idle {place : Place} (returned : place.isReturned = true) :
    place.scanning = false ∧ place.waiting = false := by
  cases place with
  | returned value => exact ⟨rfl, rfl⟩
  | _ => cases returned

/-- The writes of an undisturbed run leave the list of one of them. -/
theorem undisturbed_list (valid : ∀ id, Valid (writes id)) (st : ProcConfig) {ops : List Id}
    (undisturbed : Along (step writes) (fun s id => ¬ Disturbs s id) ops (start st)) :
    ∃ s, Reaches (step writes) (start st) ops s ∧
      (s.Finished → Nonempty Id → ∃ id, s.config.whiteList = listOf (writes id)) := by
  obtain ⟨s, reaches, sound⟩ := keeps_along (Sound writes) (step_sound valid) (start_sound writes st) undisturbed
  refine ⟨s, reaches, fun finished some => ?_⟩
  obtain ⟨id⟩ := some
  exact sound.settled (fun id => (returned_idle (finished id)).1) ⟨id, (returned_idle (finished id)).2⟩

/-- **Two valid writes are serialised in every run in which neither disturbs the other.** -/
theorem serialisable_of_undisturbed {writes : Bool → WriteCall} (valid : ∀ id, Valid (writes id)) (st : ProcConfig)
    {ops : List Bool} (undisturbed : Along (step writes) (fun s id => ¬ Disturbs s id) ops (start st)) :
    Serialisable writes st ops := by
  obtain ⟨s, reaches, settled⟩ := undisturbed_list valid st undisturbed
  refine ⟨s, reaches, fun finished => ?_⟩
  obtain ⟨last, list⟩ := settled finished ⟨true⟩
  obtain ⟨code, st₁, first, -⟩ := procfileWrite_list (valid !last) st
  obtain ⟨code', st₂, second, listed⟩ := procfileWrite_list (valid last) st₁
  exact ⟨!last, code, code', st₁, st₂, first, by rw [Bool.not_not]; exact second, list.trans listed.symm⟩

/-- The text with one string. -/
def oneString (name : String) : WriteCall := ⟨bytes name, 7, false, fun _ => true, []⟩

def twoWrites (second : Bool) : WriteCall := oneString (if second then "/bin/c\n" else "/bin/a\n")

theorem twoWrites_valid (id : Bool) : Valid (twoWrites id) := by
  constructor <;> revert id <;> decide +kernel

/-- The second write stores when the first one has taken over its text, and takes over when the first one is done. -/
theorem serialisable_stored_early : Serialisable twoWrites initialProcConfig
    (List.replicate 3 false ++ [true] ++ List.replicate 4 false ++ List.replicate 6 true) :=
  serialisable_of_undisturbed twoWrites_valid initialProcConfig (by decide +kernel)

/-- The second write runs between the extraction of the first one's string and the call with it. -/
def interleaved : List Bool := List.replicate 4 false ++ List.replicate 7 true ++ List.replicate 3 false

theorem serialisable_fails : ¬ ∀ writes st ops, (∀ id, Valid (writes id)) → Serialisable writes st ops := by
  intro claim
  obtain ⟨s, ⟨answers, ran⟩, inTurn⟩ := claim twoWrites initialProcConfig interleaved twoWrites_valid
  have ends : (run (step twoWrites) interleaved (start initialProcConfig)).toOption.map (fun r =>
      (r.2.config.whiteList.length, (r.2.place false).isReturned, (r.2.place true).isReturned)) =
        some (2, true, true) := by
    decide +kernel
  rw [ran] at ends
  obtain ⟨both, first, second⟩ : s.config.whiteList.length = 2 ∧ (s.place false).isReturned = true ∧
      (s.place true).isReturned = true := by
    simpa [Except.toOption] using ends
  obtain ⟨before, code, code', st₁, st₂, -, written, list⟩ := inTurn (Bool.forall_bool.2 ⟨first, second⟩)
  obtain ⟨_, _, written', one⟩ := procfileWrite_list (twoWrites_valid !before) st₁
  rw [written] at written'
  cases written'
  have single : ∀ id, (listOf (twoWrites id)).length = 1 := by decide +kernel
  rw [list, one, single] at both
  cases both

end Netlog.Concurrent
