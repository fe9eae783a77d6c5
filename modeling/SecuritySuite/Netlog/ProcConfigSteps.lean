import SecuritySuite.Foundation.Separated
import SecuritySuite.Netlog.ProcConfig
import Mathlib.Data.List.Forall2

/-!
# What the operations of the proc configuration do

One lemma for each operation. The loop of `update_whitelist` is the call of `whitelist` on one piece of
the text after the other (`whitelistPieces`), and a configuration whose buffer holds a text and nothing
else (`shownConfig`) is changed in closed form.
-/

namespace Netlog
set_option autoImplicit false
open CString Separated

/-- A configuration whose buffer holds a text, with zeros behind it. -/
def shownConfig (whiteList : List Connection) (t : List Byte) : ProcConfig :=
  ⟨whiteList, .ofText procfsMaxSize t, t.length⟩

/-- Why `whitelist` fails: the list is full, the string is malformed, or a stored connection equals
the one it names. -/
def Refused (kmalloc : Bool) (mem : Memory) (whiteList : List Connection) : Prop :=
  whiteList.length = maxWhitelistSize ∨
    ∀ c, initializeConnectionFromString kmalloc mem = some c → whiteList.any (connectionsAreEqual c) = true

theorem initializeProcfsBuffer_eq (st : ProcConfig) : initializeProcfsBuffer st = shownConfig st.whiteList [] := by
  rw [shownConfig, Buffer.ofText_nil]
  rfl

theorem initialProcConfig_eq : initialProcConfig = shownConfig [] [] := initializeProcfsBuffer_eq initialProcConfig

theorem createProcConfig_initial (entry : Bool) : (createProcConfig entry initialProcConfig).2 = shownConfig [] [] := by
  cases entry <;> exact initialProcConfig_eq

theorem cleared_eq (st : ProcConfig) : destroyWhitelist (initializeProcfsBuffer st) = shownConfig [] [] :=
  initialProcConfig_eq

@[simp] theorem check_ok {violation : Violation} {ok : Prop} [Decidable ok] (h : ok) :
    check violation ok = .ok () := if_pos h

@[simp] theorem check_error {violation : Violation} {ok : Prop} [Decidable ok] (h : ¬ ok) :
    check violation ok = .error violation := if_neg h

theorem ulong_of_lt {x : Nat} (small : x < 2 ^ 64) : ulong x = x := by
  unfold ulong
  omega

/-! ## Adding a string -/

theorem whitelistConfig_cases (kmalloc : Bool) (mem : Memory) (st : ProcConfig) :
    Refused kmalloc mem st.whiteList ∧ whitelistConfig kmalloc mem st = (whitelistFail, st) ∨
      ∃ c, ¬ Refused kmalloc mem st.whiteList ∧ initializeConnectionFromString kmalloc mem = some c ∧
        whitelistConfig kmalloc mem st = (whitelisted,
          addConnectionStringToProcConfig (text mem) { st with whiteList := st.whiteList ++ [c] }) := by
  by_cases refused : Refused kmalloc mem st.whiteList
  · refine .inl ⟨refused, ?_⟩
    rcases whitelist_cases kmalloc mem st.whiteList with failed | ⟨c, read, room, fresh, -⟩
    · rw [whitelistConfig, failed]
      rfl
    · rcases refused with full | equal
      · exact absurd full room
      · rw [equal c read] at fresh
        cases fresh
  · obtain ⟨room, fresh⟩ := not_or.1 refused
    obtain ⟨c, read, fresh⟩ : ∃ c, initializeConnectionFromString kmalloc mem = some c ∧
        ¬ st.whiteList.any (connectionsAreEqual c) = true := by simpa using fresh
    refine .inr ⟨c, refused, read, ?_⟩
    rw [whitelistConfig, whitelist, if_neg room, read]
    simp only [if_neg fresh, if_true]

@[simp] theorem addConnectionStringToProcConfig_whiteList (s : List Byte) (st : ProcConfig) :
    (addConnectionStringToProcConfig s st).whiteList = st.whiteList := rfl

/-- Where the size is not larger than the buffer, `snprintf` gets what is left. -/
theorem addConnectionStringToProcConfig_room (s : List Byte) {st : ProcConfig}
    (room : st.procfsBufferSize ≤ procfsMaxSize) :
    addConnectionStringToProcConfig s st = { st with
      procfsBuffer := st.procfsBuffer.snprintfAt st.procfsBufferSize (procfsMaxSize - st.procfsBufferSize) (s ++ [44])
      procfsBufferSize := ulong (st.procfsBufferSize + (s.length + 1)) } := by
  rw [addConnectionStringToProcConfig, Buffer.kernelSnprintfAt_room _ room]
  simp

/-- Where it is larger, `snprintf` does nothing. -/
theorem addConnectionStringToProcConfig_full (s : List Byte) {st : ProcConfig}
    (full : procfsMaxSize < st.procfsBufferSize) (word : st.procfsBufferSize < 2 ^ 64) :
    addConnectionStringToProcConfig s st = st := by
  have size : ulong (st.procfsBufferSize + (0 : Nat)) = st.procfsBufferSize := ulong_of_lt word
  rw [addConnectionStringToProcConfig, Buffer.kernelSnprintfAt_negative _ _ (by omega)]
  simp only [size]

/-- A string is appended with a comma behind it, where the text and its terminator fit. -/
theorem addConnectionStringToProcConfig_shown (whiteList : List Connection) {t s : List Byte}
    (fits : t.length + s.length + 1 < procfsMaxSize) :
    addConnectionStringToProcConfig s (shownConfig whiteList t) = shownConfig whiteList (t ++ (s ++ [44])) := by
  have room := Buffer.snprintfAt_ofText (n := procfsMaxSize) (s := t) (f := s ++ [44]) (by simp; omega)
  have size : ulong (t.length + (s.length + 1)) = (t ++ (s ++ [44])).length := by
    have := ulong_of_lt (x := t.length + (s.length + 1)) (by unfold procfsMaxSize at fits; omega)
    push_cast at this
    rw [this]
    simp
  rw [addConnectionStringToProcConfig_room _ (by simp only [shownConfig]; omega), shownConfig]
  simp only [room, size]
  rfl

/-- `whitelist` on a configuration that holds a text. -/
theorem whitelistConfig_shown (kmalloc : Bool) (whiteList : List Connection) {t s : List Byte}
    (free : NulFree s) (tail : Memory)
    (fits : Refused kmalloc (s ++ 0 :: tail) whiteList ∨ t.length + s.length + 1 < procfsMaxSize) :
    Refused kmalloc (s ++ 0 :: tail) whiteList ∧
        whitelistConfig kmalloc (s ++ 0 :: tail) (shownConfig whiteList t) =
          (whitelistFail, shownConfig whiteList t) ∨
      ∃ c, ¬ Refused kmalloc (s ++ 0 :: tail) whiteList ∧
        initializeConnectionFromString kmalloc (s ++ 0 :: tail) = some c ∧
        whitelistConfig kmalloc (s ++ 0 :: tail) (shownConfig whiteList t) =
          (whitelisted, shownConfig (whiteList ++ [c]) (t ++ (s ++ [44]))) := by
  refine (whitelistConfig_cases kmalloc (s ++ 0 :: tail) (shownConfig whiteList t)).imp id ?_
  intro accepts
  obtain ⟨c, admitted, read, result⟩ := accepts
  refine ⟨c, admitted, read, ?_⟩
  rw [result, text_terminated free]
  have appended := addConnectionStringToProcConfig_shown (whiteList ++ [c]) (fits.resolve_left admitted)
  rw [shownConfig] at appended
  simp only [shownConfig, appended]

/-! ## The pieces of a written text -/

/-- What `memcpy` and the terminator leave in `new_connection_string`. -/
theorem copied_piece {temp rest : List Byte} {piece : List Byte} {b : Byte} {start : Nat}
    (place : temp.drop start = piece ++ b :: rest) (stack : Memory) :
    ((temp.drop start).take (piece.length + 1) ++ stack.drop (piece.length + 1)).set (piece.length + 1 - 1) 0 =
      piece ++ 0 :: stack.drop (piece.length + 1) := by
  have copied : (temp.drop start).take (piece.length + 1) = piece ++ [b] := by
    rw [place, List.take_append, List.take_of_length_le (by omega)]
    simp
  rw [copied, List.append_assoc, Nat.add_sub_cancel, List.set_append_right _ _ (Nat.le_refl _)]
  simp

section Scan

variable {σ ε : Type}

/-- The calls on one piece after the other, each copied to the start of the same array. -/
def callPieces (lift : Violation → ε) (call : Bool → Memory → σ → Except ε (Int × σ)) :
    (kmalloc : Nat → Bool) → Memory → List (List Byte) → σ → Except ε σ
  | _, _, [], st => .ok st
  | kmalloc, stack, piece :: pieces, st =>
    if piece.length < maxNewConnectionSize then do
      let newConnectionString := piece ++ 0 :: stack.drop (piece.length + 1)
      let (_, st) ← call (kmalloc 0) newConnectionString st
      callPieces lift call (fun i => kmalloc (i + 1)) newConnectionString pieces st
    else .error (lift .copy)

/-- The scan with `start` at the beginning of a piece of which some bytes were passed. -/
theorem updateLoop_pieces (lift : Violation → ε) (call : Bool → Memory → σ → Except ε (Int × σ)) (temp : List Byte)
    {w piece junk : List Byte} (free : NulFree w) (inside : 44 ∉ piece) (kmalloc : Nat → Bool) (start : Nat)
    (place : temp.drop start = piece ++ (w ++ 0 :: junk)) (stack : Memory) (st : σ) :
    updateLoop lift call temp (w ++ 0 :: junk) kmalloc start piece.length stack st =
      callPieces lift call kmalloc stack ((piece ++ w).splitOn 44) st := by
  induction w generalizing piece start kmalloc stack st with
  | nil =>
    rw [List.nil_append] at place ⊢
    rw [List.append_nil, List.splitOn_eq_singleton inside, updateLoop, if_pos (.inr rfl), callPieces]
    simp only [copied_piece place]
    by_cases short : piece.length < maxNewConnectionSize
    · rw [if_pos (show piece.length + 1 ≤ maxNewConnectionSize from short), if_pos short]
      cases call (kmalloc 0) (piece ++ 0 :: stack.drop (piece.length + 1)) st <;> rfl
    · rw [if_neg (show ¬ piece.length + 1 ≤ maxNewConnectionSize from short), if_neg short]
  | cons b w ih =>
    obtain ⟨nul, freeRest⟩ := nulFree_cons.1 free
    rw [List.cons_append] at place ⊢
    by_cases comma : b = 44
    · subst comma
      have next : temp.drop (start + (piece.length + 1)) = [] ++ (w ++ 0 :: junk) := by
        rw [← List.drop_drop, place, List.drop_append, List.drop_eq_nil_of_le (by omega)]
        simp
      rw [List.splitOn_append_cons_self_of_not_mem inside, updateLoop, if_pos (.inl rfl), callPieces]
      simp only [copied_piece place]
      by_cases short : piece.length < maxNewConnectionSize
      · rw [if_pos (show piece.length + 1 ≤ maxNewConnectionSize from short), if_pos short]
        simp only [bind, Except.bind]
        cases call (kmalloc 0) (piece ++ 0 :: stack.drop (piece.length + 1)) st with
        | error fault => rfl
        | ok r =>
          simp only [if_neg nul]
          exact ih freeRest (by simp) _ _ next _ _
      · rw [if_neg (show ¬ piece.length + 1 ≤ maxNewConnectionSize from short), if_neg short]
    · have passed : 44 ∉ piece ++ [b] := by
        simp only [List.mem_append, List.mem_singleton, not_or]
        exact ⟨inside, fun h => comma h.symm⟩
      have step := ih freeRest passed kmalloc start (by rw [place]; simp) stack st
      rw [List.length_append, List.length_singleton, List.append_assoc, List.singleton_append] at step
      rw [updateLoop, if_neg (not_or.2 ⟨comma, nul⟩), step]

end Scan

/-- `whitelist` on one piece after the other. -/
def whitelistPieces (kmalloc : Nat → Bool) (stack : Memory) (pieces : List (List Byte)) (st : ProcConfig) :
    Except Violation ProcConfig :=
  callPieces id whitelistCall kmalloc stack pieces st

theorem whitelistPieces_nil (kmalloc : Nat → Bool) (stack : Memory) (st : ProcConfig) :
    whitelistPieces kmalloc stack [] st = .ok st := rfl

theorem whitelistPieces_cons {kmalloc : Nat → Bool} {stack : Memory} {piece : List Byte} {pieces : List (List Byte)}
    {st : ProcConfig} (short : piece.length < maxNewConnectionSize) :
    whitelistPieces kmalloc stack (piece :: pieces) st =
      whitelistPieces (fun i => kmalloc (i + 1)) (piece ++ 0 :: stack.drop (piece.length + 1)) pieces
        (whitelistConfig (kmalloc 0) (piece ++ 0 :: stack.drop (piece.length + 1)) st).2 := by
  rw [whitelistPieces, callPieces, if_pos short]
  rfl

theorem whitelistPieces_cons_long {kmalloc : Nat → Bool} {stack : Memory} {piece : List Byte}
    {pieces : List (List Byte)} {st : ProcConfig} (long : ¬ piece.length < maxNewConnectionSize) :
    whitelistPieces kmalloc stack (piece :: pieces) st = .error .copy := by
  rw [whitelistPieces, callPieces, if_neg long]
  rfl

/-- The bytes a write leaves to be scanned: all but the last one, up to the first NUL. -/
def writtenText (w : WriteCall) : List Byte := text w.buffer.dropLast

/-- Its pieces. -/
def writtenPieces (w : WriteCall) : List (List Byte) := (writtenText w).splitOn 44

theorem writtenPieces_nulFree {w : WriteCall} {piece : List Byte} (member : piece ∈ writtenPieces w) : NulFree piece :=
  (nulFree_text _).sublist fun _ => mem_of_splitOn member

theorem writtenPieces_inside {w : WriteCall} {piece : List Byte} (member : piece ∈ writtenPieces w) : 44 ∉ piece :=
  not_mem_of_splitOn member

theorem copyFromUser_readable {w : WriteCall} (readable : w.buffer.length ≤ w.readable) :
    copyFromUser w = (0, w.buffer) := by
  have whole : w.buffer.take w.readable = w.buffer := List.take_of_length_le readable
  simp [copyFromUser, whole]

/-- What a write leaves in the array: its text, and something behind the terminator. -/
theorem written_bytes (b : Buffer procfsMaxSize) {w : WriteCall} (nonempty : 1 ≤ w.buffer.length)
    (fits : w.buffer.length < procfsMaxSize) :
    ∃ junk, ((b.store 0 w.buffer).store (w.buffer.length - 1) [0]).bytes = writtenText w ++ 0 :: junk := by
  obtain ⟨junk, bytes⟩ : ∃ junk, ((b.store 0 w.buffer).store (w.buffer.length - 1) [0]).bytes =
      w.buffer.dropLast ++ 0 :: junk := by
    rw [Buffer.store_bytes _ (by simp; omega), Buffer.store_bytes _ (by omega), List.take_zero, List.nil_append,
      List.take_append_of_le_length (by omega), ← List.dropLast_eq_take]
    exact ⟨_, rfl⟩
  obtain ⟨junk', terminated⟩ := exists_terminated w.buffer.dropLast junk
  exact ⟨junk', bytes.trans terminated⟩

/-- A write that is not rejected replaces the list by what its pieces name. -/
theorem procfileWrite_accepted {w : WriteCall} (st : ProcConfig) (nonempty : 1 ≤ w.buffer.length)
    (fits : w.buffer.length < procfsMaxSize) (readable : w.buffer.length ≤ w.readable) :
    procfileWrite w st =
      (whitelistPieces w.kmalloc w.stack (writtenPieces w) (shownConfig [] [])).map
        fun st => ((w.buffer.length : Int), st) := by
  obtain ⟨junk, bytes⟩ := written_bytes st.procfsBuffer nonempty fits
  have loop := updateLoop_pieces id whitelistCall (writtenText w ++ 0 :: junk) (w := writtenText w) (nulFree_text _)
    List.not_mem_nil w.kmalloc 0 rfl w.stack (shownConfig [] [])
  rw [List.length_nil, List.nil_append] at loop
  rw [procfileWrite, procfileWriteWith, copyFromUser_readable readable]
  simp only [if_neg (show ¬ procfsMaxSize ≤ w.buffer.length by omega), if_neg (show ¬ (0 : Nat) ≠ 0 by simp),
    check_ok nonempty, updateWhitelistWith, cleared_eq, bytes]
  rw [loop]
  rw [← whitelistPieces]
  unfold writtenPieces
  cases whitelistPieces w.kmalloc w.stack ((writtenText w).splitOn 44) (shownConfig [] []) <;> rfl

theorem copyFromUser_length (w : WriteCall) : (copyFromUser w).2.length ≤ w.buffer.length := by
  simp only [copyFromUser]
  split
  · simp only [List.length_append, List.length_take, List.length_replicate]
    omega
  · simp only [List.length_append, List.length_take, List.length_nil]
    omega

/-- The two rejections. -/
theorem procfileWrite_enospc {w : WriteCall} (st : ProcConfig) (full : procfsMaxSize ≤ w.buffer.length) :
    procfileWrite w st = .ok (-enospc, { st with procfsBufferSize := w.buffer.length }) := by
  rw [procfileWrite, procfileWriteWith, if_pos full]
  rfl

theorem procfileWrite_efault {w : WriteCall} (st : ProcConfig) (fits : w.buffer.length < procfsMaxSize)
    (fault : w.readable < w.buffer.length) :
    procfileWrite w st = .ok (-efault, { st with
      procfsBuffer := st.procfsBuffer.store 0 (copyFromUser w).2, procfsBufferSize := w.buffer.length }) := by
  have left : (copyFromUser w).1 ≠ 0 := by
    simp only [copyFromUser, List.length_take]
    omega
  rw [procfileWrite, procfileWriteWith, if_neg (show ¬ procfsMaxSize ≤ w.buffer.length by omega)]
  simp only [if_pos left]
  rfl

/-- The terminator of an empty write goes in front of the buffer. -/
theorem procfileWrite_empty {w : WriteCall} (st : ProcConfig) (empty : w.buffer.length = 0) :
    procfileWrite w st = .error .wrap := by
  have nothing : w.buffer = [] := List.length_eq_zero_iff.1 empty
  have copied : copyFromUser w = (0, []) := by
    cases padded : w.padded <;> simp [copyFromUser, nothing, padded]
  rw [procfileWrite, procfileWriteWith, if_neg (show ¬ procfsMaxSize ≤ w.buffer.length by rw [empty]; decide), copied]
  simp only [ne_eq, not_true_eq_false, if_false, empty]
  rfl

/-! ## Reading -/

theorem contents_shown (whiteList : List Connection) {t : List Byte} (free : NulFree t)
    (fits : t.length < procfsMaxSize) : (shownConfig whiteList t).procfsBuffer.contents = t :=
  Buffer.contents_ofText free fits

/-- A text that ends with a comma loses it. -/
theorem trimLastComma_comma (whiteList : List Connection) {t : List Byte} (fits : t.length < procfsMaxSize) :
    trimLastComma (shownConfig whiteList (t ++ [44])) = shownConfig whiteList t := by
  have size : (t ++ [44]).length - 1 = t.length := by simp
  rw [trimLastComma, shownConfig]
  simp only [size, Buffer.get_ofText fits, if_true, Buffer.store_ofText fits]
  rfl

theorem trimLastComma_other {st : ProcConfig} (other : st.procfsBuffer.get (st.procfsBufferSize - 1) ≠ 44) :
    trimLastComma st = st := if_neg other

/-- The answer of a read. -/
theorem procfileRead_shown (bufferLength : Int) (st : ProcConfig) (large : ¬ ulong bufferLength < st.procfsBufferSize)
    (nonempty : 1 ≤ st.procfsBufferSize) (fits : st.procfsBufferSize ≤ procfsMaxSize)
    (last : 0 ∈ (trimLastComma st).procfsBuffer.bytes) :
    procfileRead 0 bufferLength st =
      .ok (⟨((trimLastComma st).procfsBuffer.contents ++ [10]).length,
        snprintf (ulong bufferLength) ((trimLastComma st).procfsBuffer.contents ++ [10])⟩, trimLastComma st) := by
  rw [procfileRead, if_neg (by decide), if_neg large, check_ok nonempty, check_ok (by omega)]
  simp only [bind, Except.bind, check_ok last]
  rfl

theorem nul_mem_shown {whiteList : List Connection} {t : List Byte} (fits : t.length < procfsMaxSize) :
    0 ∈ (shownConfig whiteList t).procfsBuffer.bytes := by
  obtain ⟨room, size⟩ : ∃ room, procfsMaxSize - t.length = room + 1 := ⟨procfsMaxSize - t.length - 1, by omega⟩
  rw [shownConfig, Buffer.ofText_bytes (by omega), size, List.replicate_succ]
  simp

/-! ## The strings behind a list -/

/-- The connection string of an entry of the list. -/
structure Names (s : List Byte) (c : Connection) : Prop where
  free : NulFree s
  inside : 44 ∉ s
  parsed : ∃ kmalloc t, initializeConnectionFromString kmalloc (s ++ 0 :: t) = some c

/-- The pieces that are accepted are listed behind the strings that are there already. -/
theorem whitelistPieces_shown {pieces : List (List Byte)} (free : ∀ p ∈ pieces, NulFree p)
    (inside : ∀ p ∈ pieces, 44 ∉ p) (short : ∀ p ∈ pieces, p.length < maxNewConnectionSize)
    (kmalloc : Nat → Bool) (stack : Memory) {strings : List (List Byte)} {whiteList : List Connection}
    (named : List.Forall₂ Names strings whiteList)
    (fits : (terminated 44 strings).length + (terminated 44 pieces).length < procfsMaxSize) :
    ∃ strings' whiteList', List.Forall₂ Names strings' whiteList' ∧
      (terminated 44 strings').length ≤ (terminated 44 strings).length + (terminated 44 pieces).length ∧
      whitelistPieces kmalloc stack pieces (shownConfig whiteList (terminated 44 strings)) =
        .ok (shownConfig whiteList' (terminated 44 strings')) := by
  induction pieces generalizing kmalloc stack strings whiteList with
  | nil => exact ⟨strings, whiteList, named, Nat.le_refl _, rfl⟩
  | cons p pieces ih =>
    obtain ⟨freeP, free⟩ := List.forall_mem_cons.1 free
    obtain ⟨insideP, inside⟩ := List.forall_mem_cons.1 inside
    obtain ⟨shortP, short⟩ := List.forall_mem_cons.1 short
    rw [terminated_cons, List.length_append, List.length_append, List.length_singleton] at fits ⊢
    rw [whitelistPieces_cons shortP]
    rcases whitelistConfig_shown (kmalloc 0) whiteList (t := terminated 44 strings) freeP
      (stack.drop (p.length + 1)) (.inr (by omega)) with ⟨-, result⟩ | ⟨c, -, read, result⟩
    · obtain ⟨strings', whiteList', named', bound, rest⟩ := ih free inside short (fun i => kmalloc (i + 1))
        (p ++ 0 :: stack.drop (p.length + 1)) named (by omega)
      refine ⟨strings', whiteList', named', by omega, ?_⟩
      rw [result]
      exact rest
    · have named' : List.Forall₂ Names (strings ++ [p]) (whiteList ++ [c]) :=
        List.rel_append named (.cons ⟨freeP, insideP, _, _, read⟩ .nil)
      rw [← terminated_snoc] at result
      have length : (terminated 44 (strings ++ [p])).length = (terminated 44 strings).length + (p.length + 1) := by
        rw [terminated_snoc]
        simp
      obtain ⟨strings', whiteList', named'', bound, rest⟩ := ih free inside short (fun i => kmalloc (i + 1))
        (p ++ 0 :: stack.drop (p.length + 1)) named' (by omega)
      refine ⟨strings', whiteList', named'', by omega, ?_⟩
      rw [result]
      exact rest

/-- A piece that does not fit `new_connection_string` ends the run. -/
theorem whitelistPieces_long {pieces : List (List Byte)} (long : ∃ p ∈ pieces, maxNewConnectionSize ≤ p.length)
    (kmalloc : Nat → Bool) (stack : Memory) (st st' : ProcConfig) :
    whitelistPieces kmalloc stack pieces st ≠ .ok st' := by
  induction pieces generalizing kmalloc stack st with
  | nil => simp at long
  | cons p pieces ih =>
    by_cases short : p.length < maxNewConnectionSize
    · have later : ∃ p ∈ pieces, maxNewConnectionSize ≤ p.length := by
        obtain ⟨q, member, long⟩ := long
        rcases List.mem_cons.1 member with rfl | member
        · omega
        · exact ⟨q, member, long⟩
      rw [whitelistPieces_cons short]
      exact ih later _ _ _
    · rw [whitelistPieces_cons_long short]
      simp

/-- The pieces of a write fit the buffer with their commas. -/
theorem writtenPieces_length {w : WriteCall} (nonempty : 1 ≤ w.buffer.length) :
    (terminated 44 (writtenPieces w)).length ≤ w.buffer.length := by
  have text := (List.takeWhile_prefix (p := fun b : Byte => b != 0) (l := w.buffer.dropLast)).length_le
  rw [List.length_dropLast] at text
  have same : (terminated 44 (writtenPieces w)).length = (writtenText w).length + 1 := by
    rw [writtenPieces, terminated_splitOn]
    simp
  have : (writtenText w).length ≤ w.buffer.length - 1 := text
  omega

/-- A write of pieces that fit completes. -/
theorem procfileWrite_shown {w : WriteCall} (st : ProcConfig) (nonempty : 1 ≤ w.buffer.length)
    (fits : w.buffer.length < procfsMaxSize) (readable : w.buffer.length ≤ w.readable)
    (short : ∀ p ∈ writtenPieces w, p.length < maxNewConnectionSize) :
    ∃ strings whiteList, List.Forall₂ Names strings whiteList ∧
      (terminated 44 strings).length < procfsMaxSize ∧
      procfileWrite w st = .ok ((w.buffer.length : Int), shownConfig whiteList (terminated 44 strings)) := by
  have length := writtenPieces_length nonempty
  obtain ⟨strings, whiteList, named, bound, result⟩ := whitelistPieces_shown
    (fun _ => writtenPieces_nulFree) (fun _ => writtenPieces_inside) short w.kmalloc w.stack
    (show List.Forall₂ Names [] [] from .nil) (by rw [terminated_nil, List.length_nil]; omega)
  rw [terminated_nil, List.length_nil] at bound
  refine ⟨strings, whiteList, named, by omega, ?_⟩
  rw [procfileWrite_accepted st nonempty fits readable, show shownConfig [] [] = shownConfig [] (terminated 44 []) from rfl,
    result]
  rfl

end Netlog
