import SecuritySuite.Netlog.ProcConfigSteps

/-!
# Bounds of the proc buffers

A run of the proc configuration has no access outside an array and no subtraction below zero exactly when
each operation meets a condition in the state it finds (`InBounds`): no append to a size above the buffer's, no
read of an empty or overlong buffer, no empty write and no piece of 512 bytes or more. The last byte of the
buffer is a terminator in every state, so the scans end.
-/

namespace Netlog
set_option autoImplicit false
open CString Separated

/-- `whitelist`, where a size above that of the buffer is a violation: what is left wraps. -/
def whitelistChecked (kmalloc : Bool) (connectionString : Memory) (st : ProcConfig) :
    Except Violation (Int × ProcConfig) := do
  let (code, st') := whitelistConfig kmalloc connectionString st
  if code = whitelisted then check .wrap (st.procfsBufferSize ≤ procfsMaxSize)
  return (code, st')

/-- `step` with these calls. -/
def checkedStep (st : ProcConfig) : Op → Except Violation (Answer × ProcConfig)
  | .whitelist kmalloc connectionString behind => do
    let (code, st) ← whitelistChecked kmalloc (connectionString ++ 0 :: behind) st
    return (.code code, st)
  | .procfileWrite w => do
    let (code, st) ← procfileWriteWith whitelistChecked w st
    return (.code code, st)
  | .createProcConfig entry => step st (.createProcConfig entry)
  | .procfileRead offset bufferLength => step st (.procfileRead offset bufferLength)
  | .isWhitelisted task ip port => step st (.isWhitelisted task ip port)

/-- The condition under which an operation stays inside the arrays. -/
def InBounds (st : ProcConfig) : Op → Prop
  | .createProcConfig _ => True
  | .whitelist kmalloc connectionString behind =>
    Refused kmalloc (connectionString ++ 0 :: behind) st.whiteList ∨ st.procfsBufferSize ≤ procfsMaxSize
  | .procfileRead offset bufferLength =>
    0 < offset ∨ ulong bufferLength < st.procfsBufferSize ∨
      1 ≤ st.procfsBufferSize ∧ st.procfsBufferSize ≤ procfsMaxSize
  | .procfileWrite w =>
    procfsMaxSize ≤ w.buffer.length ∨ w.readable < w.buffer.length ∨
      1 ≤ w.buffer.length ∧ ∀ piece ∈ writtenPieces w, piece.length < maxNewConnectionSize
  | .isWhitelisted _ _ _ => True

/-- `procfs_buffer[PROCFS_MAX_SIZE - 1]` is a terminator. -/
def LastNul (st : ProcConfig) : Prop := st.procfsBuffer.get (procfsMaxSize - 1) = 0

theorem lastNul_shownConfig (whiteList : List Connection) {t : List Byte} (fits : t.length < procfsMaxSize) :
    LastNul (shownConfig whiteList t) := by
  rw [LastNul, shownConfig, Buffer.get, Buffer.ofText_bytes (by omega), List.getD_append_right _ _ _ _ (by omega)]
  simp

theorem nul_mem {st : ProcConfig} (last : LastNul st) : 0 ∈ st.procfsBuffer.bytes := by
  have bound : procfsMaxSize - 1 < st.procfsBuffer.bytes.length := by
    rw [st.procfsBuffer.sized]
    decide
  rw [LastNul, Buffer.get, List.getD_eq_getElem _ _ bound] at last
  rw [← last]
  exact List.getElem_mem bound

/-! ## One operation -/

/-- An operation completes under a condition and leaves the last terminator, and ends the run otherwise. -/
inductive Bounded {β : Type} (cond : Prop) : Except Violation (β × ProcConfig) → Prop
  | completes {r : β × ProcConfig} : cond → LastNul r.2 → Bounded cond (.ok r)
  | ends {violation : Violation} : ¬ cond → Bounded cond (.error violation)

namespace Bounded
variable {β : Type} {cond : Prop} {result : Except Violation (β × ProcConfig)}

theorem completes_iff (bounded : Bounded cond result) : (∃ b st, result = .ok (b, st)) ↔ cond := by
  cases bounded with
  | completes inside _ => exact ⟨fun _ => inside, fun _ => ⟨_, _, rfl⟩⟩
  | ends outside => exact ⟨fun h => by simp at h, fun inside => absurd inside outside⟩

theorem lastNul (bounded : Bounded cond result) {b : β} {st : ProcConfig} (done : result = .ok (b, st)) :
    LastNul st := by
  cases bounded with
  | completes _ last =>
    cases done
    exact last
  | ends _ => cases done

/-- The answer of an operation can be wrapped. -/
theorem answered (bounded : Bounded cond result) (answer : β → Answer) :
    Bounded cond (result >>= fun r => pure (answer r.1, r.2)) := by
  cases bounded with
  | completes inside last => exact .completes inside last
  | ends outside => exact .ends outside

end Bounded

theorem whitelistChecked_bounded (kmalloc : Bool) (mem : Memory) {st : ProcConfig} (last : LastNul st) :
    Bounded (Refused kmalloc mem st.whiteList ∨ st.procfsBufferSize ≤ procfsMaxSize)
      (whitelistChecked kmalloc mem st) := by
  rcases whitelistConfig_cases kmalloc mem st with ⟨refused, result⟩ | ⟨c, admitted, -, result⟩
  · rw [whitelistChecked, result]
    exact .completes (.inl refused) last
  · rw [whitelistChecked, result]
    by_cases fits : st.procfsBufferSize ≤ procfsMaxSize
    · simp only [if_true, check_ok fits]
      have whole : st.procfsBufferSize + (procfsMaxSize - st.procfsBufferSize) = procfsMaxSize := by omega
      apply Bounded.completes (.inr fits)
      dsimp only
      rw [addConnectionStringToProcConfig_room _ (by exact fits)]
      exact Buffer.get_snprintfAt_last last whole
    · simp only [if_true, check_error fits]
      exact .ends (not_or.2 ⟨admitted, fits⟩)

theorem whitelistChecked_room (kmalloc : Bool) (mem : Memory) {st : ProcConfig} (room : st.procfsBufferSize ≤ procfsMaxSize) :
    whitelistChecked kmalloc mem st = .ok (whitelistConfig kmalloc mem st) := by
  simp only [whitelistChecked, check_ok room]
  split <;> rfl

/-- A call appends its string and a comma at most. -/
theorem whitelistConfig_size (kmalloc : Bool) (mem : Memory) (st : ProcConfig)
    (room : st.procfsBufferSize + (text mem).length + 1 ≤ procfsMaxSize) :
    (whitelistConfig kmalloc mem st).2.procfsBufferSize ≤ st.procfsBufferSize + ((text mem).length + 1) := by
  rcases whitelistConfig_cases kmalloc mem st with ⟨-, result⟩ | ⟨c, -, -, result⟩
  · rw [result]
    exact Nat.le_add_right ..
  · have size : ulong (st.procfsBufferSize + ((text mem).length + 1)) = st.procfsBufferSize + ((text mem).length + 1) := by
      unfold procfsMaxSize at room
      have := ulong_of_lt (x := st.procfsBufferSize + ((text mem).length + 1)) (by omega)
      push_cast at this
      exact this
    rw [result, addConnectionStringToProcConfig_room _ (by simp only; omega)]
    exact Nat.le_of_eq size

/-- Pieces that fit the buffer with their commas do not wrap it. -/
theorem callPieces_checked {pieces : List (List Byte)} (free : ∀ p ∈ pieces, NulFree p) (kmalloc : Nat → Bool)
    (stack : Memory) (st : ProcConfig) (room : st.procfsBufferSize + (terminated 44 pieces).length ≤ procfsMaxSize) :
    callPieces id whitelistChecked kmalloc stack pieces st = whitelistPieces kmalloc stack pieces st := by
  induction pieces generalizing kmalloc stack st with
  | nil => rfl
  | cons piece pieces ih =>
    obtain ⟨freePiece, free⟩ := List.forall_mem_cons.1 free
    rw [terminated_cons, List.length_append, List.length_append, List.length_singleton] at room
    rw [callPieces]
    by_cases short : piece.length < maxNewConnectionSize
    · rw [if_pos short, whitelistPieces_cons short]
      simp only [whitelistChecked_room _ _ (show st.procfsBufferSize ≤ procfsMaxSize by omega)]
      have size := whitelistConfig_size (kmalloc 0) (piece ++ 0 :: stack.drop (piece.length + 1)) st
        (by rw [text_terminated freePiece]; omega)
      rw [text_terminated freePiece] at size
      exact ih free _ _ _ (by omega)
    · rw [if_neg short, whitelistPieces_cons_long short]
      rfl

/-- The calls of a write never append behind the buffer, which has been cleared for them. -/
theorem procfileWriteWith_checked (w : WriteCall) (st : ProcConfig) :
    procfileWriteWith whitelistChecked w st = procfileWrite w st := by
  rw [procfileWrite, procfileWriteWith, procfileWriteWith]
  by_cases full : procfsMaxSize ≤ w.buffer.length
  · rw [if_pos full, if_pos full]
  rw [if_neg full, if_neg full]
  by_cases fault : (copyFromUser w).1 ≠ 0
  · simp only [if_pos fault]
  simp only [if_neg fault]
  by_cases nonempty : 1 ≤ w.buffer.length
  case neg =>
    simp only [check_error nonempty]
    rfl
  have readable : w.buffer.length ≤ w.readable := by
    simp only [copyFromUser, List.length_take] at fault
    omega
  obtain ⟨junk, bytes⟩ := written_bytes st.procfsBuffer nonempty (Nat.not_le.1 full)
  have length := writtenPieces_length nonempty
  have free : ∀ p ∈ (writtenText w).splitOn 44, NulFree p := fun _ => writtenPieces_nulFree
  have same := callPieces_checked free w.kmalloc w.stack (shownConfig [] [])
    (by simp only [shownConfig, List.length_nil]; rw [← writtenPieces]; omega)
  have loop (call : Bool → Memory → ProcConfig → Except Violation (Int × ProcConfig)) :=
    updateLoop_pieces id call (writtenText w ++ 0 :: junk) (w := writtenText w) (nulFree_text _) List.not_mem_nil
      w.kmalloc 0 rfl w.stack (shownConfig [] [])
  simp only [List.length_nil, List.nil_append] at loop
  simp only [copyFromUser_readable readable, updateWhitelistWith, cleared_eq, bytes, loop, same]
  rfl

/-- The trimming of a trailing comma keeps the last terminator. -/
theorem lastNul_trimLastComma {st : ProcConfig} (last : LastNul st) (nonempty : 1 ≤ st.procfsBufferSize)
    (fits : st.procfsBufferSize ≤ procfsMaxSize) : LastNul (trimLastComma st) := by
  unfold trimLastComma
  split
  case isFalse => exact last
  rw [LastNul, Buffer.get_store _ (by rw [List.length_singleton]; omega)]
  split
  · exact last
  split
  · rename_i inside
    rw [List.length_singleton] at inside
    rw [show procfsMaxSize - 1 - (st.procfsBufferSize - 1) = 0 by omega]
    rfl
  · exact last

theorem procfileRead_bounded (offset bufferLength : Int) {st : ProcConfig} (last : LastNul st) :
    Bounded (0 < offset ∨ ulong bufferLength < st.procfsBufferSize ∨
        1 ≤ st.procfsBufferSize ∧ st.procfsBufferSize ≤ procfsMaxSize)
      (procfileRead offset bufferLength st) := by
  unfold procfileRead
  by_cases later : 0 < offset
  · rw [if_pos later]
    exact .completes (.inl later) last
  rw [if_neg later]
  by_cases small : ulong bufferLength < st.procfsBufferSize
  · rw [if_pos small]
    exact .completes (.inr (.inl small)) last
  rw [if_neg small]
  by_cases nonempty : 1 ≤ st.procfsBufferSize
  case neg =>
    rw [check_error nonempty]
    exact .ends (by simp [later, small, nonempty])
  rw [check_ok nonempty]
  by_cases fits : st.procfsBufferSize - 1 < procfsMaxSize
  case neg =>
    rw [check_error fits]
    exact .ends (by omega)
  have bound : st.procfsBufferSize ≤ procfsMaxSize := by omega
  have trimmed := lastNul_trimLastComma last nonempty bound
  rw [check_ok fits]
  simp only [check_ok (nul_mem trimmed)]
  exact .completes (.inr (.inr ⟨nonempty, bound⟩)) trimmed

/-- A write that is rejected after a partial copy does not reach the last byte. -/
theorem lastNul_copied {w : WriteCall} {st : ProcConfig} (last : LastNul st)
    (fits : w.buffer.length < procfsMaxSize) (size : Nat) :
    LastNul { st with procfsBuffer := st.procfsBuffer.store 0 (copyFromUser w).2, procfsBufferSize := size } := by
  have length := copyFromUser_length w
  rw [LastNul, Buffer.get_store _ (by omega), if_neg (by omega), if_neg (by omega)]
  exact last

theorem procfileWrite_bounded (w : WriteCall) {st : ProcConfig} (last : LastNul st) :
    Bounded (procfsMaxSize ≤ w.buffer.length ∨ w.readable < w.buffer.length ∨
        1 ≤ w.buffer.length ∧ ∀ piece ∈ writtenPieces w, piece.length < maxNewConnectionSize)
      (procfileWrite w st) := by
  by_cases full : procfsMaxSize ≤ w.buffer.length
  · rw [procfileWrite_enospc st full]
    exact .completes (.inl full) last
  by_cases fault : w.readable < w.buffer.length
  · rw [procfileWrite_efault st (by omega) fault]
    exact .completes (.inr (.inl fault)) (lastNul_copied last (by omega) _)
  by_cases nonempty : 1 ≤ w.buffer.length
  case neg =>
    rw [procfileWrite_empty st (by omega)]
    exact .ends (by simp [full, fault, nonempty])
  by_cases short : ∀ piece ∈ writtenPieces w, piece.length < maxNewConnectionSize
  · obtain ⟨strings, whiteList, -, fits, result⟩ := procfileWrite_shown st nonempty (by omega) (by omega) short
    rw [result]
    exact .completes (.inr (.inr ⟨nonempty, short⟩)) (lastNul_shownConfig whiteList fits)
  · have long : ∃ piece ∈ writtenPieces w, maxNewConnectionSize ≤ piece.length := by
      simpa using short
    have failed := whitelistPieces_long long w.kmalloc w.stack (shownConfig [] [])
    rw [procfileWrite_accepted st nonempty (by omega) (by omega)]
    cases result : whitelistPieces w.kmalloc w.stack (writtenPieces w) (shownConfig [] []) with
    | ok st' => exact absurd result (failed st')
    | error violation =>
      apply Bounded.ends
      rintro (h | h | h)
      · exact full h
      · exact fault h
      · exact short h.2

/-! ## Runs -/

theorem step_bounded (op : Op) {st : ProcConfig} (last : LastNul st) :
    Bounded (InBounds st op) (checkedStep st op) := by
  cases op with
  | createProcConfig entry =>
    cases entry with
    | true =>
      apply Bounded.completes trivial
      exact initializeProcfsBuffer_eq st ▸ lastNul_shownConfig st.whiteList (t := []) (by decide)
    | false => exact .completes trivial last
  | whitelist kmalloc s behind => exact (whitelistChecked_bounded kmalloc (s ++ 0 :: behind) last).answered .code
  | procfileRead offset bufferLength => exact (procfileRead_bounded offset bufferLength last).answered .read
  | procfileWrite w =>
    rw [checkedStep, procfileWriteWith_checked]
    exact (procfileWrite_bounded w last).answered .code
  | isWhitelisted task ip port => exact .completes trivial last

/-- **Every access is in bounds exactly in the runs whose operations meet the condition.** -/
theorem in_bounds_iff (ops : List Op) :
    (∃ st, Runs.Reaches checkedStep initialProcConfig ops st) ↔ Runs.Along checkedStep InBounds ops initialProcConfig :=
  Runs.completes_iff _ (fun _ op _ _ last done => (step_bounded op last).lastNul done)
    (fun _ op last => (step_bounded op last).completes_iff)
    (initialProcConfig_eq ▸ lastNul_shownConfig [] (t := []) (by decide))

/-- A write of no bytes puts its terminator in front of the buffer. -/
theorem in_bounds_fails :
    ¬ ∀ ops, ∃ st, Runs.Reaches checkedStep initialProcConfig ops st := by
  intro claim
  obtain ⟨st, run⟩ := claim [.createProcConfig true, .procfileWrite ⟨[], 0, false, fun _ => true, []⟩]
  obtain ⟨_, st₁, -, rest⟩ := Runs.reaches_cons.1 run
  obtain ⟨_, st₂, write, -⟩ := Runs.reaches_cons.1 rest
  rw [checkedStep, procfileWriteWith_checked, procfileWrite_empty st₁ rfl] at write
  cases write

end Netlog
