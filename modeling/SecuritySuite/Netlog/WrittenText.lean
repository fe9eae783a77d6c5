import SecuritySuite.Netlog.ProcConfigSteps

/-!
# The text that takes effect

`procfile_write` with the calls that it makes on the white list. The last byte that is written gives way to the
terminator, whether it is a newline or not. So the pieces that are called with are those of the text without its
last byte.
-/

namespace Netlog
set_option autoImplicit false
open CString Separated

/-- A call that changes the white list. -/
inductive ListCall where
  | destroyWhitelist
  | whitelist (connectionString : List Byte)
deriving DecidableEq

/-- The calls so far, and the configuration. -/
abbrev Logged := List ListCall × ProcConfig

def loggedWhitelist (kmalloc : Bool) (connectionString : Memory) (st : Logged) : Except Violation (Int × Logged) :=
  let (code, config) := whitelistConfig kmalloc connectionString st.2
  .ok (code, st.1 ++ [.whitelist (text connectionString)], config)

/-- `update_whitelist`. -/
def loggedUpdate (kmalloc : Nat → Bool) (stack : Memory) (st : ProcConfig) : Except Violation Logged :=
  let temp := st.procfsBuffer.bytes
  updateLoop id loggedWhitelist temp temp kmalloc 0 0 stack
    ([.destroyWhitelist], destroyWhitelist (initializeProcfsBuffer st))

/-- `procfile_write`. -/
def loggedWrite (w : WriteCall) (st : ProcConfig) : Except Violation (Int × Logged) :=
  let st := { st with procfsBufferSize := w.buffer.length }
  if procfsMaxSize ≤ st.procfsBufferSize then .ok (-enospc, [], st)
  else
    let (left, copied) := copyFromUser w
    let st := { st with procfsBuffer := st.procfsBuffer.store 0 copied }
    if left ≠ 0 then .ok (-efault, [], st)
    else do
      check .wrap (1 ≤ st.procfsBufferSize)
      let st := { st with procfsBuffer := st.procfsBuffer.store (st.procfsBufferSize - 1) [0] }
      let st ← loggedUpdate w.kmalloc w.stack st
      return (w.buffer.length, st)

/-- The text without a newline at its end. -/
def withoutNewline (t : List Byte) : List Byte := if t.getLast? = some 10 then t.dropLast else t

/-- The list is cleared and `whitelist` is called on each piece of the text, in order. -/
def TakesWrittenText (w : WriteCall) (st : ProcConfig) : Prop :=
  ∃ st', loggedWrite w st = .ok (w.buffer.length,
    .destroyWhitelist :: ((withoutNewline w.buffer).splitOn 44).map .whitelist, st')

/-! ## The calls -/

/-- The configuration is that of the source. -/
theorem updateLoop_logged (temp rest : List Byte) (kmalloc : Nat → Bool) (start connectionStringLength : Nat)
    (stack : Memory) (calls : List ListCall) (st : ProcConfig) :
    (updateLoop id loggedWhitelist temp rest kmalloc start connectionStringLength stack (calls, st)).map Prod.snd =
      updateLoop id whitelistCall temp rest kmalloc start connectionStringLength stack st := by
  induction rest generalizing kmalloc start connectionStringLength stack calls st with
  | nil => rfl
  | cons b rest ih =>
    rw [updateLoop, updateLoop]
    by_cases stop : b = 44 ∨ b = 0
    case neg =>
      rw [if_neg stop, if_neg stop]
      exact ih ..
    rw [if_pos stop, if_pos stop]
    simp only
    split
    · simp only [loggedWhitelist, whitelistCall, bind, Except.bind]
      by_cases last : b = 0
      · simp only [if_pos last]
        rfl
      · simp only [if_neg last]
        exact ih ..
    · rfl

/-- **The calls are those of `procfile_write`.** -/
theorem loggedWrite_config (w : WriteCall) (st : ProcConfig) :
    (loggedWrite w st).map (fun r => (r.1, r.2.2)) = procfileWrite w st := by
  rw [loggedWrite, procfileWrite, procfileWriteWith]
  by_cases full : procfsMaxSize ≤ w.buffer.length
  · rw [if_pos full, if_pos full]
    rfl
  rw [if_neg full, if_neg full]
  by_cases fault : (copyFromUser w).1 ≠ 0
  · simp only [if_pos fault]
    rfl
  simp only [if_neg fault]
  by_cases nonempty : 1 ≤ w.buffer.length
  · simp only [check_ok nonempty, bind, Except.bind, loggedUpdate, updateWhitelistWith]
    rw [← updateLoop_logged _ _ _ _ _ _ [.destroyWhitelist]]
    cases updateLoop id loggedWhitelist _ _ w.kmalloc 0 0 w.stack _ <;> rfl
  · simp only [check_error nonempty, bind, Except.bind]
    rfl

/-- Each piece is called with, in order. -/
theorem callPieces_logged {pieces : List (List Byte)} (free : ∀ p ∈ pieces, NulFree p) (kmalloc : Nat → Bool)
    (stack : Memory) (calls : List ListCall) (st : ProcConfig) :
    callPieces id loggedWhitelist kmalloc stack pieces (calls, st) =
      (whitelistPieces kmalloc stack pieces st).map fun st' => (calls ++ pieces.map .whitelist, st') := by
  induction pieces generalizing kmalloc stack calls st with
  | nil => simp [callPieces, whitelistPieces_nil, Except.map]
  | cons piece pieces ih =>
    rw [List.forall_mem_cons] at free
    rw [callPieces]
    by_cases short : piece.length < maxNewConnectionSize
    · rw [if_pos short, whitelistPieces_cons short]
      simp only [loggedWhitelist, bind, Except.bind, text_terminated free.1, ih free.2]
      simp
    · rw [if_neg short, whitelistPieces_cons_long short]
      rfl

theorem loggedWrite_accepted {w : WriteCall} (st : ProcConfig) (nonempty : 1 ≤ w.buffer.length)
    (fits : w.buffer.length < procfsMaxSize) (readable : w.buffer.length ≤ w.readable) :
    loggedWrite w st = (whitelistPieces w.kmalloc w.stack (writtenPieces w) (shownConfig [] [])).map
      fun st' => ((w.buffer.length : Int), .destroyWhitelist :: (writtenPieces w).map .whitelist, st') := by
  obtain ⟨junk, bytes⟩ := written_bytes st.procfsBuffer nonempty fits
  have loop := updateLoop_pieces id loggedWhitelist (writtenText w ++ 0 :: junk) (nulFree_text _) List.not_mem_nil
    w.kmalloc 0 rfl w.stack ([.destroyWhitelist], shownConfig [] [])
  rw [List.length_nil, List.nil_append] at loop
  rw [loggedWrite, copyFromUser_readable readable]
  simp only [if_neg (show ¬ procfsMaxSize ≤ w.buffer.length by omega), if_neg (show ¬ (0 : Nat) ≠ 0 by simp),
    check_ok nonempty, loggedUpdate, cleared_eq, bytes]
  rw [show text w.buffer.dropLast = writtenText w from rfl] at loop
  have free : ∀ p ∈ (writtenText w).splitOn 44, NulFree p := fun _ => writtenPieces_nulFree
  rw [loop, callPieces_logged free]
  unfold writtenPieces
  cases whitelistPieces w.kmalloc w.stack ((writtenText w).splitOn 44) (shownConfig [] []) <;> rfl

/-! ## The text -/

/-- A text without NUL is scanned without its last byte. -/
theorem writtenPieces_free {w : WriteCall} (free : NulFree w.buffer) : writtenPieces w = w.buffer.dropLast.splitOn 44 := by
  rw [writtenPieces, writtenText, text_of_nulFree (free.sublist fun _ member => List.dropLast_subset _ member)]

/-- Two texts with the same pieces are the same. -/
theorem splitOn_injective {s t : List Byte} (same : s.splitOn 44 = t.splitOn 44) : s = t := by
  have joined := congrArg [44].intercalate same
  rwa [List.intercalate_splitOn, List.intercalate_splitOn] at joined

theorem dropLast_eq_iff {t : List Byte} (nonempty : t ≠ []) : t.dropLast = withoutNewline t ↔ t.getLast? = some 10 := by
  unfold withoutNewline
  split
  · rename_i newline
    exact iff_of_true rfl newline
  · rename_i other
    refine iff_of_false (fun same => ?_) other
    have lengths := congrArg List.length same
    have positive := List.length_pos_iff.2 nonempty
    rw [List.length_dropLast] at lengths
    omega

/-- **Which texts take effect as they were written**: those that end with a newline. Of any other text the last byte
is lost. -/
theorem takes_written_text_iff {w : WriteCall} (st : ProcConfig) (nonempty : 1 ≤ w.buffer.length)
    (fits : w.buffer.length < procfsMaxSize) (readable : w.buffer.length ≤ w.readable) (free : NulFree w.buffer)
    (short : ∀ p ∈ (withoutNewline w.buffer).splitOn 44, p.length < maxNewConnectionSize) :
    TakesWrittenText w st ↔ w.buffer.getLast? = some 10 := by
  have something : w.buffer ≠ [] := List.length_pos_iff.1 nonempty
  have calls := loggedWrite_accepted st nonempty fits readable
  have pieces := writtenPieces_free free
  rw [← dropLast_eq_iff something]
  constructor
  · rintro ⟨st', written⟩
    rw [calls] at written
    cases result : whitelistPieces w.kmalloc w.stack (writtenPieces w) (shownConfig [] []) with
    | error violation =>
      rw [result] at written
      cases written
    | ok st'' =>
      rw [result, Except.map, Except.ok.injEq, Prod.mk.injEq, Prod.mk.injEq, List.cons.injEq] at written
      have same := List.map_injective_iff.2 (fun _ _ => ListCall.whitelist.inj) written.2.1.2
      exact splitOn_injective (pieces.symm.trans same)
  · intro same
    rw [same] at pieces
    obtain ⟨strings, whiteList, -, -, completes⟩ := procfileWrite_shown st nonempty fits readable (pieces ▸ short)
    rw [procfileWrite_accepted st nonempty fits readable] at completes
    cases result : whitelistPieces w.kmalloc w.stack (writtenPieces w) (shownConfig [] []) with
    | error violation =>
      rw [result] at completes
      cases completes
    | ok st' => exact ⟨st', by rw [calls, result, pieces]; rfl⟩

/-- Two strings with a newline behind them, over the text that an earlier write left. -/
def twoStringsWrite : WriteCall := ⟨bytes "/bin/a,/bin/b\n", 14, false, fun _ => true, []⟩

theorem takes_written_text_newline : TakesWrittenText twoStringsWrite (shownConfig [] (bytes "/usr/sbin/sshd|p<22>,")) :=
  (takes_written_text_iff _ (by decide +kernel) (by decide +kernel) (by decide +kernel) (by decide +kernel)
    (by decide +kernel)).2 (by decide +kernel)

/-- The same strings without it. The second is called as `/bin/`. -/
def unterminatedWrite : WriteCall := ⟨bytes "/bin/a,/bin/b", 13, false, fun _ => true, []⟩

theorem takes_written_text_fails : ¬ TakesWrittenText unterminatedWrite initialProcConfig := by
  rintro ⟨st', written⟩
  have calls := loggedWrite_accepted (w := unterminatedWrite) initialProcConfig (by decide +kernel) (by decide +kernel)
    (by decide +kernel)
  have differ : (writtenPieces unterminatedWrite).map ListCall.whitelist ≠
      ((withoutNewline unterminatedWrite.buffer).splitOn 44).map ListCall.whitelist := by decide +kernel
  rw [calls] at written
  cases result : whitelistPieces unterminatedWrite.kmalloc unterminatedWrite.stack (writtenPieces unterminatedWrite)
      (shownConfig [] []) with
  | error violation =>
    rw [result] at written
    cases written
  | ok st'' =>
    rw [result, Except.map, Except.ok.injEq, Prod.mk.injEq, Prod.mk.injEq, List.cons.injEq] at written
    exact differ written.2.1.2

end Netlog
