import SecuritySuite.Netlog.ProcConfigSteps

/-!
# Rejected writes

`procfile_write` sets the size of the proc buffer before it checks it, and copies into the buffer before it
knows that the copy succeeds. A rejected write leaves the configuration as it was only if it is as long as
the text that is there, and the bytes that were copied are those that were there (`Harmless`).
-/

namespace Netlog
set_option autoImplicit false
open CString

/-- `procfile_write` returns `-ENOSPC` or `-EFAULT`. -/
def Rejection (w : WriteCall) (st st' : ProcConfig) : Prop :=
  procfileWrite w st = .ok (-enospc, st') ∨ procfileWrite w st = .ok (-efault, st')

/-- The list, the buffer and its size are as before, and every later run of operations gives the
same answers. -/
def Unchanged (st st' : ProcConfig) : Prop :=
  st' = st ∧ ∀ later, (Runs.run step later st').map Prod.fst = (Runs.run step later st).map Prod.fst

/-- Why a write is rejected: it is too long, or not all of it can be read. -/
def IsRejected (w : WriteCall) : Prop := procfsMaxSize ≤ w.buffer.length ∨ w.readable < w.buffer.length

/-- The size is the one that is set, and the bytes copied are those at the start of the buffer. -/
def Harmless (st : ProcConfig) (w : WriteCall) : Prop :=
  w.buffer.length = st.procfsBufferSize ∧
    (w.buffer.length < procfsMaxSize → (copyFromUser w).2 <+: st.procfsBuffer.bytes)

theorem unchanged_iff {st st' : ProcConfig} : Unchanged st st' ↔ st' = st :=
  ⟨And.left, fun same => ⟨same, fun later => by rw [same]⟩⟩

/-- The state a rejected write leaves. -/
def rejectedState (w : WriteCall) (st : ProcConfig) : ProcConfig :=
  { st with
    procfsBuffer :=
      if procfsMaxSize ≤ w.buffer.length then st.procfsBuffer else st.procfsBuffer.store 0 (copyFromUser w).2
    procfsBufferSize := w.buffer.length }

theorem rejection_iff {w : WriteCall} {st st' : ProcConfig} :
    Rejection w st st' ↔ IsRejected w ∧ st' = rejectedState w st := by
  unfold Rejection IsRejected rejectedState
  by_cases full : procfsMaxSize ≤ w.buffer.length
  · rw [procfileWrite_enospc st full]
    simp [full, enospc, efault, eq_comm]
  by_cases fault : w.readable < w.buffer.length
  · rw [procfileWrite_efault st (by omega) fault]
    simp [full, fault, enospc, efault, eq_comm]
  · simp only [full, fault, or_self, false_and, iff_false]
    by_cases nonempty : 1 ≤ w.buffer.length
    · rw [procfileWrite_accepted st nonempty (by omega) (by omega)]
      cases whitelistPieces w.kmalloc w.stack (writtenPieces w) (shownConfig [] []) with
      | error violation => rintro (h | h) <;> cases h
      | ok st'' =>
        have code (k : Nat) (positive : 0 < k) :
            (.ok ((w.buffer.length : Int), st'') : Except Violation (Int × ProcConfig)) ≠ .ok (-(k : Int), st') := by
          intro h
          have := congrArg (fun r => (r.map Prod.fst).toOption) h
          simp only [Except.map, Except.toOption, Option.some.injEq] at this
          omega
        exact fun h => h.elim (code 28 (by decide)) (code 14 (by decide))
    · rw [procfileWrite_empty st (by omega)]
      rintro (h | h) <;> cases h

/-- A rejected write changes nothing exactly if it is harmless. -/
theorem rejectedState_iff (w : WriteCall) (st : ProcConfig) : rejectedState w st = st ↔ Harmless st w := by
  unfold rejectedState Harmless
  have length := copyFromUser_length w
  cases st with
  | mk whiteList buffer size =>
    simp only [ProcConfig.mk.injEq, true_and]
    by_cases full : procfsMaxSize ≤ w.buffer.length
    · simp [full, show ¬ w.buffer.length < procfsMaxSize by omega]
    · rw [if_neg full, Buffer.store_eq_self_iff _ (by omega), and_comm]
      simp [show w.buffer.length < procfsMaxSize by omega]

/-- **A rejected write changes nothing**, everywhere in a run, exactly if each rejected write of the
run is harmless in the state it finds. -/
theorem rejected_writes_unchanged_iff (ops : List Op) :
    (∀ pre w post st st', ops = pre ++ .procfileWrite w :: post → Runs.Reaches step initialProcConfig pre st →
        Rejection w st st' → Unchanged st st') ↔
      Runs.Along step (fun st op => ∀ w, op = .procfileWrite w → IsRejected w → Harmless st w) ops
        initialProcConfig := by
  rw [Runs.along_iff]
  constructor
  · rintro unchanged pre _ post st split reaches w rfl rejected
    have same := unchanged pre w post st _ split reaches (rejection_iff.2 ⟨rejected, rfl⟩)
    exact (rejectedState_iff w st).1 (unchanged_iff.1 same)
  · intro harmless pre w post st st' split reaches rejection
    obtain ⟨rejected, rfl⟩ := rejection_iff.1 rejection
    have same := harmless pre _ post st split reaches w rfl rejected
    exact unchanged_iff.2 ((rejectedState_iff w st).2 same)

/-- A write of three bytes of which none can be read sets the size of the empty buffer to 3. -/
theorem rejected_writes_unchanged_fails :
    ¬ ∀ ops pre w post st st', ops = pre ++ .procfileWrite w :: post →
      Runs.Reaches step initialProcConfig pre st → Rejection w st st' → Unchanged st st' := by
  intro claim
  let w : WriteCall := ⟨bytes "/a\n", 0, false, fun _ => true, []⟩
  have rejection : Rejection w initialProcConfig (rejectedState w initialProcConfig) :=
    rejection_iff.2 ⟨.inr (by decide +kernel), rfl⟩
  have unchanged := claim [.procfileWrite w] [] w [] _ _ rfl (Runs.reaches_nil.2 rfl) rejection
  have size := congrArg ProcConfig.procfsBufferSize unchanged.1
  revert size
  decide +kernel

end Netlog
