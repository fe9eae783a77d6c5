import SecuritySuite.Netlog.ProcConfigSteps

/-!
# The room of a read

`procfile_read` compares the size of the text with the buffer it is given before it trims the last comma and adds a
newline, and `snprintf` needs one more byte for its terminator and returns the length before truncation. So a read can
return a count whose last bytes are not in the buffer, or one that is larger than the buffer. `reads_whole_iff` says when.
-/

namespace Netlog
set_option autoImplicit false
open CString

/-- The listing as a read shows it. -/
def withoutTrailingComma (t : List Byte) : List Byte := if t.getLast? = some 44 then t.dropLast else t

/-- The caller's buffer after the read: the text, its terminator, and behind it what was there. -/
def bufferAfter (old : List Byte) (result : ReadResult) : List Byte :=
  result.buffer ++ 0 :: old.drop (result.buffer.length + 1)

/-- A read at offset 0 either returns 0 and leaves the state, or a count of bytes in the buffer that are the whole
listing and a newline. -/
def ReadsWhole (st : ProcConfig) (bufferLength : Int) : Prop :=
  ∃ result st', procfileRead 0 bufferLength st = .ok (result, st') ∧
    (result.written = 0 ∧ st' = st ∨
      result.written ≤ bufferLength ∧ ∀ old : List Byte, old.length = bufferLength →
        (bufferAfter old result).take result.written = withoutTrailingComma st.procfsBuffer.contents ++ [10])

/-- The buffer is too small for the text, or large enough for the listing, the newline and the terminator. -/
def HasRoom (st : ProcConfig) (bufferLength : Int) : Prop :=
  bufferLength < st.procfsBufferSize ∨
    1 ≤ st.procfsBufferSize ∧ (withoutTrailingComma st.procfsBuffer.contents).length + 2 ≤ bufferLength

/-- `procfs_buffer` holds a text, and `procfs_buffer_size` is its length. -/
structure HoldsText (st : ProcConfig) : Prop where
  terminated : 0 ∈ st.procfsBuffer.bytes
  size : st.procfsBufferSize = st.procfsBuffer.contents.length

namespace HoldsText

variable {st : ProcConfig}

theorem bytes (held : HoldsText st) : ∃ rest, st.procfsBuffer.bytes = st.procfsBuffer.contents ++ 0 :: rest :=
  Buffer.bytes_of_nul_mem held.terminated

theorem fits (held : HoldsText st) : st.procfsBufferSize < procfsMaxSize := by
  obtain ⟨rest, bytes⟩ := held.bytes
  have size := st.procfsBuffer.sized
  rw [bytes, List.length_append, List.length_cons] at size
  rw [held.size]
  omega

theorem get_last (held : HoldsText st) (nonempty : 1 ≤ st.procfsBufferSize) :
    st.procfsBuffer.contents.getLast? = some (st.procfsBuffer.get (st.procfsBufferSize - 1)) := by
  obtain ⟨rest, bytes⟩ := held.bytes
  have inside : st.procfsBuffer.contents.length - 1 < st.procfsBuffer.contents.length := by
    rw [held.size] at nonempty
    omega
  rw [Buffer.get, bytes, held.size, List.getD_append _ _ _ _ inside, List.getLast?_eq_getElem?,
    List.getElem?_eq_getElem inside, List.getD_eq_getElem _ _ inside]

/-- The trimming leaves the text that a read shows. -/
theorem trimmed (held : HoldsText st) (nonempty : 1 ≤ st.procfsBufferSize) :
    (trimLastComma st).procfsBuffer.contents = withoutTrailingComma st.procfsBuffer.contents ∧
      0 ∈ (trimLastComma st).procfsBuffer.bytes := by
  simp only [withoutTrailingComma, held.get_last nonempty, Option.some_inj]
  split
  case isFalse other =>
    rw [trimLastComma_other other]
    exact ⟨rfl, held.terminated⟩
  case isTrue comma =>
    have size := held.size
    have inside : st.procfsBufferSize - 1 < st.procfsBuffer.contents.length := by omega
    have cut := Buffer.contents_store_nul inside
    rw [trimLastComma, if_pos comma, List.dropLast_eq_take, ← size]
    exact cut

/-- The answer of a read that finds its buffer large enough for the text. -/
theorem read (held : HoldsText st) (nonempty : 1 ≤ st.procfsBufferSize) {bufferLength : Int}
    (large : ¬ ulong bufferLength < st.procfsBufferSize) :
    procfileRead 0 bufferLength st =
      .ok (⟨(withoutTrailingComma st.procfsBuffer.contents ++ [10]).length,
        snprintf (ulong bufferLength) (withoutTrailingComma st.procfsBuffer.contents ++ [10])⟩, trimLastComma st) := by
  have fits := held.fits
  obtain ⟨shown, terminated⟩ := held.trimmed nonempty
  rw [procfileRead_shown bufferLength st large nonempty (by omega) terminated, shown]

end HoldsText

/-! ## The count and the buffer -/

/-- The count is that of the bytes in the buffer exactly if the terminator fits, too. -/
theorem counted_iff (t : List Byte) (n : Nat) :
    ((t ++ [10]).length ≤ n ∧ ∀ old : List Byte, old.length = n →
      (bufferAfter old ⟨(t ++ [10]).length, snprintf n (t ++ [10])⟩).take (t ++ [10]).length = t ++ [10]) ↔
      t.length + 2 ≤ n := by
  have length : (t ++ [10]).length = t.length + 1 := by simp
  constructor
  · rintro ⟨bound, shown⟩
    by_contra short
    have full : n - 1 = t.length := by omega
    have cut : snprintf n (t ++ [10]) = t := by
      rw [snprintf, full]
      exact List.take_left' rfl
    -- the terminator stands where the newline should be
    have after := shown (List.replicate n 0) List.length_replicate
    rw [bufferAfter, cut, length, List.take_append, List.take_of_length_le (Nat.le_succ _),
      Nat.add_sub_cancel_left, List.take_succ_cons, List.take_zero] at after
    have same := List.append_cancel_left after
    cases same
  · intro room
    have whole : snprintf n (t ++ [10]) = t ++ [10] := List.take_of_length_le (by omega)
    refine ⟨by omega, fun old _ => ?_⟩
    rw [bufferAfter, whole, List.take_left' rfl]

theorem ulong_of_int {bufferLength : Int} (positive : 1 ≤ bufferLength) (int : bufferLength < 2 ^ 31) :
    ulong bufferLength = bufferLength.toNat := by
  unfold ulong
  omega

namespace HoldsText

variable {st : ProcConfig} {bufferLength : Int}

/-- A read that is not refused. -/
theorem reads_iff (held : HoldsText st) (nonempty : 1 ≤ st.procfsBufferSize)
    (large : st.procfsBufferSize ≤ bufferLength) (int : bufferLength < 2 ^ 31) :
    ReadsWhole st bufferLength ↔ (withoutTrailingComma st.procfsBuffer.contents).length + 2 ≤ bufferLength := by
  have length := ulong_of_int (show 1 ≤ bufferLength by omega) int
  have counted := counted_iff (withoutTrailingComma st.procfsBuffer.contents) (ulong bufferLength)
  rw [ReadsWhole, held.read nonempty (by omega)]
  constructor
  · rintro ⟨result, st', done, zero | ⟨bound, shown⟩⟩
    · cases done
      simp at zero
    · cases done
      dsimp only at bound
      have room := counted.1 ⟨by omega, fun old size => shown old (by omega)⟩
      omega
  · intro room
    obtain ⟨bound, shown⟩ := counted.2 (by omega)
    refine ⟨_, _, rfl, .inr ⟨?_, fun old size => shown old (by omega)⟩⟩
    dsimp only
    omega

end HoldsText

theorem holdsText_shown {whiteList : List Connection} {t : List Byte} (free : NulFree t)
    (fits : t.length < procfsMaxSize) : HoldsText (shownConfig whiteList t) where
  terminated := nul_mem_shown fits
  size := by rw [contents_shown whiteList free fits]; rfl

/-- **A configuration read returns what it wrote**, and no more, exactly if its buffer is smaller than the text or has
room for the listing, the newline and the terminator. -/
theorem reads_whole_iff {st : ProcConfig} (held : HoldsText st) {bufferLength : Int} (positive : 1 ≤ bufferLength)
    (int : bufferLength < 2 ^ 31) : ReadsWhole st bufferLength ↔ HasRoom st bufferLength := by
  have length := ulong_of_int positive int
  unfold HasRoom
  by_cases small : bufferLength < st.procfsBufferSize
  · -- refused: the count is 0
    have refused : procfileRead 0 bufferLength st = .ok (⟨0, []⟩, st) := by
      rw [procfileRead, if_neg (by decide), if_pos (by omega)]
      rfl
    exact ⟨fun _ => .inl small, fun _ => ⟨_, _, refused, .inl ⟨rfl, rfl⟩⟩⟩
  · by_cases nonempty : 1 ≤ st.procfsBufferSize
    · rw [held.reads_iff nonempty (by omega) int]
      simp [small, nonempty]
    · -- an empty text: the last character would stand in front of the buffer
      have wraps : procfileRead 0 bufferLength st = .error .wrap := by
        rw [procfileRead, if_neg (by decide), if_neg (by omega), check_error nonempty]
        rfl
      simp [ReadsWhole, wraps, small, nonempty]

/-- After `whitelist("/bin/a")`. -/
def oneListed : ProcConfig := shownConfig [⟨noPort, [], bytes "/bin/a"⟩] (bytes "/bin/a" ++ [44])

theorem oneListed_holds : HoldsText oneListed := holdsText_shown (by decide +kernel) (by decide +kernel)

theorem oneListed_reached :
    Runs.Reaches step (createProcConfig true initialProcConfig).2 [.whitelist true (bytes "/bin/a") []] oneListed := by
  have parses : initializeConnectionFromString true (bytes "/bin/a" ++ [0]) = some ⟨noPort, [], bytes "/bin/a"⟩ := by
    decide +kernel
  have listed : whitelistConfig true (bytes "/bin/a" ++ [0]) (shownConfig [] []) = (whitelisted, oneListed) := by
    rcases whitelistConfig_shown true [] (t := []) (s := bytes "/bin/a") (by decide +kernel) []
      (.inr (by decide +kernel)) with ⟨refused, -⟩ | ⟨c, -, read, result⟩
    · simp [Refused, parses, maxWhitelistSize] at refused
    · rw [parses, Option.some_inj] at read
      rw [result, ← read]
      rfl
  rw [createProcConfig_initial]
  exact ⟨[.code whitelisted], by simp [Runs.run, step, listed]⟩

/-- Eight bytes are enough for `/bin/a`, the newline and the terminator. -/
theorem reads_whole_listed : ReadsWhole oneListed 8 :=
  (reads_whole_iff oneListed_holds (by decide) (by decide)).2 (.inr (by decide +kernel))

/-- A buffer of 7 bytes gets the terminator in place of the newline that the count includes. -/
theorem reads_whole_fails : ¬ ∀ ops st, Runs.Reaches step (createProcConfig true initialProcConfig).2 ops st →
    HoldsText st → st.whiteList ≠ [] → ∀ bufferLength : Int, 1 ≤ bufferLength → bufferLength < 2 ^ 31 →
      ReadsWhole st bufferLength := by
  intro claim
  have whole := claim _ _ oneListed_reached oneListed_holds (by decide +kernel) 7 (by decide) (by decide)
  rw [oneListed_holds.reads_iff (by decide +kernel) (by decide +kernel) (by decide)] at whole
  exact absurd whole (by decide +kernel)

end Netlog
