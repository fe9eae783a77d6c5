import SecuritySuite.Netlog.ProcConfigSteps

/-!
# The proc text and the white list

After an append or a write the buffer holds the strings of the list, each with a comma behind it. A
read takes the last comma away, and nothing puts it back: the next string is appended to the last one. A run
keeps the text and the list consistent as long as no string is added and nothing is trimmed again in
that state, no text outgrows the buffer, and nothing is read from an empty buffer or written
without a byte (`Keeps`).
-/

namespace Netlog
set_option autoImplicit false
open CString Separated

/-- The buffer holds the connection strings of the list in order, joined by commas, with at most one
comma behind them, and the size is that of the text. -/
structure Consistent (st : ProcConfig) : Prop where
  text : ∃ strings, List.Forall₂ Names strings st.whiteList ∧
    (st.procfsBuffer.contents = [44].intercalate strings ∨
      st.procfsBuffer.contents = [44].intercalate strings ++ [44])
  size : st.procfsBufferSize = st.procfsBuffer.contents.length
  bound : st.procfsBufferSize < procfsMaxSize

/-- The calls of a run: strings without a comma, writes that are not rejected, reads at offset 0. -/
def Admissible : Op → Prop
  | .createProcConfig _ => False
  | .whitelist _ connectionString _ => 44 ∉ text connectionString
  | .procfileRead offset _ => offset = 0
  | .procfileWrite w => w.buffer.length < procfsMaxSize ∧ w.buffer.length ≤ w.readable
  | .isWhitelisted _ _ _ => True

/-- There is one comma for each entry of the list: the last comma has not been trimmed. -/
def Untrimmed (st : ProcConfig) : Prop := st.procfsBuffer.contents.count 44 = st.whiteList.length

/-- The condition under which an operation keeps the text and the list consistent. -/
def Keeps (st : ProcConfig) : Op → Prop
  | .whitelist kmalloc connectionString behind =>
    Refused kmalloc (connectionString ++ 0 :: behind) st.whiteList ∨
      Untrimmed st ∧ st.procfsBufferSize + (text connectionString).length + 1 < procfsMaxSize
  | .procfileRead _ bufferLength =>
    ulong bufferLength < st.procfsBufferSize ∨
      1 ≤ st.procfsBufferSize ∧ (st.procfsBuffer.get (st.procfsBufferSize - 1) = 44 → Untrimmed st)
  | .procfileWrite w =>
    1 ≤ w.buffer.length ∧ ∀ piece ∈ writtenPieces w, piece.length < maxNewConnectionSize
  | _ => True

/-- The states of a run: the strings with a comma behind each, or without the last comma. -/
inductive Listed : ProcConfig → Prop
  | full {strings : List (List Byte)} {whiteList : List Connection}
      (named : List.Forall₂ Names strings whiteList) (fits : (terminated 44 strings).length < procfsMaxSize) :
      Listed (shownConfig whiteList (terminated 44 strings))
  | trimmed {strings : List (List Byte)} {whiteList : List Connection} {t : List Byte}
      (named : List.Forall₂ Names strings whiteList) (fits : (terminated 44 strings).length < procfsMaxSize)
      (shape : terminated 44 strings = t ++ [44]) : Listed (shownConfig whiteList t)

theorem terminated_nulFree {strings : List (List Byte)} {whiteList : List Connection}
    (named : List.Forall₂ Names strings whiteList) : NulFree (terminated 44 strings) := by
  induction named with
  | nil => simp
  | cons h _ ih => simpa [h.free] using ih

theorem strings_inside {strings : List (List Byte)} {whiteList : List Connection}
    (named : List.Forall₂ Names strings whiteList) : ∀ s ∈ strings, 44 ∉ s := by
  induction named with
  | nil => simp
  | cons h _ ih => exact List.forall_mem_cons.2 ⟨h.inside, ih⟩

theorem Listed.consistent {st : ProcConfig} (listed : Listed st) : Consistent st := by
  cases listed with
  | @full strings whiteList named fits =>
    have contents := contents_shown whiteList (terminated_nulFree named) fits
    refine ⟨⟨strings, named, ?_⟩, by rw [contents]; rfl, fits⟩
    rw [contents]
    cases strings with
    | nil => exact .inl rfl
    | cons s strings => exact .inr (terminated_eq 44 (by simp))
  | @trimmed strings whiteList t named fits shape =>
    have free : NulFree (t ++ [44]) := shape ▸ terminated_nulFree named
    have short : t.length < procfsMaxSize := by
      rw [shape, List.length_append] at fits
      omega
    have contents := contents_shown whiteList (nulFree_append.1 free).1 short
    refine ⟨⟨strings, named, .inl ?_⟩, by rw [contents]; rfl, short⟩
    have nonempty : strings ≠ [] := by
      rintro rfl
      simp at shape
    rw [terminated_eq 44 nonempty] at shape
    rw [contents]
    exact (List.append_cancel_right shape).symm

/-- A trimmed text has one comma fewer than entries. -/
theorem trimmed_iff {strings : List (List Byte)} {whiteList : List Connection} {t : List Byte}
    (named : List.Forall₂ Names strings whiteList) (fits : (terminated 44 strings).length < procfsMaxSize)
    (shape : terminated 44 strings = t ++ [44]) : ¬ Untrimmed (shownConfig whiteList t) := by
  have free : NulFree (t ++ [44]) := shape ▸ terminated_nulFree named
  have short : t.length < procfsMaxSize := by
    rw [shape, List.length_append] at fits
    omega
  have commas := count_terminated (strings_inside named)
  rw [shape, List.count_append, named.length_eq] at commas
  unfold Untrimmed
  rw [contents_shown whiteList (nulFree_append.1 free).1 short]
  simp only [List.count_singleton_self] at commas
  change ¬ t.count 44 = whiteList.length
  omega

/-! ## One operation -/

theorem Listed.whitelist {st : ProcConfig} (listed : Listed st) {s : List Byte} (inside : 44 ∉ text s)
    (kmalloc : Bool) (behind : List Byte)
    (keeps : Refused kmalloc (s ++ 0 :: behind) st.whiteList ∨
      Untrimmed st ∧ st.procfsBufferSize + (text s).length + 1 < procfsMaxSize) :
    Listed (whitelistConfig kmalloc (s ++ 0 :: behind) st).2 := by
  obtain ⟨tail, memory⟩ := exists_terminated s behind
  rw [memory] at keeps ⊢
  cases listed with
  | @full strings whiteList named fits =>
    have room := keeps.imp_right And.right
    rcases whitelistConfig_shown kmalloc whiteList (nulFree_text s) tail room with ⟨-, result⟩ | ⟨c, admitted, read, result⟩
    · rw [result]
      exact .full named fits
    · have appended : (terminated 44 (strings ++ [text s])).length < procfsMaxSize := by
        have := room.resolve_left admitted
        rw [terminated_snoc]
        simp only [shownConfig, List.length_append, List.length_singleton] at this ⊢
        omega
      rw [result, ← terminated_snoc]
      exact .full (List.rel_append named (.cons ⟨nulFree_text s, inside, _, _, read⟩ .nil)) appended
  | @trimmed strings whiteList t named fits shape =>
    have refused := keeps.resolve_right fun h => trimmed_iff named fits shape h.1
    rcases whitelistConfig_shown kmalloc whiteList (t := t) (nulFree_text s) tail (.inl refused) with
      ⟨-, result⟩ | ⟨c, admitted, -, -⟩
    · rw [result]
      exact .trimmed named fits shape
    · exact absurd refused admitted

theorem Listed.read {st : ProcConfig} (listed : Listed st) (bufferLength : Int)
    (keeps : ulong bufferLength < st.procfsBufferSize ∨
      1 ≤ st.procfsBufferSize ∧ (st.procfsBuffer.get (st.procfsBufferSize - 1) = 44 → Untrimmed st)) :
    ∃ result st', procfileRead 0 bufferLength st = .ok (result, st') ∧ Listed st' := by
  by_cases small : ulong bufferLength < st.procfsBufferSize
  · refine ⟨⟨0, []⟩, st, ?_, listed⟩
    rw [procfileRead, if_neg (by decide), if_pos small]
    rfl
  obtain ⟨nonempty, untrimmed⟩ := keeps.resolve_left small
  cases listed with
  | @full strings whiteList named fits =>
    have some_string : strings ≠ [] := by
      rintro rfl
      simp [shownConfig] at nonempty
    have shape := terminated_eq 44 some_string
    rw [shape] at fits nonempty small ⊢
    have short : ([44].intercalate strings : List Byte).length < procfsMaxSize := by
      rw [List.length_append] at fits
      omega
    have trim := trimLastComma_comma whiteList short
    refine ⟨_, _, procfileRead_shown _ _ small nonempty (Nat.le_of_lt fits) ?_, ?_⟩
    · rw [trim]
      exact nul_mem_shown short
    · rw [trim]
      exact .trimmed named (by rw [shape]; exact fits) shape
  | @trimmed strings whiteList t named fits shape =>
    have short : t.length < procfsMaxSize := by
      rw [shape, List.length_append] at fits
      omega
    have trim := trimLastComma_other fun comma => trimmed_iff named fits shape (untrimmed comma)
    refine ⟨_, _, procfileRead_shown _ _ small nonempty (Nat.le_of_lt short) ?_, ?_⟩
    · rw [trim]
      exact nul_mem_shown short
    · rw [trim]
      exact .trimmed named fits shape

/-- **One operation that meets the condition keeps the text and the list in step.** -/
theorem Listed.step {st : ProcConfig} (listed : Listed st) {op : Op} (admissible : Admissible op)
    (keeps : Keeps st op) : ∃ answer st', Netlog.step st op = .ok (answer, st') ∧ Listed st' := by
  cases op with
  | createProcConfig entry => cases admissible
  | whitelist kmalloc s behind => exact ⟨_, _, rfl, listed.whitelist admissible kmalloc behind keeps⟩
  | procfileRead offset bufferLength =>
    cases admissible
    obtain ⟨result, st', read, listed'⟩ := listed.read bufferLength keeps
    exact ⟨.read result, st', by rw [Netlog.step, read]; rfl, listed'⟩
  | procfileWrite w =>
    obtain ⟨strings, whiteList, named, fits, result⟩ :=
      procfileWrite_shown st keeps.1 admissible.1 admissible.2 keeps.2
    exact ⟨_, _, by rw [Netlog.step, result]; rfl, .full named fits⟩
  | isWhitelisted task ip port => exact ⟨_, _, rfl, listed⟩

/-! ## Runs -/

/-- **The proc text and the white list stay consistent** in every run whose operations all meet the
condition: such a run completes, and every state it reaches is consistent. -/
theorem consistent_along (entry : Bool) {ops : List Op} (admissible : ∀ op ∈ ops, Admissible op)
    (keeps : Runs.Along step Keeps ops (createProcConfig entry initialProcConfig).2) {pre : List Op}
    (reached : pre <+: ops) :
    ∃ st, Runs.Reaches step (createProcConfig entry initialProcConfig).2 pre st ∧ Consistent st := by
  have start : Listed (createProcConfig entry initialProcConfig).2 :=
    createProcConfig_initial entry ▸ @Listed.full [] [] .nil (by decide)
  obtain ⟨later, rfl⟩ := reached
  have kept : ∀ st op, Listed st → Admissible op ∧ Keeps st op →
      ∃ answer st', step st op = .ok (answer, st') ∧ Listed st' :=
    fun _ _ listed cond => listed.step cond.1 cond.2
  obtain ⟨st, run, listed⟩ := Runs.keeps_along _ kept start (keeps.and admissible).front
  exact ⟨st, run, listed.consistent⟩

/-- A string added after the start, and then a write. -/
theorem consistent_along_write :
    ∃ st, Runs.Reaches step (createProcConfig true initialProcConfig).2
      [.whitelist true (bytes "/bin/a") [], .procfileWrite ⟨bytes "/bin/b,/bin/c\n", 14, false, fun _ => true, []⟩] st ∧
        Consistent st := by
  refine @consistent_along true [.whitelist true (bytes "/bin/a") [],
    .procfileWrite ⟨bytes "/bin/b,/bin/c\n", 14, false, fun _ => true, []⟩] ?_
    ⟨?_, fun _ _ _ => ⟨?_, fun _ _ _ => trivial⟩⟩ _ (List.prefix_refl _)
  · intro op member
    rcases List.mem_pair.1 member with rfl | rfl
    · show 44 ∉ text (bytes "/bin/a")
      decide +kernel
    · show (bytes "/bin/b,/bin/c\n").length < procfsMaxSize ∧ (bytes "/bin/b,/bin/c\n").length ≤ 14
      decide +kernel
  · refine .inr ⟨?_, ?_⟩
    · show (Buffer.zero procfsMaxSize).contents.count 44 = 0
      rw [Buffer.contents_zero]
      rfl
    · show 0 + (text (bytes "/bin/a")).length + 1 < procfsMaxSize
      decide +kernel
  · show 1 ≤ (bytes "/bin/b,/bin/c\n").length ∧
      ∀ piece ∈ writtenPieces ⟨bytes "/bin/b,/bin/c\n", 14, false, fun _ => true, []⟩,
        piece.length < maxNewConnectionSize
    decide +kernel

/-- A read between two additions: the buffer shows `/a/b,` for the list of `/a` and `/b`. -/
theorem consistent_fails :
    ¬ ∀ entry ops, (∀ op ∈ ops, Admissible op) → ∀ pre, pre <+: ops →
      ∃ st, Runs.Reaches step (createProcConfig entry initialProcConfig).2 pre st ∧ Consistent st := by
  intro claim
  let ops : List Op := [.whitelist true (bytes "/a") [], .procfileRead 0 100, .whitelist true (bytes "/b") []]
  have admissible : ∀ op ∈ ops, Admissible op := by
    intro op member
    simp only [ops, List.mem_cons, List.not_mem_nil, or_false] at member
    rcases member with rfl | rfl | rfl
    · show 44 ∉ text (bytes "/a")
      decide +kernel
    · rfl
    · show 44 ∉ text (bytes "/b")
      decide +kernel
  obtain ⟨st, ⟨answers, run⟩, consistent⟩ := claim true ops admissible _ (List.prefix_refl _)
  have outcome : (match Runs.run step ops (createProcConfig true initialProcConfig).2 with
      | .ok (_, st) => decide (st.whiteList = [⟨noPort, [], bytes "/a"⟩, ⟨noPort, [], bytes "/b"⟩] ∧
          st.procfsBuffer.contents = bytes "/a/b" ++ 44 :: [])
      | .error _ => false) = true := by decide +kernel
  rw [run] at outcome
  obtain ⟨listed, shown⟩ := of_decide_eq_true outcome
  obtain ⟨strings, named, joined⟩ := consistent.text
  rw [listed] at named
  obtain ⟨s, s', rfl, first⟩ : ∃ s s', strings = [s, s'] ∧ Names s ⟨noPort, [], bytes "/a"⟩ := by
    cases named with
    | cons first rest =>
      cases rest with
      | cons _ rest =>
        cases rest
        exact ⟨_, _, rfl, first⟩
  have front : s = bytes "/a/b" := by
    rw [shown] at joined
    have literal : (44 : Byte) ∉ bytes "/a/b" := by decide +kernel
    rcases joined with h | h
    · exact (split_unique literal first.inside (by simpa using h)).1.symm
    · exact (split_unique literal first.inside (by simpa using h)).1.symm
  obtain ⟨kmalloc, t, parsed⟩ := first.parsed
  cases kmalloc with
  | false => cases parsed
  | true =>
    have free : NulFree (bytes "/a/b") := by decide +kernel
    have bar : fieldSeparator ∉ bytes "/a/b" := by decide +kernel
    rw [front, show initializeConnectionFromString true (bytes "/a/b" ++ 0 :: t) = _ from
      fillConnection_executable ⟨noPort, [], []⟩ free bar t] at parsed
    revert parsed
    decide +kernel

end Netlog
