import SecuritySuite.Foundation.FirstCome
import SecuritySuite.Netlog.ConnectionFormat
import SecuritySuite.Netlog.ProcConfigSteps

/-!
# Writing back what the file shows

The pieces of a written text are offered to the list one after the other, and the buffer then holds those
that were accepted (`keptPieces`). Strings with closed fields are read the same wherever they stand in
memory, so what is accepted depends on the strings alone, and the accepted strings are accepted again
when they are all that is offered.
-/

namespace Netlog
set_option autoImplicit false
open CString Separated FirstCome

/-- The connection a string names, in a memory with nothing behind it. -/
def parsed (s : List Byte) : Option Connection := initializeConnectionFromString true (s ++ [0])

/-- The string is read the same in every memory. -/
def Local (s : List Byte) : Prop := ∀ t, initializeConnectionFromString true (s ++ 0 :: t) = parsed s

/-- Whether `whitelist` accepts a string after those kept. -/
def accepts (kept : List (List Byte)) (s : List Byte) : Bool :=
  kept.length != maxWhitelistSize && (parsed s).any fun c => !(kept.filterMap parsed).any (connectionsAreEqual c)

/-- The pieces that are accepted. -/
def keptPieces (pieces : List (List Byte)) : List (List Byte) := keepAll accepts [] pieces

/-- A configuration that lists the strings kept. -/
def listing (kept : List (List Byte)) : ProcConfig := shownConfig (kept.filterMap parsed) (terminated 44 kept)

/-- Bytes other than `','`, `'|'`, `'>'` and NUL. -/
def Plain (s : List Byte) : Prop := ∀ b ∈ s, b ≠ 44 ∧ b ≠ fieldSeparator ∧ b ≠ 62 ∧ b ≠ 0

/-- A string that can be written: a path, with or without an ip field and a port field in brackets. -/
inductive WrittenForm : List Byte → Prop
  | path {path : List Byte} : path ≠ [] → Plain path → WrittenForm path
  | ip {path ip : List Byte} : path ≠ [] → Plain path → Plain ip →
      WrittenForm (path ++ fieldSeparator :: 105 :: 60 :: (ip ++ [62]))
  | port {path port : List Byte} : path ≠ [] → Plain path → 44 ∉ port →
      WrittenForm (path ++ fieldSeparator :: 112 :: 60 :: (port ++ [62]))
  | ipPort {path ip port : List Byte} : path ≠ [] → Plain path → Plain ip → 44 ∉ port →
      WrittenForm (path ++ fieldSeparator :: 105 :: 60 :: (ip ++ 62 :: fieldSeparator :: 112 :: 60 :: (port ++ [62])))

/-! ## Strings that are read the same everywhere -/

theorem Plain.nulFree {s : List Byte} (plain : Plain s) : NulFree s := fun b member => (plain b member).2.2.2

theorem Plain.noComma {s : List Byte} (plain : Plain s) : 44 ∉ s := fun member => (plain 44 member).1 rfl

theorem Plain.noSeparator {s : List Byte} (plain : Plain s) : fieldSeparator ∉ s := fun member =>
  (plain _ member).2.1 rfl

theorem WrittenForm.noComma {s : List Byte} (form : WrittenForm s) : 44 ∉ s := by
  cases form with
  | path _ plain => exact plain.noComma
  | ip _ plain plain' => simp [plain.noComma, plain'.noComma, fieldSeparator]
  | port _ plain free => simp [plain.noComma, free, fieldSeparator]
  | ipPort _ plain plain' free => simp [plain.noComma, plain'.noComma, free, fieldSeparator]

/-- A string without a separator is read the same everywhere. -/
theorem local_path {path : List Byte} (free : NulFree path) (bar : fieldSeparator ∉ path) : Local path := by
  refine parse_local free fun _ p field ends => bar ?_
  rw [ends.split]
  simp

/-- So is a string in which the separator is followed by another letter than `'i'`, or by an ip field
with its closing bracket. -/
theorem local_field {path field : List Byte} (free : NulFree (path ++ fieldSeparator :: field))
    (bar : fieldSeparator ∉ path)
    (closed : peek field = 105 → onFrom endOfValue (skip 60 field.tail) ≠ []) :
    Local (path ++ fieldSeparator :: field) := by
  refine parse_local free fun _ p f ends => ?_
  obtain ⟨split, before, letter, ended⟩ := ends
  obtain ⟨rfl, rfl⟩ := split_unique bar before split
  exact closed letter ended

/-- The scan of a bracketed ip stops at its closing bracket. -/
theorem bracket_closed {ip : List Byte} (plain : Plain ip) (rest : List Byte) :
    onFrom endOfValue (skip 60 (105 :: 60 :: (ip ++ 62 :: rest)).tail) ≠ [] := by
  have inside : ∀ b ∈ ip, endOfValue b = false := fun b member =>
    endOfValue_false (plain b member).2.2.1 (plain b member).2.2.2 (plain b member).2.1
  rw [List.tail_cons, skip_cons_self, onFrom_delimited inside rfl]
  exact List.cons_ne_nil _ _

/-- A written string, cut at a NUL of its port text, is read the same everywhere. -/
theorem WrittenForm.local {s : List Byte} (form : WrittenForm s) : Local (text s) := by
  have free := nulFree_text s
  cases form with
  | path _ plain =>
    rw [text_of_nulFree plain.nulFree] at free ⊢
    exact local_path free plain.noSeparator
  | @ip path ip _ plain plain' =>
    have whole : NulFree (path ++ fieldSeparator :: 105 :: 60 :: (ip ++ [62])) := by
      simp [plain.nulFree, plain'.nulFree, fieldSeparator]
    rw [text_of_nulFree whole]
    exact local_field whole plain.noSeparator fun _ => bracket_closed plain' []
  | @port path port _ plain _ =>
    have cut := text_append plain.nulFree (fieldSeparator :: 112 :: 60 :: (port ++ [62]))
    have cut' : text (fieldSeparator :: 112 :: 60 :: (port ++ [62])) =
        fieldSeparator :: 112 :: 60 :: text (port ++ [62]) := rfl
    rw [cut, cut'] at free ⊢
    exact local_field free plain.noSeparator fun letter => by cases letter
  | @ipPort path ip port _ plain plain' _ =>
    have front : NulFree (path ++ fieldSeparator :: 105 :: 60 :: (ip ++ 62 :: [fieldSeparator, 112, 60])) := by
      simp [plain.nulFree, plain'.nulFree, fieldSeparator]
    have cut := text_append front (port ++ [62])
    simp only [List.append_assoc, List.cons_append, List.nil_append] at cut
    rw [cut] at free ⊢
    exact local_field free plain.noSeparator fun _ => bracket_closed plain' _

/-! ## The pieces of a joined text -/

/-- Cutting the text of a join gives the texts of joined pieces. -/
theorem splitOn_text_intercalate {pieces : List (List Byte)} (inside : ∀ p ∈ pieces, 44 ∉ p)
    (nonempty : pieces ≠ []) {piece : List Byte}
    (member : piece ∈ (text ([44].intercalate pieces)).splitOn 44) : ∃ p ∈ pieces, piece = text p := by
  induction pieces with
  | nil => exact absurd rfl nonempty
  | cons p pieces ih =>
    obtain ⟨insideP, inside⟩ := List.forall_mem_cons.1 inside
    have single : piece ∈ (text p).splitOn 44 → ∃ q ∈ p :: pieces, piece = text q := by
      intro member
      have absent : 44 ∉ text p := fun h => insideP ((List.takeWhile_prefix _).subset h)
      rw [List.splitOn_eq_singleton absent, List.mem_singleton] at member
      exact ⟨p, by simp, member⟩
    cases pieces with
    | nil =>
      rw [List.intercalate_singleton] at member
      exact single member
    | cons q pieces =>
      rw [List.intercalate_cons_cons, List.append_assoc] at member
      by_cases free : NulFree p
      · have cut : text ([44] ++ [44].intercalate (q :: pieces)) = 44 :: text ([44].intercalate (q :: pieces)) := rfl
        rw [text_append free, cut, List.splitOn_append_cons_self_of_not_mem insideP, List.mem_cons] at member
        rcases member with same | later
        · exact ⟨p, by simp, same.trans (text_of_nulFree free).symm⟩
        · obtain ⟨r, member, same⟩ := ih inside (by simp) later
          exact ⟨r, List.mem_cons_of_mem _ member, same⟩
      · rw [text_append_of_nul free] at member
        exact single member

/-! ## Offering pieces to the list -/

/-- Every kept string names a connection. -/
def Parsed (kept : List (List Byte)) : Prop := ∀ s ∈ kept, (parsed s).isSome

theorem length_filterMap_parsed {kept : List (List Byte)} (all : Parsed kept) :
    (kept.filterMap parsed).length = kept.length := List.filterMap_length_eq_length.2 all

theorem refused_iff {kept : List (List Byte)} (all : Parsed kept) {s : List Byte} (everywhere : Local s)
    (tail : Memory) :
    Refused true (s ++ 0 :: tail) (kept.filterMap parsed) ↔ accepts kept s = false := by
  rw [Refused, length_filterMap_parsed all, everywhere tail, accepts]
  by_cases full : kept.length = maxWhitelistSize
  · simp [full]
  cases read : parsed s with
  | none => simp [Option.any]
  | some c => simp [full, Option.any]

/-- The whole list of pieces: what is kept is listed, in the text and in the white list. -/
theorem whitelistPieces_listing {pieces : List (List Byte)} (free : ∀ p ∈ pieces, NulFree p)
    (short : ∀ p ∈ pieces, p.length < maxNewConnectionSize) (everywhere : ∀ p ∈ pieces, Local p) (stack : Memory)
    {kept : List (List Byte)} (all : Parsed kept)
    (fits : (terminated 44 kept).length + (terminated 44 pieces).length < procfsMaxSize) :
    whitelistPieces (fun _ => true) stack pieces (listing kept) = .ok (listing (keepAll accepts kept pieces)) ∧
      Parsed (keepAll accepts kept pieces) ∧
      (terminated 44 (keepAll accepts kept pieces)).length ≤
        (terminated 44 kept).length + (terminated 44 pieces).length := by
  induction pieces generalizing stack kept with
  | nil => exact ⟨rfl, all, Nat.le_refl _⟩
  | cons p pieces ih =>
    obtain ⟨freeP, free⟩ := List.forall_mem_cons.1 free
    obtain ⟨shortP, short⟩ := List.forall_mem_cons.1 short
    obtain ⟨everywhereP, everywhere⟩ := List.forall_mem_cons.1 everywhere
    rw [terminated_cons, List.length_append, List.length_append, List.length_singleton] at fits ⊢
    have decided := refused_iff all everywhereP (stack.drop (p.length + 1))
    have next : keepAll accepts kept (p :: pieces) = keepAll accepts (keep accepts kept p) pieces := rfl
    rw [whitelistPieces_cons shortP, next]
    rcases whitelistConfig_shown true (kept.filterMap parsed) (t := terminated 44 kept) freeP
      (stack.drop (p.length + 1)) (.inr (by omega)) with ⟨refused, result⟩ | ⟨c, admitted, read, result⟩
    · have dropped : keep accepts kept p = kept := if_neg (by rw [decided.1 refused]; decide)
      rw [dropped, listing, result]
      obtain ⟨rest, all', bound⟩ := ih free short everywhere (p ++ 0 :: stack.drop (p.length + 1)) all (by omega)
      exact ⟨rest, all', by omega⟩
    · have kept' : keep accepts kept p = kept ++ [p] := if_pos (by simpa using mt decided.2 admitted)
      rw [everywhereP] at read
      have grown : shownConfig (kept.filterMap parsed ++ [c]) (terminated 44 kept ++ (p ++ [44])) =
          listing (kept ++ [p]) := by
        rw [listing, terminated_snoc, List.filterMap_append]
        simp [read]
      have length : (terminated 44 (kept ++ [p])).length = (terminated 44 kept).length + (p.length + 1) := by
        rw [terminated_snoc]
        simp
      have all' : Parsed (kept ++ [p]) := fun s member => by
        rcases List.mem_append.1 member with before | last
        · exact all s before
        · rw [List.mem_singleton.1 last, read]
          rfl
      rw [kept', listing, result, grown]
      obtain ⟨rest, all'', bound⟩ := ih free short everywhere (p ++ 0 :: stack.drop (p.length + 1)) all' (by omega)
      exact ⟨rest, all'', by omega⟩

/-- What a write of strings that are read the same everywhere leaves. -/
theorem procfileWrite_listing {w : WriteCall} (st : ProcConfig) (nonempty : 1 ≤ w.buffer.length)
    (fits : w.buffer.length < procfsMaxSize) (readable : w.buffer.length ≤ w.readable)
    (allocates : ∀ i, w.kmalloc i = true) (short : ∀ p ∈ writtenPieces w, p.length < maxNewConnectionSize)
    (everywhere : ∀ p ∈ writtenPieces w, Local p) :
    procfileWrite w st = .ok ((w.buffer.length : Int), listing (keptPieces (writtenPieces w))) ∧
      (terminated 44 (keptPieces (writtenPieces w))).length ≤ w.buffer.length := by
  have length := writtenPieces_length nonempty
  obtain ⟨result, -, bound⟩ := whitelistPieces_listing (fun _ => writtenPieces_nulFree) short everywhere w.stack
    (show Parsed [] from by simp [Parsed]) (by rw [terminated_nil, List.length_nil]; omega)
  rw [terminated_nil, List.length_nil] at bound
  refine ⟨?_, show (terminated 44 (keepAll accepts [] _)).length ≤ _ by omega⟩
  rw [procfileWrite_accepted st nonempty fits readable, funext allocates, show shownConfig [] [] = listing [] from rfl,
    result]
  rfl

/-! ## Writing back -/

theorem nulFree_intercalate {kept : List (List Byte)} (free : ∀ s ∈ kept, NulFree s) : NulFree ([44].intercalate kept) := by
  by_cases nonempty : kept = []
  · rw [nonempty, List.intercalate_nil]
    exact nulFree_nil
  have shown : NulFree (terminated 44 kept) := fun b member => by
    rcases mem_terminated member with rfl | ⟨s, kept, inside⟩
    · decide
    · exact free s kept b inside
  rw [terminated_eq 44 nonempty, nulFree_append] at shown
  exact shown.1

/-- A read shows the strings of a listing, and trims the last comma. -/
theorem procfileRead_listing {kept : List (List Byte)} (nonempty : kept ≠ []) (free : ∀ s ∈ kept, NulFree s)
    (fits : (terminated 44 kept).length < procfsMaxSize) {bufferLength : Int}
    (large : (terminated 44 kept).length < ulong bufferLength) :
    procfileRead 0 bufferLength (listing kept) = .ok (⟨([44].intercalate kept ++ [10]).length, [44].intercalate kept ++ [10]⟩,
      shownConfig (kept.filterMap parsed) ([44].intercalate kept)) := by
  have shape := terminated_eq 44 nonempty
  have size : (terminated 44 kept).length = ([44].intercalate kept).length + 1 := by
    rw [shape]
    simp
  have trimmed : trimLastComma (listing kept) = shownConfig (kept.filterMap parsed) ([44].intercalate kept) := by
    rw [listing, shape]
    exact trimLastComma_comma _ (by omega)
  have contents := contents_shown (kept.filterMap parsed) (nulFree_intercalate free) (by omega)
  have whole : snprintf (ulong bufferLength) ([44].intercalate kept ++ [10]) = [44].intercalate kept ++ [10] := by
    rw [snprintf, List.take_of_length_le]
    rw [List.length_append, List.length_singleton]
    omega
  rw [procfileRead_shown bufferLength (listing kept)
    (show ¬ ulong bufferLength < (terminated 44 kept).length by omega)
    (show 1 ≤ (terminated 44 kept).length by omega)
    (show (terminated 44 kept).length ≤ procfsMaxSize by omega)
    (by rw [trimmed]; exact nul_mem_shown (by omega)), trimmed, contents, whole]

/-- **Writing back what the configuration file shows changes nothing.** -/
theorem write_back_restores {pieces : List (List Byte)} (nonempty : pieces ≠ [])
    (forms : ∀ p ∈ pieces, WrittenForm p) (short : ∀ p ∈ pieces, p.length < maxNewConnectionSize) {w : WriteCall}
    (written : w.buffer = [44].intercalate pieces ++ [10]) (fits : w.buffer.length < procfsMaxSize)
    (readable : w.buffer.length ≤ w.readable) (allocates : ∀ i, w.kmalloc i = true) (st : ProcConfig) :
    ∃ st₁, procfileWrite w st = .ok ((w.buffer.length : Int), st₁) ∧ (st₁.whiteList ≠ [] →
      ∀ bufferLength, st₁.procfsBufferSize < ulong bufferLength →
        ∃ result st₂, procfileRead 0 bufferLength st₁ = .ok (result, st₂) ∧
          result.written = result.buffer.length ∧
          ∀ w' : WriteCall, w'.buffer = result.buffer → w'.buffer.length ≤ w'.readable →
            (∀ i, w'.kmalloc i = true) → procfileWrite w' st₂ = .ok ((w'.buffer.length : Int), st₁)) := by
  have front : w.buffer.dropLast = [44].intercalate pieces := by simp [written]
  have pieces_of {p : List Byte} (member : p ∈ writtenPieces w) : ∃ q ∈ pieces, p = text q := by
    rw [writtenPieces, writtenText, front] at member
    exact splitOn_text_intercalate (fun q h => (forms q h).noComma) nonempty member
  have short' : ∀ p ∈ writtenPieces w, p.length < maxNewConnectionSize := fun p member => by
    obtain ⟨q, piece, rfl⟩ := pieces_of member
    exact (List.takeWhile_prefix _).length_le.trans_lt (short q piece)
  have everywhere : ∀ p ∈ writtenPieces w, Local p := fun p member => by
    obtain ⟨q, piece, rfl⟩ := pieces_of member
    exact (forms q piece).local
  have long : 1 ≤ w.buffer.length := by simp [written]
  obtain ⟨result, bound⟩ := procfileWrite_listing st long fits readable allocates short' everywhere
  refine ⟨_, result, fun listed bufferLength large => ?_⟩
  have again : keptPieces (keptPieces (writtenPieces w)) = keptPieces (writtenPieces w) := keepAll_kept _ _
  have from_w : ∀ s ∈ keptPieces (writtenPieces w), s ∈ writtenPieces w := fun s => mem_of_keepAll
  generalize keptPieces (writtenPieces w) = kept at *
  have some_kept : kept ≠ [] := by
    rintro rfl
    exact listed rfl
  have free : ∀ s ∈ kept, NulFree s := fun s member => writtenPieces_nulFree (from_w s member)
  have inside : ∀ s ∈ kept, 44 ∉ s := fun s member => writtenPieces_inside (from_w s member)
  have read := procfileRead_listing some_kept free (by omega) large
  refine ⟨_, _, read, rfl, fun w' copied readable' allocates' => ?_⟩
  -- the second write offers the strings of the list
  have joined : NulFree ([44].intercalate kept) := nulFree_intercalate free
  have offered : writtenPieces w' = kept := by
    rw [writtenPieces, writtenText, copied, List.dropLast_concat, text_of_nulFree joined,
      List.splitOn_intercalate 44 inside some_kept]
  have length' : w'.buffer.length = (terminated 44 kept).length := by rw [copied, terminated_eq 44 some_kept]; simp
  obtain ⟨result', -⟩ := procfileWrite_listing (w := w') (shownConfig (kept.filterMap parsed) ([44].intercalate kept))
    (by rw [length', terminated_eq 44 some_kept]; simp) (by omega) readable' allocates'
    (by rw [offered]; exact fun s member => short' s (from_w s member))
    (by rw [offered]; exact fun s member => everywhere s (from_w s member))
  rw [result', offered, again]

/-- `/bin/a,/bin/b|p<22>` and a newline. -/
def twoStrings : WriteCall := ⟨bytes "/bin/a,/bin/b|p<22>\n", 20, false, fun _ => true, []⟩

theorem write_back_restores_two :
    ∃ st₁ result st₂, procfileWrite twoStrings initialProcConfig = .ok (20, st₁) ∧ st₁.whiteList.length = 2 ∧
      procfileRead 0 4096 st₁ = .ok (result, st₂) ∧
      procfileWrite ⟨result.buffer, result.buffer.length, false, fun _ => true, []⟩ st₂ =
        .ok (result.buffer.length, st₁) := by
  have forms : ∀ p ∈ [bytes "/bin/a", bytes "/bin/b|p<22>"], WrittenForm p := by
    have second : bytes "/bin/b|p<22>" = bytes "/bin/b" ++ fieldSeparator :: 112 :: 60 :: (bytes "22" ++ [62]) := by
      decide +kernel
    intro p member
    rcases List.mem_pair.1 member with rfl | rfl
    · exact .path (by decide +kernel) (by unfold Plain; decide +kernel)
    · rw [second]
      exact .port (by decide +kernel) (by unfold Plain; decide +kernel) (by decide +kernel)
  have short : ∀ p ∈ [bytes "/bin/a", bytes "/bin/b|p<22>"], p.length < maxNewConnectionSize := by decide +kernel
  have written : twoStrings.buffer = [44].intercalate [bytes "/bin/a", bytes "/bin/b|p<22>"] ++ [10] := by
    decide +kernel
  obtain ⟨st₁, write, back⟩ := write_back_restores (by simp) forms short written (by decide +kernel)
    (by decide +kernel) (fun _ => rfl) initialProcConfig
  have outcome : (match procfileWrite twoStrings initialProcConfig with
      | .ok (_, st) => decide (st.whiteList.length = 2 ∧ st.procfsBufferSize < ulong 4096)
      | .error _ => false) = true := by decide +kernel
  rw [write] at outcome
  obtain ⟨two, large⟩ := of_decide_eq_true outcome
  obtain ⟨result, st₂, read, -, again⟩ := back (by rintro h; rw [h] at two; cases two) 4096 large
  exact ⟨st₁, result, st₂, write, two, read,
    again ⟨result.buffer, result.buffer.length, false, fun _ => true, []⟩ rfl (Nat.le_refl _) fun _ => rfl⟩

end Netlog
