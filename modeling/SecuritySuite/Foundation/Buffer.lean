import SecuritySuite.Foundation.CString
import Mathlib.Data.List.GetD

/-!
# Character arrays

An array of `n` characters is a list of `n` bytes. Storing into it keeps its length: what would fall
outside is cut off, so an access has to be checked where it is made.
-/

namespace CString
set_option autoImplicit false

/-- `char buffer[n]`. -/
structure Buffer (n : Nat) where
  bytes : List Byte
  sized : bytes.length = n
deriving DecidableEq

namespace Buffer
variable {n : Nat}

theorem ext {a b : Buffer n} (same : a.bytes = b.bytes) : a = b := by
  cases a
  cases b
  simpa using same

/-- `memset(buffer, '\0', n)`. -/
def zero (n : Nat) : Buffer n := ⟨List.replicate n 0, List.length_replicate⟩

/-- `buffer[i]`. -/
def get (b : Buffer n) (i : Nat) : Byte := b.bytes.getD i 0

/-- `memcpy(buffer + pos, src, |src|)`. -/
def store (b : Buffer n) (pos : Nat) (src : List Byte) : Buffer n where
  bytes := (b.bytes.take pos ++ (src ++ b.bytes.drop (pos + src.length))).take n
  sized := by
    have := b.sized
    simp only [List.length_take, List.length_append, List.length_drop]
    omega

/-- `snprintf(buffer + pos, room, ..)` of a formatted text: as much of it as fits in front of a
terminator, and nothing without room. -/
def snprintfAt (b : Buffer n) (pos room : Nat) (formatted : List Byte) : Buffer n :=
  if room = 0 then b else b.store pos (formatted.take (room - 1) ++ [0])

/-- The kernel's `snprintf(buffer + pos, size, ..)`, with the length that it returns. A size that is negative as an
`int` is turned away: nothing is written, and 0 is returned. -/
def kernelSnprintfAt (b : Buffer n) (pos : Nat) (size : Int) (formatted : List Byte) : Nat × Buffer n :=
  if size < 0 then (0, b) else (formatted.length, b.snprintfAt pos size.toNat formatted)

/-- The text in the array. -/
def contents (b : Buffer n) : List Byte := text b.bytes

theorem store_bytes (b : Buffer n) {pos : Nat} {src : List Byte} (fits : pos + src.length ≤ n) :
    (b.store pos src).bytes = b.bytes.take pos ++ (src ++ b.bytes.drop (pos + src.length)) := by
  have := b.sized
  apply List.take_of_length_le
  simp only [List.length_take, List.length_append, List.length_drop]
  omega

/-- Storing at the start changes nothing exactly if the bytes are there already. -/
theorem store_eq_self_iff (b : Buffer n) {src : List Byte} (fits : src.length ≤ n) :
    b.store 0 src = b ↔ src <+: b.bytes := by
  have bytes := store_bytes b (show 0 + src.length ≤ n by omega)
  rw [List.take_zero, List.nil_append, Nat.zero_add] at bytes
  constructor
  · intro same
    rw [same] at bytes
    exact ⟨_, bytes.symm⟩
  · intro begins
    obtain ⟨rest, split⟩ := begins
    apply ext
    rw [bytes, ← split, List.drop_left]

theorem get_store (b : Buffer n) {pos : Nat} {src : List Byte} (fits : pos + src.length ≤ n) (i : Nat) :
    (b.store pos src).get i =
      if i < pos then b.get i else if i < pos + src.length then src.getD (i - pos) 0 else b.get i := by
  have size := b.sized
  have front : (b.bytes.take pos).length = pos := by
    rw [List.length_take]
    omega
  simp only [get, store_bytes b fits, List.getD_eq_getElem?_getD, List.getElem?_append, front]
  by_cases before : i < pos
  · simp only [if_pos before, List.getElem?_take]
  · by_cases inside : i < pos + src.length
    · simp only [if_neg before, if_pos inside, show i - pos < src.length by omega, if_true]
    · simp only [if_neg before, if_neg inside, show ¬ i - pos < src.length by omega, if_false,
        List.getElem?_drop, show pos + src.length + (i - pos - src.length) = i by omega]

/-- A terminator in the last place stays there. -/
theorem get_snprintfAt_last {b : Buffer n} {pos room : Nat} {formatted : List Byte} (last : b.get (n - 1) = 0)
    (whole : pos + room = n) : (b.snprintfAt pos room formatted).get (n - 1) = 0 := by
  unfold snprintfAt
  split
  · exact last
  have short : (formatted.take (room - 1)).length ≤ room - 1 := List.length_take_le _ _
  rw [get_store b (by simp only [List.length_append, List.length_singleton]; omega)]
  split
  · exact last
  split
  · rename_i after inside
    rw [List.length_append, List.length_singleton] at inside
    rw [List.getD_append_right _ _ _ _ (by omega), show n - 1 - pos - (formatted.take (room - 1)).length = 0 by omega]
    rfl
  · exact last

theorem kernelSnprintfAt_room (b : Buffer n) {pos room : Nat} (fits : pos ≤ room) (formatted : List Byte) :
    b.kernelSnprintfAt pos ((room : Int) - pos) formatted = (formatted.length, b.snprintfAt pos (room - pos) formatted) := by
  rw [kernelSnprintfAt, if_neg (by omega), show ((room : Int) - pos).toNat = room - pos by omega]

theorem kernelSnprintfAt_negative (b : Buffer n) (pos : Nat) {size : Int} (negative : size < 0) (formatted : List Byte) :
    b.kernelSnprintfAt pos size formatted = (0, b) := if_pos negative

theorem contents_zero (n : Nat) : (zero n).contents = [] := by
  cases n with
  | zero => rfl
  | succ n => simp [zero, contents, text, List.replicate_succ]

/-- An array that holds a text has it in front of its terminator. -/
theorem bytes_of_nul_mem {b : Buffer n} (nul : 0 ∈ b.bytes) : ∃ rest, b.bytes = b.contents ++ 0 :: rest := by
  obtain ⟨front, junk, split⟩ := List.append_of_mem nul
  obtain ⟨rest, same⟩ := exists_terminated front junk
  refine ⟨rest, ?_⟩
  rw [contents, split, same, text_terminated (nulFree_text front)]

/-- A terminator stored into the text cuts it off. -/
theorem contents_store_nul {b : Buffer n} {pos : Nat} (inside : pos < b.contents.length) :
    (b.store pos [0]).contents = b.contents.take pos ∧ 0 ∈ (b.store pos [0]).bytes := by
  have shorter : b.contents.length ≤ b.bytes.length := (List.takeWhile_prefix _).length_le
  rw [b.sized] at shorter
  have front : b.bytes.take pos = b.contents.take pos := by
    obtain ⟨rest, split⟩ : b.contents <+: b.bytes := List.takeWhile_prefix _
    rw [← split, List.take_append_of_le_length (by omega)]
  have free : NulFree (b.contents.take pos) := (nulFree_text b.bytes).sublist fun _ => List.mem_of_mem_take
  rw [contents, store_bytes b (by rw [List.length_singleton]; omega), front, List.singleton_append]
  exact ⟨text_terminated free _, by simp⟩

/-! ## Arrays that hold a text and nothing else -/

/-- A text, with zeros behind it. -/
def ofText (n : Nat) (s : List Byte) : Buffer n := (zero n).store 0 s

theorem ofText_bytes {s : List Byte} (fits : s.length ≤ n) :
    (ofText n s).bytes = s ++ List.replicate (n - s.length) 0 := by
  rw [ofText, store_bytes _ (by omega)]
  simp [zero]

theorem ofText_nil (n : Nat) : ofText n [] = zero n := by
  apply ext
  rw [ofText_bytes (by simp)]
  simp [zero]

theorem contents_ofText {s : List Byte} (free : NulFree s) (fits : s.length < n) : (ofText n s).contents = s := by
  obtain ⟨room, size⟩ : ∃ room, n - s.length = room + 1 := ⟨n - s.length - 1, by omega⟩
  rw [contents, ofText_bytes (by omega), size, List.replicate_succ, text_terminated free]

theorem get_ofText {s : List Byte} {b : Byte} (fits : s.length < n) : (ofText n (s ++ [b])).get s.length = b := by
  rw [get, ofText_bytes (by simp; omega)]
  simp

/-- Appending a text that fits. -/
theorem snprintfAt_ofText {s f : List Byte} (fits : s.length + f.length < n) :
    (ofText n s).snprintfAt s.length (n - s.length) f = ofText n (s ++ f) := by
  apply ext
  have whole : f.take (n - s.length - 1) = f := List.take_of_length_le (by omega)
  have zeros : n - (s.length + f.length) = n - s.length - (f.length + 1) + 1 := by omega
  rw [snprintfAt, if_neg (by omega), whole, store_bytes _ (by simp; omega), ofText_bytes (by omega),
    ofText_bytes (by simp; omega), List.take_left' rfl, List.length_append, List.length_append, zeros,
    List.replicate_succ, List.drop_append, List.drop_eq_nil_of_le (by omega)]
  simp

/-- Cutting off the last byte. -/
theorem store_ofText {s : List Byte} {b : Byte} (fits : s.length < n) :
    (ofText n (s ++ [b])).store s.length [0] = ofText n s := by
  apply ext
  have zeros : n - s.length = n - (s.length + 1) + 1 := by omega
  rw [store_bytes _ (by simp; omega), ofText_bytes (by simp; omega), ofText_bytes (by omega), zeros,
    List.replicate_succ, List.append_assoc, List.take_left' rfl, List.drop_append, List.drop_eq_nil_of_le (by simp)]
  simp

end Buffer
end CString
