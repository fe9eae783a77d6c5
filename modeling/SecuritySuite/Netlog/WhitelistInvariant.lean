import SecuritySuite.Netlog.Whitelist

/-!
# What every reachable whitelist looks like

Whatever strings are whitelisted and whenever the list is destroyed, the entries fit their arrays and no
two of them are equal for the code. The comparison ignores a field that is missing on either side, so it
is no equivalence; it is symmetric on stored entries, and two entries that match one query are
equal for it. So a query matches at most one entry.
-/

namespace Netlog
set_option autoImplicit false
open CString

/-- An entry as the parser fills it: the texts end inside their arrays, and a port is in range. -/
structure Connection.Valid (c : Connection) : Prop extends c.Fits where
  port : c.port = noPort ∨ 1 ≤ c.port ∧ c.port ≤ 65535

structure RepresentationInvariant (whiteList : List Connection) : Prop where
  size : whiteList.length ≤ maxWhitelistSize
  entries : ∀ c ∈ whiteList, c.Valid
  distinct : ∀ i j (hi : i < whiteList.length) (hj : j < whiteList.length), i ≠ j →
    connectionsAreEqual whiteList[i] whiteList[j] = false
  unique : ∀ (q : Query) i j (hi : i < whiteList.length) (hj : j < whiteList.length),
    connectionMatchesAttributes whiteList[i] q.path q.ip q.port = true →
      connectionMatchesAttributes whiteList[j] q.path q.ip q.port = true → i = j

/-- The operations of `whitelist.c` that change the list. -/
inductive ListOp where
  /-- A call with a string and the memory behind its terminator. -/
  | whitelist (kmalloc : Bool) (connectionString behind : List Byte)
  | destroyWhitelist

def ListOp.apply (whiteList : List Connection) : ListOp → List Connection
  | .whitelist kmalloc connectionString behind => (Netlog.whitelist kmalloc (connectionString ++ 0 :: behind) whiteList).2
  | .destroyWhitelist => []

/-- The list after the operations, from module load on. -/
def reachedList (ops : List ListOp) : List Connection := ops.foldl ListOp.apply []

/-! ## Entries -/

theorem initializeConnectionFromString_valid {kmalloc : Bool} {s t : List Byte} {c : Connection}
    (result : initializeConnectionFromString kmalloc (s ++ 0 :: t) = some c) : c.Valid := by
  obtain ⟨behind, same⟩ := exists_terminated s t
  rw [same] at result
  have free : NulFree (text s) := nulFree_text s
  refine ⟨initializeConnectionFromString_fits free result, ?_⟩
  cases kmalloc with
  | false => cases result
  | true =>
    rcases parse_cases free behind with ⟨-, rejected⟩ | ⟨passed, accepted⟩
    · rw [rejected] at result
      cases result
    · rw [accepted] at result
      cases result
      simp only [storedPort]
      split
      · rename_i letter
        right
        apply validPortNumber_iff.1
        by_contra invalid
        exact passed (.port letter (by simpa using invalid))
      · exact .inl rfl

/-- When the code takes two entries for equal. -/
theorem connectionsAreEqual_iff_fields {a b : Connection} (fitsA : a.Fits) (fitsB : b.Fits) :
    connectionsAreEqual a b = true ↔
      a.executable = b.executable ∧ (a.ip = [] ∨ b.ip = [] ∨ a.ip = b.ip) ∧
        (a.port = noPort ∨ b.port = noPort ∨ a.port = b.port) :=
  connectionMatchesAttributes_iff fitsA fitsB.executable fitsB.ip b.port

theorem connectionsAreEqual_comm {a b : Connection} (fitsA : a.Fits) (fitsB : b.Fits) :
    connectionsAreEqual a b = connectionsAreEqual b a := by
  apply Bool.eq_iff_iff.2
  rw [connectionsAreEqual_iff_fields fitsA fitsB, connectionsAreEqual_iff_fields fitsB fitsA]
  constructor
  · intro equal
    obtain ⟨path, ip, port⟩ := equal
    exact ⟨path.symm, by tauto, by tauto⟩
  · intro equal
    obtain ⟨path, ip, port⟩ := equal
    exact ⟨path.symm, by tauto, by tauto⟩

/-- Two entries that one query matches are equal for the code. -/
theorem connectionsAreEqual_of_matches {a b : Connection} (fitsA : a.Fits) (fitsB : b.Fits) (q : Query)
    (matchA : connectionMatchesAttributes a q.path q.ip q.port = true)
    (matchB : connectionMatchesAttributes b q.path q.ip q.port = true) : connectionsAreEqual a b = true := by
  obtain ⟨pathA, ipA, portA⟩ := (connectionMatchesAttributes_iff fitsA q.path_free q.ip_free q.port).1 matchA
  obtain ⟨pathB, ipB, portB⟩ := (connectionMatchesAttributes_iff fitsB q.path_free q.ip_free q.port).1 matchB
  have given : q.port ≠ noPort := by
    have := q.port_range
    unfold noPort
    omega
  apply (connectionsAreEqual_iff_fields fitsA fitsB).2
  refine ⟨pathA.trans pathB.symm, ?_, ?_⟩
  · rcases ipA with missing | absent | ip
    · exact .inl missing
    · exact absurd absent q.ip_ne
    · rcases ipB with missing | absent | ip'
      · exact .inr (.inl missing)
      · exact absurd absent q.ip_ne
      · exact .inr (.inr (ip.trans ip'.symm))
  · rcases portA with missing | absent | port
    · exact .inl missing
    · exact absurd absent given
    · rcases portB with missing | absent | port'
      · exact .inr (.inl missing)
      · exact absurd absent given
      · exact .inr (.inr (port.trans port'.symm))

/-! ## The list -/

/-- What the operations keep: an entry is compared with those in front of it when it is stored. -/
structure Stored (whiteList : List Connection) : Prop where
  size : whiteList.length ≤ maxWhitelistSize
  entries : ∀ c ∈ whiteList, c.Valid
  later : whiteList.Pairwise fun a b => connectionsAreEqual b a = false

theorem Stored.nil : Stored [] where
  size := Nat.zero_le _
  entries := by simp
  later := .nil

theorem Stored.apply {whiteList : List Connection} (stored : Stored whiteList) (op : ListOp) :
    Stored (op.apply whiteList) := by
  cases op with
  | destroyWhitelist => exact .nil
  | whitelist kmalloc connectionString behind =>
    rw [ListOp.apply]
    rcases whitelist_cases kmalloc (connectionString ++ 0 :: behind) whiteList with
      failed | ⟨c, parsed, room, fresh, appended⟩
    · rw [failed]
      exact stored
    · rw [appended]
      refine ⟨?_, ?_, ?_⟩
      · have size := stored.size
        rw [List.length_append, List.length_singleton]
        omega
      · intro entry member
        rcases List.mem_append.1 member with old | new
        · exact stored.entries entry old
        · rw [List.mem_singleton.1 new]
          exact initializeConnectionFromString_valid parsed
      · apply List.pairwise_append.2
        refine ⟨stored.later, List.pairwise_singleton _ _, ?_⟩
        intro a member b last
        rw [List.mem_singleton.1 last]
        simpa using List.any_eq_false.1 fresh a member

theorem Stored.reached (ops : List ListOp) : Stored (reachedList ops) := by
  induction ops using List.reverseRecOn with
  | nil => exact .nil
  | append_singleton ops op ih =>
    rw [reachedList, List.foldl_append]
    exact ih.apply op

/-- In either order of the two arguments. -/
theorem Stored.distinct {whiteList : List Connection} (stored : Stored whiteList) {i j : Nat}
    (hi : i < whiteList.length) (hj : j < whiteList.length) (other : i ≠ j) :
    connectionsAreEqual whiteList[i] whiteList[j] = false := by
  have later := List.pairwise_iff_getElem.1 stored.later
  rcases Nat.lt_or_gt_of_ne other with before | behind
  · rw [connectionsAreEqual_comm (stored.entries _ (List.getElem_mem hi)).toFits
      (stored.entries _ (List.getElem_mem hj)).toFits]
    exact later i j hi hj before
  · exact later j i hj hi behind

/-- **The representation invariant of the whitelist**, after any calls of `whitelist` and
`destroy_whitelist`. -/
theorem representation_invariant (ops : List ListOp) : RepresentationInvariant (reachedList ops) := by
  have stored := Stored.reached ops
  refine ⟨stored.size, stored.entries, fun i j hi hj other => stored.distinct hi hj other, ?_⟩
  intro q i j hi hj matchI matchJ
  by_contra other
  have equal := connectionsAreEqual_of_matches (stored.entries _ (List.getElem_mem hi)).toFits
    (stored.entries _ (List.getElem_mem hj)).toFits q matchI matchJ
  rw [stored.distinct hi hj other] at equal
  cases equal

end Netlog
