import SecuritySuite.Netlog.ConnectionReading

/-!
# Matching as equality of texts

`connection_matches_attributes` compares with `strncmp` under the sizes of the arrays. What the parser
stores fits into those arrays with its terminator (`Connection.Fits`), so on stored connections
the comparison is equality, field by field, and a missing field matches anything.
-/

namespace Netlog
set_option autoImplicit false
open CString

/-- The texts are NUL-free and shorter than the arrays that hold them. -/
structure Connection.Fits (c : Connection) : Prop where
  executable : NulFree c.executable
  executable_length : c.executable.length ≤ 949
  ip : NulFree c.ip
  ip_length : c.ip.length ≤ 49

/-- What `connection_matches_attributes` tests. -/
theorem connectionMatchesAttributes_iff {c : Connection} (fits : c.Fits) {path ip : List Byte}
    (freePath : NulFree path) (freeIp : NulFree ip) (port : Int) :
    connectionMatchesAttributes c path ip port = true ↔
      c.executable = path ∧ (c.ip = [] ∨ ip = [] ∨ c.ip = ip) ∧
        (c.port = noPort ∨ port = noPort ∨ c.port = port) := by
  have samePath := strncmp_eq_zero_of_lt (n := maxAbsoluteExecPath) fits.executable freePath
    (by have := fits.executable_length; unfold maxAbsoluteExecPath; omega)
  have sameIp := strncmp_eq_zero_of_lt (n := inet6Addrstrlen + 2) fits.ip freeIp
    (by have := fits.ip_length; unfold inet6Addrstrlen; omega)
  simp only [connectionMatchesAttributes, ne_eq, samePath, sameIp]
  by_cases path_eq : c.executable = path
  case neg => simp [path_eq]
  by_cases ip_ne : c.ip ≠ [] ∧ ip ≠ [] ∧ c.ip ≠ ip
  case pos =>
    obtain ⟨h, h', h''⟩ := ip_ne
    simp [path_eq, h, h', h'']
  by_cases port_ne : c.port ≠ noPort ∧ port ≠ noPort ∧ c.port ≠ port
  case pos =>
    obtain ⟨h, h', h''⟩ := port_ne
    simp [h, h', h'']
  rw [if_neg (by simpa using path_eq), if_neg ip_ne, if_neg port_ne]
  simp only [true_iff]
  exact ⟨path_eq, by tauto, by tauto⟩

theorem valueOf_nulFree (field : List Byte) : NulFree (valueOf field) := fun b member nul => by
  have := upTo_stops member
  rw [nul] at this; cases this

theorem shownIp_nulFree (field : List Byte) : NulFree (shownIp field) := by
  unfold shownIp
  split
  · simp [valueOf_nulFree]
  · exact valueOf_nulFree field

theorem shownIp_length {field : List Byte} (accepted : IpAccepted field) : (shownIp field).length ≤ 49 := by
  have bound := accepted.1
  unfold shownIp
  split at bound
  · rename_i ipv6
    simp only [ipv6, if_true, List.length_cons, List.length_append, List.length_nil]
    omega
  · rename_i ipv4
    simp only [ipv4]
    exact Nat.le_succ_of_le bound

/-- **What the parser stores fits.** -/
theorem initializeConnectionFromString_fits {kmalloc : Bool} {s : List Byte} (free : NulFree s) {t : Memory}
    {c : Connection} (result : initializeConnectionFromString kmalloc (s ++ 0 :: t) = some c) : c.Fits := by
  cases kmalloc with
  | false => cases result
  | true =>
    rcases parse_cases free t with ⟨-, rejected⟩ | ⟨passed, accepted⟩
    · rw [rejected] at result; cases result
    rw [accepted] at result; cases result
    have path : (upTo endOfPath s).length ≤ 949 := by
      by_contra long
      exact passed (.early (.path (by omega)))
    have ip : NulFree (storedIp s) ∧ (storedIp s).length ≤ 49 := by
      unfold storedIp
      split
      · simp
      rename_i d field scan
      split
      case isFalse => simp
      rename_i letter
      refine ⟨shownIp_nulFree field, shownIp_length ?_⟩
      by_contra rejected
      have separator : d = fieldSeparator := by
        rcases onFrom_cases endOfPath s with none_found | ⟨b, rest, delimiter, found⟩
        · rw [scan] at none_found; cases none_found
        · rw [scan] at found; cases found
          rcases endOfPath_iff.1 delimiter with bar | nul
          · exact bar
          · exact absurd nul (free d ((List.dropWhile_suffix _).subset (by rw [← onFrom, scan]; simp)))
      exact passed (.early (.ip field (separator ▸ scan) letter rejected))
    exact ⟨free.sublist fun b member => upTo_subset member, path, ip.1, ip.2⟩

end Netlog
