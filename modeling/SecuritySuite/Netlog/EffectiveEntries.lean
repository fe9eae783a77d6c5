import SecuritySuite.Netlog.ProbedAddress
import SecuritySuite.Netlog.WhitelistInvariant

/-!
# Entries that can match

The parser checks the characters of an ip value, and a query compares its whole text with the one text that
the probes print for an address. A value that passes the check and is no such text gives an entry that no
connection matches, and so does an empty path.
-/

namespace Netlog
set_option autoImplicit false
open CString

/-- Some program connects to some remote address and port that the entry matches. -/
def TakesEffect (c : Connection) : Prop :=
  ∃ (path : List Byte) (sock : Socket) (ip : List Byte) (port : Int),
    NulFree path ∧ path ≠ [] ∧ path.length ≤ 949 ∧ getDestinationIp sock = some ip ∧
      1 ≤ port ∧ port ≤ 65535 ∧ connectionMatchesAttributes c path ip port = true

/-- The path is not empty, and an ip value is empty or spells an address the way the probes do. -/
structure NamesProbed (s : List Byte) : Prop where
  path : upTo endOfPath s ≠ []
  ip : ∀ field, onFrom endOfPath s = fieldSeparator :: field → peek field = 105 →
    valueOf field = [] ∨ ∃ a : Address, valueOf field = a.digits

/-! ## The text of a value and the text of an address -/

/-- The value stands in the first bytes of its field. -/
theorem mem_field_of_valueOf {field : List Byte} {b : Byte} (letter : field ≠ []) (member : b ∈ (valueOf field).take 46) :
    b ∈ field.take 48 := by
  obtain ⟨first, rest, rfl⟩ := List.exists_cons_of_ne_nil letter
  have front : valueOf (first :: rest) <+: skip 60 rest := List.takeWhile_prefix _
  have scanned : b ∈ (skip 60 rest).take 46 := by
    obtain ⟨behind, split⟩ := front
    rw [← split, List.take_append]
    exact List.mem_append_left _ member
  have behind : b ∈ rest.take 47 := by
    cases rest with
    | nil => simp [skip] at scanned
    | cons second rest =>
      by_cases bracket : second = 60
      · rw [bracket, skip_cons_self] at scanned
        exact List.mem_cons_of_mem _ scanned
      · rw [skip_cons_ne bracket] at scanned
        exact (List.take_prefix_take_left (by omega)).subset scanned
  exact List.mem_cons_of_mem _ behind

theorem looksLikeIpv6_of_valueOf {field : List Byte} (free : NulFree field) (letter : field ≠ [])
    (colon : 58 ∈ (valueOf field).take 46) : looksLikeIpv6 field = true := by
  rw [looksLikeIpv6_eq, text_of_nulFree free, List.any_eq_true]
  exact ⟨58, mem_field_of_valueOf letter colon, rfl⟩

theorem nip6_colon (addr : In6Addr) : (58 : Byte) ∈ nip6 addr := by
  simp [nip6]

theorem nipquad_noColon (addr : InAddr) : (58 : Byte) ∉ nipquad addr := by
  intro member
  exact absurd (nipquad_character member) (by decide)

theorem nipquad_noBracket (addr : InAddr) : (91 : Byte) ∉ nipquad addr := by
  intro member
  exact absurd (nipquad_character member) (by decide)

/-- What an accepted field stores is empty if its value is. -/
theorem shownIp_eq_nil_iff {field : List Byte} (accepted : IpAccepted field) :
    shownIp field = [] ↔ valueOf field = [] := by
  obtain ⟨-, valid⟩ := accepted
  unfold shownIp at valid ⊢
  split
  · rename_i ipv6
    rw [if_pos ipv6] at valid
    refine iff_of_false (by simp) ?_
    intro nothing
    rw [nothing, bracketed_invalid (by simp) (by simp)] at valid
    cases valid
  · rfl

/-- What an accepted field stores is the text of an address if its value is that text without
brackets. -/
theorem shownIp_eq_text_iff {field : List Byte} (free : NulFree field) (letter : field ≠ [])
    (accepted : IpAccepted field) (a : Address) : shownIp field = a.text ↔ valueOf field = a.digits := by
  obtain ⟨-, valid⟩ := accepted
  unfold shownIp at valid ⊢
  cases ipv6 : looksLikeIpv6 field with
  | true =>
    rw [ipv6, if_pos rfl] at valid
    rw [if_pos rfl]
    cases a with
    | inet addr =>
      constructor
      · intro same
        apply absurd _ (nipquad_noBracket addr)
        rw [show nipquad addr = Address.text (.inet addr) from rfl, ← same]
        simp
      · intro same
        rw [bracketed_invalid (valueOf_nulFree field) (by rw [same]; exact nipquad_noColon addr)] at valid
        cases valid
    | inet6 addr =>
      rw [Address.text, Address.digits, List.cons.injEq, List.append_cancel_right_eq]
      exact and_iff_right rfl
  | false =>
    rw [if_neg (by simp)]
    cases a with
    | inet addr => rfl
    | inet6 addr =>
      have groups := nip6_length addr
      have colon : ∀ v : List Byte, v = Address.text (.inet6 addr) ∨ v = Address.digits (.inet6 addr) → 58 ∈ v.take 46 := by
        intro v same
        rw [List.take_of_length_le]
        · rcases same with rfl | rfl
          · simp [Address.text, nip6_colon]
          · exact nip6_colon addr
        · rcases same with rfl | rfl
          · simp [Address.text, groups]
          · simp [Address.digits, groups]
      have plain : ∀ v, valueOf field = v → ¬ (v = Address.text (.inet6 addr) ∨ v = Address.digits (.inet6 addr)) := by
        intro v value same
        rw [looksLikeIpv6_of_valueOf free letter (value ▸ colon v same)] at ipv6
        cases ipv6
      exact iff_of_false (fun same => plain _ rfl (.inl same)) (fun same => plain _ rfl (.inr same))

/-! ## Matching -/

/-- The texts of `get_destination_ip` are those of the addresses. -/
theorem getDestinationIp_iff {ip : List Byte} :
    (∃ sock, getDestinationIp sock = some ip) ↔ ∃ a : Address, ip = a.text := by
  constructor
  · intro given
    obtain ⟨sock, printed⟩ := given
    cases remote : sock.remoteAddress with
    | some a =>
      rw [getDestinationIp_eq remote, Option.some.injEq] at printed
      exact ⟨a, printed.symm⟩
    | none =>
      rw [Socket.remoteAddress] at remote
      rw [getDestinationIp, getDestinationIpSk] at printed
      cases family : sock.sk.skFamily <;> simp [family] at remote printed
  · intro given
    obtain ⟨a, rfl⟩ := given
    cases a with
    | inet addr => exact ⟨⟨⟨.afInet, addr, ⟨fun _ => 0⟩⟩⟩, getDestinationIp_eq rfl⟩
    | inet6 addr => exact ⟨⟨⟨.afInet6, ⟨0, 0, 0, 0⟩, addr⟩⟩, getDestinationIp_eq rfl⟩

/-- A stored entry has a path and an ip that some connection shows, or it matches nothing. -/
theorem takesEffect_iff_fields {c : Connection} (valid : c.Valid) :
    TakesEffect c ↔ c.executable ≠ [] ∧ (c.ip = [] ∨ ∃ a : Address, c.ip = a.text) := by
  have free : ∀ a : Address, NulFree a.text := Address.text_nulFree
  constructor
  · intro given
    obtain ⟨path, sock, ip, port, freePath, nonempty, -, printed, -, -, found⟩ := given
    obtain ⟨a, rfl⟩ := getDestinationIp_iff.1 ⟨sock, printed⟩
    obtain ⟨rfl, same, -⟩ := (connectionMatchesAttributes_iff valid.toFits freePath (free a) port).1 found
    refine ⟨nonempty, ?_⟩
    rcases same with missing | absent | same
    · exact .inl missing
    · exact absurd absent a.text_ne_nil
    · exact .inr ⟨a, same⟩
  · intro given
    obtain ⟨nonempty, ip⟩ := given
    obtain ⟨a, same⟩ : ∃ a : Address, c.ip = [] ∨ c.ip = a.text := by
      rcases ip with missing | ⟨a, same⟩
      · exact ⟨.inet ⟨0, 0, 0, 0⟩, .inl missing⟩
      · exact ⟨a, .inr same⟩
    obtain ⟨port, first, last, open_port⟩ : ∃ port : Int, 1 ≤ port ∧ port ≤ 65535 ∧ (c.port = noPort ∨ c.port = port) := by
      rcases valid.port with missing | ⟨first, last⟩
      · exact ⟨1, by decide, by decide, .inl missing⟩
      · exact ⟨c.port, first, last, .inr rfl⟩
    obtain ⟨sock, printed⟩ := getDestinationIp_iff.2 ⟨a, rfl⟩
    refine ⟨c.executable, sock, a.text, port, valid.executable, nonempty, valid.executable_length, printed, first, last, ?_⟩
    apply (connectionMatchesAttributes_iff valid.toFits valid.executable (free a) port).2
    exact ⟨rfl, by tauto, by tauto⟩

/-- **Which accepted strings can take effect**: those with a path whose ip value, if there is one, is the
text of an address as the probes print it. -/
theorem takes_effect_iff {s : List Byte} (free : NulFree s) (t : List Byte) {kmalloc : Bool} {c : Connection}
    (accepted : initializeConnectionFromString kmalloc (s ++ 0 :: t) = some c) : TakesEffect c ↔ NamesProbed s := by
  rw [takesEffect_iff_fields (initializeConnectionFromString_valid accepted)]
  cases kmalloc with
  | false => cases accepted
  | true =>
    rcases parse_cases free t with ⟨-, rejected⟩ | ⟨passed, parsed⟩
    · rw [rejected] at accepted
      cases accepted
    rw [parsed] at accepted
    cases accepted
    have stored : (storedIp s = [] ∨ ∃ a : Address, storedIp s = a.text) ↔
        ∀ field, onFrom endOfPath s = fieldSeparator :: field → peek field = 105 →
          valueOf field = [] ∨ ∃ a : Address, valueOf field = a.digits := by
      unfold storedIp
      rcases path_cases s with bar | ⟨path, field, bar, split⟩
      · simp [(scan_executable free bar).2]
      · rw [split] at free
        have behind := (scan_path (nulFree_append.1 free).1 bar field).2
        have freeField : NulFree field := free.sublist fun b member => by simp [member]
        rw [split, behind]
        by_cases letter : peek field = 105
        · have nonempty : field ≠ [] := by
            rintro rfl
            simp at letter
          have checked : IpAccepted field := by
            by_contra rejected
            exact passed (.early (.ip field (split ▸ behind) letter rejected))
          simp only [if_true, shownIp_eq_nil_iff checked, shownIp_eq_text_iff freeField nonempty checked,
            List.cons.injEq, true_and, forall_eq', letter, forall_const]
        · simp only [if_false, true_or, List.cons.injEq, true_and, forall_eq', letter, false_imp_iff]
    constructor
    · intro given
      exact ⟨given.1, stored.1 given.2⟩
    · intro given
      exact ⟨given.path, stored.2 given.ip⟩

/-- The first string of the documentation takes effect. -/
theorem takes_effect_documented : ∃ c, initializeConnectionFromString true
    (bytes "/usr/sbin/sshd|i<127.128.0.0>|p<22>" ++ 0 :: []) = some c ∧ TakesEffect c := by
  have accepted : initializeConnectionFromString true (bytes "/usr/sbin/sshd|i<127.128.0.0>|p<22>" ++ 0 :: []) =
      some ⟨22, bytes "127.128.0.0", bytes "/usr/sbin/sshd"⟩ := by decide +kernel
  refine ⟨_, accepted, (takes_effect_iff (by decide +kernel) [] accepted).2 ⟨by decide +kernel, ?_⟩⟩
  intro field behind _
  have split : onFrom endOfPath (bytes "/usr/sbin/sshd|i<127.128.0.0>|p<22>") =
      fieldSeparator :: bytes "i<127.128.0.0>|p<22>" := by decide +kernel
  rw [split, List.cons.injEq] at behind
  rw [← behind.2]
  exact .inr ⟨.inet ⟨127, 128, 0, 0⟩, by decide +kernel⟩

/-- An address without a path, and an abbreviated IPv6 address, are accepted and match nothing. -/
theorem takes_effect_fails :
    (∃ c, initializeConnectionFromString true (bytes "|i<127.0.0.1>" ++ 0 :: []) = some c ∧ ¬ TakesEffect c) ∧
      ∃ c, initializeConnectionFromString true (bytes "/usr/bin/ssh|i<::1>" ++ 0 :: []) = some c ∧ ¬ TakesEffect c := by
  have pathless : initializeConnectionFromString true (bytes "|i<127.0.0.1>" ++ 0 :: []) =
      some ⟨noPort, bytes "127.0.0.1", []⟩ := by decide +kernel
  have short : initializeConnectionFromString true (bytes "/usr/bin/ssh|i<::1>" ++ 0 :: []) =
      some ⟨noPort, bytes "[::1]", bytes "/usr/bin/ssh"⟩ := by decide +kernel
  refine ⟨⟨_, pathless, ?_⟩, ⟨_, short, ?_⟩⟩
  · rw [takesEffect_iff_fields (initializeConnectionFromString_valid pathless)]
    exact fun given => given.1 rfl
  · rw [takesEffect_iff_fields (initializeConnectionFromString_valid short)]
    intro given
    rcases given.2 with missing | ⟨a, same⟩
    · cases missing
    · cases a with
      | inet addr =>
        apply absurd _ (nipquad_noBracket addr)
        rw [show nipquad addr = Address.text (.inet addr) from rfl, ← same]
        decide
      | inet6 addr =>
        have lengths := congrArg List.length same
        rw [Address.text, List.length_cons, List.length_append, nip6_length] at lengths
        exact absurd lengths (by decide)

end Netlog
