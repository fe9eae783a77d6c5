import SecuritySuite.Carbonite.ModuleInit
import SecuritySuite.Carbonite.SingleIncident
import SecuritySuite.Carbonite.TableChange

/-!
# The hijacker of open, and the checker

`attacks/sys-call-table-hijacker` puts its own function into the system call table and takes it out again when it is
unloaded. It runs here beside the checker, statement by statement, with ticks and module notifications in between.
The checker compares hashes at its ticks, so it reports the attack exactly if a tick falls between the two stores of
the hijacker and the hash tells the two tables apart. In the meantime open does what it did before.
-/

namespace Carbonite.Hijacker
set_option autoImplicit false
open CString Runs

/-! ## The attack -/

/-- A function pointer, as it lies in memory. -/
structure Pointer where
  bytes : List Byte
  sized : bytes.length = 8
deriving DecidableEq

def Pointer.null : Pointer := ⟨List.replicate 8 0, rfl⟩

/-- `__NR_open` on x86-64. -/
def nrOpen : UInt64 := 2

/-- Where a pointer lies in the table. -/
def entry (sysCallTable number : UInt64) : UInt64 := sysCallTable + 8 * number

def pointerAt (memory : UInt64 → Byte) (address : UInt64) : Pointer := ⟨bytesAt memory address 8, by simp [bytesAt]⟩

/-- The bit of CR0 that protects read-only pages from the kernel. -/
def writeProtect : UInt64 := 0x10000

def disablePageProtection (cr0 : UInt64) : UInt64 := cr0 &&& ~~~writeProtect

def enablePageProtection (cr0 : UInt64) : UInt64 := cr0 ||| writeProtect

/-- Where the hijacker stands: in front of which statement of `hijack` or `cleanup`. -/
inductive Place where
  | unloaded
  | lookup
  | readOriginal
  | disable
  | inject
  | enable
  | loaded
  | cleanupDisable
  | restore
  | cleanupEnable
deriving DecidableEq

/-- Between the two stores. -/
def Place.injected : Place → Bool
  | .enable => true
  | .loaded => true
  | .cleanupDisable => true
  | .restore => true
  | _ => false

/-- Behind the lookup, while the module is there. -/
def Place.located : Place → Bool
  | .unloaded => false
  | .lookup => false
  | _ => true

/-- The original pointer has been read. -/
def Place.read : Place → Bool
  | .readOriginal => false
  | place => place.located

/-- Page protection is off. -/
def Place.unprotected : Place → Bool
  | .inject => true
  | .enable => true
  | .restore => true
  | .cleanupEnable => true
  | _ => false

variable {Handler : Type}

/-- The checker with the memory they share, and the hijacker on its CPU. -/
structure State (Handler : Type) where
  checker : Checker Handler
  place : Place
  /-- The address of the function `hijacker_sys_open`. -/
  hijackerSysOpen : Pointer
  sysCallTable : UInt64
  originalCall : Pointer
  cr0 : UInt64

inductive Event where
  /-- The module is loaded with its function at this address. -/
  | insmod (hijackerSysOpen : Pointer)
  /-- The next statement of `hijack` or `cleanup`. -/
  | statement
  | rmmod
  | tick
  | moduleEvent (newModule : Module)
  /-- A store that the hijacker does not make. -/
  | write (address : UInt64) (stored : List Byte)

inductive Fault where
  /-- A call of `incident_handler` while it is NULL. -/
  | nullCall
  /-- A store to a page that is protected. -/
  | pageFault
  /-- The event is not one that can come next. -/
  | outOfTurn
deriving DecidableEq

/-- An event of the checker. -/
def State.check (setup : Setup Handler) (s : State Handler) (op : Op) :
    Except Fault (Option (Call Handler) × State Handler) :=
  match step setup s.checker op with
  | .error _ => .error .nullCall
  | .ok (call, checker) => .ok (call, { s with checker })

/-- `sys_call_table[__NR_open] = pointer`. -/
def State.storeEntry (s : State Handler) (pointer : Pointer) (place : Place) :
    Except Fault (Option (Call Handler) × State Handler) :=
  if s.cr0 &&& writeProtect = 0 then
    let memory := store s.checker.memory (entry s.sysCallTable nrOpen) pointer.bytes
    .ok (none, { s with checker := { s.checker with memory }, place })
  else .error .pageFault

/-- The next statement. `hijack` fails without the symbol. -/
def State.statement (setup : Setup Handler) (s : State Handler) :
    Except Fault (Option (Call Handler) × State Handler) :=
  match s.place with
  | .unloaded => .error .outOfTurn
  | .lookup =>
    let sysCallTable := (myKallsymsLookupName setup.kernel (bytes "sys_call_table") ⟨0, false⟩).1
    .ok (none, { s with sysCallTable, place := if sysCallTable = 0 then .unloaded else .readOriginal })
  | .readOriginal =>
    .ok (none, { s with
      originalCall := pointerAt s.checker.memory (entry s.sysCallTable nrOpen), place := .disable })
  | .disable => .ok (none, { s with cr0 := disablePageProtection s.cr0, place := .inject })
  | .inject => s.storeEntry s.hijackerSysOpen .enable
  | .enable => .ok (none, { s with cr0 := enablePageProtection s.cr0, place := .loaded })
  | .loaded => .error .outOfTurn
  | .cleanupDisable => .ok (none, { s with cr0 := disablePageProtection s.cr0, place := .restore })
  | .restore => s.storeEntry s.originalCall .cleanupEnable
  | .cleanupEnable => .ok (none, { s with cr0 := enablePageProtection s.cr0, place := .unloaded })

/-- The statics of a module that is loaded are zero. -/
def step (setup : Setup Handler) (s : State Handler) :
    Event → Except Fault (Option (Call Handler) × State Handler)
  | .insmod hijackerSysOpen =>
    if s.place = .unloaded then
      .ok (none, { s with place := .lookup, hijackerSysOpen, sysCallTable := 0, originalCall := .null })
    else .error .outOfTurn
  | .statement => s.statement setup
  | .rmmod => if s.place = .loaded then .ok (none, { s with place := .cleanupDisable }) else .error .outOfTurn
  | .tick => s.check setup .tick
  | .moduleEvent newModule => s.check setup (.moduleEvent newModule)
  | .write address stored => s.check setup (.write address stored)

/-- Before the hijacker is loaded. -/
def start (checker : Checker Handler) (cr0 : UInt64) : State Handler := ⟨checker, .unloaded, .null, 0, .null, cr0⟩

/-- The function in the table. -/
def openEntry (c : Checker Handler) : Pointer := pointerAt c.memory (entry c.sysCallTableAddress nrOpen)

/-- `open`: the function in the table, where `hijacker_sys_open` calls the original one. `call` is what the kernel's
own functions return. -/
def sysOpen {Args Result : Type} (call : Pointer → Args → Result) (s : State Handler) (args : Args) : Result :=
  let pointer := openEntry s.checker
  if s.place ≠ .unloaded ∧ pointer = s.hijackerSysOpen then call s.originalCall args else call pointer args

/-! ## What is to hold -/

/-- A table with another pointer for open. -/
def withOpen (table : List Byte) (pointer : Pointer) : List Byte := table.take 16 ++ (pointer.bytes ++ table.drop 24)

/-- The hash tells the two tables apart. -/
def Seen (table : List Byte) (size : UInt32) (hijackerSysOpen : Pointer) : Prop :=
  superFastHash (some table) size ≠ superFastHash (some (withOpen table hijackerSysOpen)) size

/-- Other stores leave the table alone. -/
def LeavesTable (s : State Handler) : Event → Prop
  | .write address stored =>
    bytesAt (store s.checker.memory address stored) s.checker.sysCallTableAddress s.checker.sysCallTableSize =
      s.checker.tableBytes
  | _ => True

/-- A tick of the run falls between the two stores, and sees them. -/
def Caught (setup : Setup Handler) (s₀ : State Handler) (events : List Event) : Prop :=
  ∃ pre post s, events = pre ++ .tick :: post ∧ Reaches (step setup) s₀ pre s ∧ s.place.injected = true ∧
    Seen s₀.checker.tableBytes s₀.checker.sysCallTableSize s.hijackerSysOpen

/-! ## Memory -/

theorem bytesAt_length (memory : UInt64 → Byte) (address : UInt64) (len : UInt32) :
    (bytesAt memory address len).length = len.toNat := by
  simp [bytesAt]

theorem withOpen_length {table : List Byte} (covers : 24 ≤ table.length) (pointer : Pointer) :
    (withOpen table pointer).length = table.length := by
  simp only [withOpen, List.length_append, List.length_take, List.length_drop, pointer.sized]
  omega

/-- The last pointer that was stored counts. -/
theorem withOpen_withOpen {table : List Byte} (covers : 24 ≤ table.length) (first second : Pointer) :
    withOpen (withOpen table first) second = withOpen table second := by
  have front : (table.take 16).length = 16 := by simp; omega
  have whole : (table.take 16 ++ first.bytes).length = 24 := by simp [front, first.sized]
  rw [withOpen, withOpen, List.take_left' front, ← List.append_assoc (table.take 16) first.bytes, List.drop_left' whole,
    withOpen]

/-- The pointer for open that a table holds. -/
theorem withOpen_own {table : List Byte} {pointer : Pointer} (own : pointer.bytes = (table.drop 16).take 8) :
    withOpen table pointer = table := by
  rw [withOpen, own, show table.drop 24 = (table.drop 16).drop 8 by rw [List.drop_drop], List.take_append_drop,
    List.take_append_drop]

theorem entry_open (sysCallTable : UInt64) : entry sysCallTable nrOpen = sysCallTable + 16 := rfl

/-- How far a byte of the table lies behind the pointer for open. -/
theorem offset_open (address : UInt64) {i : Nat} (small : i < 2 ^ 32) :
    (address + UInt64.ofNat i - (address + 16)).toNat = if 16 ≤ i then i - 16 else 2 ^ 64 + i - 16 := by
  have bound := address.toNat_lt
  have sixteen : (16 : UInt64).toNat = 16 := rfl
  rw [UInt64.toNat_sub, UInt64.toNat_add, UInt64.toNat_add, UInt64.toNat_ofNat', sixteen]
  split
  · omega
  · omega

theorem bytesAt_getElem (memory : UInt64 → Byte) (address : UInt64) (len : UInt32) {i : Nat}
    (inside : i < (bytesAt memory address len).length) : (bytesAt memory address len)[i] = memory (address + UInt64.ofNat i) := by
  simp [bytesAt]

/-- A store of the pointer for open, seen through the table. -/
theorem bytesAt_store (memory : UInt64 → Byte) (address : UInt64) {len : UInt32} (covers : 24 ≤ len.toNat)
    (pointer : Pointer) :
    bytesAt (store memory (entry address nrOpen) pointer.bytes) address len = withOpen (bytesAt memory address len) pointer := by
  have length := bytesAt_length memory address len
  have front : ((bytesAt memory address len).take 16).length = 16 := by
    rw [List.length_take, length]
    omega
  have bound := len.toNat_lt
  have eight := pointer.sized
  apply List.ext_getElem
  · rw [withOpen_length (by omega), bytesAt_length, bytesAt_length]
  intro i inside inside'
  rw [bytesAt_length] at inside
  rw [bytesAt_getElem, store, entry_open, offset_open address (by omega)]
  simp only [withOpen]
  by_cases before : i < 16
  · rw [if_neg (by omega), List.getD_eq_default _ _ (by omega), List.getElem_append_left (by omega), List.getElem_take,
      bytesAt_getElem]
  rw [if_pos (by omega), List.getElem_append_right (by omega)]
  by_cases within : i < 24
  · rw [List.getD_eq_getElem _ _ (by omega), List.getElem_append_left (by omega)]
    simp only [front]
  · rw [List.getD_eq_default _ _ (by omega), List.getElem_append_right (by omega), List.getElem_drop, bytesAt_getElem]
    rw [front, eight, show 24 + (i - 16 - 8) = i by omega]

/-- The pointer for open lies in the table. -/
theorem pointerAt_open (memory : UInt64 → Byte) (address : UInt64) {len : UInt32} (covers : 24 ≤ len.toNat) :
    (pointerAt memory (entry address nrOpen)).bytes = ((bytesAt memory address len).drop 16).take 8 := by
  have eight : (8 : UInt32).toNat = 8 := rfl
  apply List.ext_getElem
  · simp only [pointerAt, bytesAt_length, List.length_take, List.length_drop, eight]
    omega
  · intro i inside inside'
    simp only [pointerAt, List.getElem_take, List.getElem_drop, bytesAt_getElem, entry_open]
    rw [UInt64.add_assoc, UInt64.ofNat_add]
    rfl

/-- Kernel addresses share their upper half. Where only the lower half of the pointer changes, the attack is seen
unless the two words merge. -/
theorem seen_iff {table : List Byte} {size : UInt32} {pointer : Pointer} (covers : 24 ≤ table.length)
    (whole : size.toNat = table.length) (aligned : table.length % 4 = 0)
    (upper : pointer.bytes.drop 4 = (table.drop 20).take 4) : Seen table size pointer ↔
      ¬ WordsMerge (hashInFront (table.take 16) size) ((table.drop 16).take 4) (pointer.bytes.take 4) (table.drop 20) := by
  have own : table.take 16 ++ ((table.drop 16).take 4 ++ table.drop 20) = table := by
    rw [show table.drop 20 = (table.drop 16).drop 4 by rw [List.drop_drop], List.take_append_drop, List.take_append_drop]
  have other : withOpen table pointer = table.take 16 ++ (pointer.bytes.take 4 ++ table.drop 20) := by
    have behind : pointer.bytes.drop 4 ++ table.drop 24 = table.drop 20 := by
      rw [upper, show table.drop 24 = (table.drop 20).drop 4 by rw [List.drop_drop], List.take_append_drop]
    rw [← behind, ← List.append_assoc (pointer.bytes.take 4), List.take_append_drop, withOpen]
  have front : (table.take 16).length % 4 = 0 := by
    rw [List.length_take]
    omega
  have word : ((table.drop 16).take 4).length = 4 := by
    rw [List.length_take, List.length_drop]
    omega
  have word' : (pointer.bytes.take 4).length = 4 := by rw [List.length_take, pointer.sized]; rfl
  have rest : (table.drop 20).length % 4 = 0 := by
    rw [List.length_drop]
    omega
  have merge := superFastHash_word_iff front word word' rest (by rw [own]; exact whole)
  rw [own, ← other] at merge
  rw [Seen, ne_eq, merge]

/-! ## The checker on guard -/

/-- What `init_sys_call_table_integrity_checker` leaves behind when it succeeds. -/
structure Guarding (setup : Setup Handler) (c : Checker Handler) : Prop where
  address : c.sysCallTableAddress = (myKallsymsLookupName setup.kernel (bytes "sys_call_table") ⟨0, false⟩).1
  there : c.sysCallTableAddress ≠ 0
  hash : c.sysCallTableHash = c.tableHash
  pending : c.timerPending = true
  interval : c.timerInterval ≠ 0

/-- The checker when it has been initialized. -/
def guard (around : Surroundings) (memory : UInt64 → Byte) : Checker Carbonite.Handler :=
  (initSysCallTableIntegrityChecker around.setup (firstLoad memory)).2

theorem Guarding.of_starts {around : Surroundings} (memory : UInt64 → Byte) (starts : Loading.CheckerStarts around) :
    Guarding around.setup (guard around memory) ∧ (guard around memory).incidentHandler = around.setup.handler := by
  have interval : around.sysCallTableCheckInterval.toUInt64 = 0 ↔ around.sysCallTableCheckInterval = 0 := by
    rw [← UInt64.toNat_inj, ← UInt32.toNat_inj]
    simp
  obtain ⟨given, table, next⟩ := starts
  constructor
  · constructor
    all_goals simp [guard, initSysCallTableIntegrityChecker, Checker.statements, initStatement, firstLoad, Surroundings.setup,
      registerTimerInterrupt, interval, given, table, next, Checker.tableHash, Checker.tableBytes]
  · simp [guard, initSysCallTableIntegrityChecker, Checker.statements, initStatement, firstLoad, Surroundings.setup,
      registerTimerInterrupt, interval, given, table, next]

/-! ## One step -/

section Steps

variable {setup : Setup Handler} {first c c' : Checker Handler} {s s' : State Handler} {call : Option (Call Handler)}

theorem storeEntry_ok {pointer : Pointer} {place : Place} (ok : s.storeEntry pointer place = .ok (call, s')) :
    call = none ∧ s' = { s with
      checker := { s.checker with memory := store s.checker.memory (entry s.sysCallTable nrOpen) pointer.bytes }, place } := by
  unfold State.storeEntry at ok
  split at ok
  · cases ok
    exact ⟨rfl, rfl⟩
  · cases ok

/-- All that a statement of the hijacker can do. -/
inductive Acts (setup : Setup Handler) (s : State Handler) : State Handler → Prop where
  | lookup (place : s.place = .lookup) {sysCallTable : UInt64}
      (found : sysCallTable = (myKallsymsLookupName setup.kernel (bytes "sys_call_table") ⟨0, false⟩).1) :
      Acts setup s { s with sysCallTable, place := if sysCallTable = 0 then .unloaded else .readOriginal }
  | readOriginal (place : s.place = .readOriginal) : Acts setup s { s with
      originalCall := pointerAt s.checker.memory (entry s.sysCallTable nrOpen), place := .disable }
  | disable (place : s.place = .disable) : Acts setup s { s with cr0 := disablePageProtection s.cr0, place := .inject }
  | inject (place : s.place = .inject) : Acts setup s { s with
      checker := { s.checker with memory := store s.checker.memory (entry s.sysCallTable nrOpen) s.hijackerSysOpen.bytes }
      place := .enable }
  | enable (place : s.place = .enable) : Acts setup s { s with cr0 := enablePageProtection s.cr0, place := .loaded }
  | cleanupDisable (place : s.place = .cleanupDisable) :
      Acts setup s { s with cr0 := disablePageProtection s.cr0, place := .restore }
  | restore (place : s.place = .restore) : Acts setup s { s with
      checker := { s.checker with memory := store s.checker.memory (entry s.sysCallTable nrOpen) s.originalCall.bytes }
      place := .cleanupEnable }
  | cleanupEnable (place : s.place = .cleanupEnable) :
      Acts setup s { s with cr0 := enablePageProtection s.cr0, place := .unloaded }

theorem statement_acts (ok : s.statement setup = .ok (call, s')) : call = none ∧ Acts setup s s' := by
  unfold State.statement at ok
  cases place : s.place with
  | unloaded => simp [place] at ok
  | loaded => simp [place] at ok
  | inject =>
    simp only [place] at ok
    obtain ⟨rfl, rfl⟩ := storeEntry_ok ok
    exact ⟨rfl, .inject place⟩
  | restore =>
    simp only [place] at ok
    obtain ⟨rfl, rfl⟩ := storeEntry_ok ok
    exact ⟨rfl, .restore place⟩
  | lookup =>
    simp only [place] at ok
    cases ok
    exact ⟨rfl, .lookup place rfl⟩
  | readOriginal =>
    simp only [place] at ok
    cases ok
    exact ⟨rfl, .readOriginal place⟩
  | disable =>
    simp only [place] at ok
    cases ok
    exact ⟨rfl, .disable place⟩
  | enable =>
    simp only [place] at ok
    cases ok
    exact ⟨rfl, .enable place⟩
  | cleanupDisable =>
    simp only [place] at ok
    cases ok
    exact ⟨rfl, .cleanupDisable place⟩
  | cleanupEnable =>
    simp only [place] at ok
    cases ok
    exact ⟨rfl, .cleanupEnable place⟩

/-- The checker's part in an event. -/
def Event.op : Event → Option Op
  | .tick => some .tick
  | .moduleEvent newModule => some (.moduleEvent newModule)
  | .write address stored => some (.write address stored)
  | _ => none

theorem Event.op_tick {event : Event} : event.op = some .tick ↔ event = .tick := by
  cases event <;> simp [Event.op]

/-- All that an event can do. -/
inductive Moves (setup : Setup Handler) (s : State Handler) : Event → Option (Call Handler) → State Handler → Prop where
  | insmod (hijackerSysOpen : Pointer) (place : s.place = .unloaded) : Moves setup s (.insmod hijackerSysOpen) none
      { s with place := .lookup, hijackerSysOpen, sysCallTable := 0, originalCall := .null }
  | statement {s' : State Handler} (acts : Acts setup s s') : Moves setup s .statement none s'
  | rmmod (place : s.place = .loaded) : Moves setup s .rmmod none { s with place := .cleanupDisable }
  | checker {event : Event} {op : Op} {call : Option (Call Handler)} {c : Checker Handler} (part : event.op = some op)
      (moved : Carbonite.step setup s.checker op = .ok (call, c)) : Moves setup s event call { s with checker := c }

theorem check_moves {event : Event} {op : Op} (part : event.op = some op) (ok : s.check setup op = .ok (call, s')) :
    Moves setup s event call s' := by
  unfold State.check at ok
  split at ok
  · cases ok
  · next answer c moved =>
      cases ok
      exact .checker part moved

theorem step_moves {event : Event} (ok : step setup s event = .ok (call, s')) : Moves setup s event call s' := by
  cases event with
  | insmod hijackerSysOpen =>
    rw [step] at ok
    split at ok
    · next place =>
        cases ok
        exact .insmod hijackerSysOpen place
    · cases ok
  | rmmod =>
    rw [step] at ok
    split at ok
    · next place =>
        cases ok
        exact .rmmod place
    · cases ok
  | statement =>
    obtain ⟨rfl, acts⟩ := statement_acts ok
    exact .statement acts
  | tick => exact check_moves rfl ok
  | moduleEvent newModule => exact check_moves rfl ok
  | write address stored => exact check_moves rfl ok

/-- The checker as it was set up, apart from memory and the handler. -/
structure SameCheck (first c : Checker Handler) : Prop where
  address : c.sysCallTableAddress = first.sysCallTableAddress
  size : c.sysCallTableSize = first.sysCallTableSize
  hash : c.sysCallTableHash = first.sysCallTableHash
  interval : c.timerInterval = first.timerInterval
  pending : c.timerPending = true

theorem SameCheck.refl (guarding : Guarding setup first) : SameCheck first first :=
  ⟨rfl, rfl, rfl, rfl, guarding.pending⟩

/-- An event that leaves the table alone. The initialization is over. -/
def Leaves (c : Checker Handler) : Op → Prop
  | .init => False
  | .write address stored =>
    bytesAt (store c.memory address stored) c.sysCallTableAddress c.sysCallTableSize = c.tableBytes
  | .tick => True
  | .moduleEvent _ => True

theorem leaves_part {event : Event} {op : Op} (part : event.op = some op) (leaves : LeavesTable s event) :
    Leaves s.checker op := by
  cases event with
  | insmod => cases part
  | statement => cases part
  | rmmod => cases part
  | tick =>
    cases part
    trivial
  | moduleEvent newModule =>
    cases part
    trivial
  | write address stored =>
    cases part
    exact leaves

/-- A tick arms the timer again, and other events do not touch it. -/
theorem SameCheck.step (guarding : Guarding setup first) (same : SameCheck first c) {op : Op} (leaves : Leaves c op)
    (ok : Carbonite.step setup c op = .ok (call, c')) : SameCheck first c' := by
  have armed : op = .tick → c'.timerPending = true := by
    rintro rfl
    rw [(step_tick_pending same.pending ok).1, decide_eq_true_eq, same.interval]
    exact guarding.interval
  obtain ⟨address, size, hash, interval, pending⟩ := same
  cases step_move ok with
  | init => cases leaves
  | calm => exact ⟨address, size, hash, interval, armed rfl⟩
  | alarm => exact ⟨address, size, hash, interval, armed rfl⟩
  | write => exact ⟨address, size, hash, interval, pending⟩
  | quiet => exact ⟨address, size, hash, interval, pending⟩
  | live => exact ⟨address, size, hash, interval, pending⟩

theorem step_table {op : Op} (leaves : Leaves c op) (ok : Carbonite.step setup c op = .ok (call, c')) :
    c'.tableBytes = c.tableBytes := by
  cases step_move ok with
  | init => cases leaves
  | calm => rfl
  | alarm => rfl
  | write => exact leaves
  | quiet => rfl
  | live => rfl

/-- What the checker watches, and what the hijacker has made of it. -/
structure Watch (first : Checker Handler) (s : State Handler) : Prop where
  same : SameCheck first s.checker
  table : s.checker.tableBytes =
    if s.place.injected then withOpen first.tableBytes s.hijackerSysOpen else first.tableBytes
  located : s.place.located = true → s.sysCallTable = first.sysCallTableAddress
  original : s.place.read = true → s.originalCall = openEntry first

theorem Watch.start (guarding : Guarding setup first) (cr0 : UInt64) : Watch first (start first cr0) :=
  ⟨.refl guarding, rfl, fun located => (by cases located), fun read => (by cases read)⟩

/-- The table is all that counts of memory. -/
theorem openEntry_eq (size : c.sysCallTableSize = first.sysCallTableSize) (covers : 24 ≤ first.sysCallTableSize.toNat)
    (table : c.tableBytes = first.tableBytes) : openEntry c = openEntry first := by
  have bytes : (openEntry c).bytes = (openEntry first).bytes := by
    rw [openEntry, openEntry, pointerAt_open c.memory c.sysCallTableAddress (size ▸ covers),
      pointerAt_open first.memory first.sysCallTableAddress covers]
    exact congrArg (fun table => (table.drop 16).take 8) table
  cases entry : openEntry c
  cases entry' : openEntry first
  simpa [entry, entry'] using bytes

theorem tableBytes_store (covers : 24 ≤ c.sysCallTableSize.toNat) (pointer : Pointer) :
    ({ c with memory := store c.memory (entry c.sysCallTableAddress nrOpen) pointer.bytes } : Checker Handler).tableBytes =
      withOpen c.tableBytes pointer :=
  bytesAt_store c.memory c.sysCallTableAddress covers pointer

/-- The table with its own pointer for open. -/
theorem withOpen_openEntry (covers : 24 ≤ first.sysCallTableSize.toNat) :
    withOpen first.tableBytes (openEntry first) = first.tableBytes :=
  withOpen_own (pointerAt_open first.memory first.sysCallTableAddress covers)

theorem tableBytes_length : c.tableBytes.length = c.sysCallTableSize.toNat := bytesAt_length _ _ _

theorem Watch.statement (guarding : Guarding setup first) (covers : 24 ≤ first.sysCallTableSize.toNat)
    (watch : Watch first s) (acts : Acts setup s s') : Watch first s' := by
  obtain ⟨same, table, located, original⟩ := watch
  have length : 24 ≤ first.tableBytes.length := tableBytes_length ▸ covers
  have covers' : 24 ≤ s.checker.sysCallTableSize.toNat := same.size ▸ covers
  cases acts with
  | lookup place found =>
    simp only [place, Place.injected, Bool.false_eq_true, if_false] at table
    rw [← guarding.address] at found
    subst found
    rw [if_neg guarding.there]
    exact ⟨same, table, fun _ => rfl, fun read => (by cases read)⟩
  | readOriginal place =>
    simp only [place, Place.injected, Bool.false_eq_true, if_false] at table
    have here := located (by rw [place]; rfl)
    refine ⟨same, table, fun _ => here, fun _ => ?_⟩
    rw [← openEntry_eq same.size covers table, openEntry, same.address, ← here]
  | disable place =>
    simp only [place, Place.injected, Bool.false_eq_true, if_false] at table
    exact ⟨same, table, fun _ => located (by rw [place]; rfl), fun _ => original (by rw [place]; rfl)⟩
  | inject place =>
    simp only [place, Place.injected, Bool.false_eq_true, if_false] at table
    have here := located (by rw [place]; rfl)
    refine ⟨⟨same.address, same.size, same.hash, same.interval, same.pending⟩, ?_, fun _ => here,
      fun _ => original (by rw [place]; rfl)⟩
    rw [here, ← same.address, tableBytes_store covers', table]
    rfl
  | enable place =>
    simp only [place, Place.injected, if_true] at table
    exact ⟨same, table, fun _ => located (by rw [place]; rfl), fun _ => original (by rw [place]; rfl)⟩
  | cleanupDisable place =>
    simp only [place, Place.injected, if_true] at table
    exact ⟨same, table, fun _ => located (by rw [place]; rfl), fun _ => original (by rw [place]; rfl)⟩
  | restore place =>
    simp only [place, Place.injected, if_true] at table
    have here := located (by rw [place]; rfl)
    have own := original (by rw [place]; rfl)
    refine ⟨⟨same.address, same.size, same.hash, same.interval, same.pending⟩, ?_, fun _ => here, fun _ => own⟩
    rw [here, ← same.address, tableBytes_store covers', table, withOpen_withOpen length, own, withOpen_openEntry covers]
    rfl
  | cleanupEnable place =>
    simp only [place, Place.injected, Bool.false_eq_true, if_false] at table
    exact ⟨same, table, fun located => (by cases located), fun read => (by cases read)⟩

theorem Watch.step (guarding : Guarding setup first) (covers : 24 ≤ first.sysCallTableSize.toNat)
    (watch : Watch first s) {event : Event} (leaves : LeavesTable s event)
    (ok : step setup s event = .ok (call, s')) : Watch first s' := by
  cases step_moves ok with
  | insmod hijackerSysOpen unloaded =>
    exact ⟨watch.same, by simpa [unloaded, Place.injected] using watch.table, fun located => (by cases located),
      fun read => (by cases read)⟩
  | statement acts => exact watch.statement guarding covers acts
  | rmmod loaded =>
    exact ⟨watch.same, by simpa [loaded, Place.injected] using watch.table,
      fun _ => watch.located (by rw [loaded]; rfl), fun _ => watch.original (by rw [loaded]; rfl)⟩
  | checker part moved =>
    have leaves := leaves_part part leaves
    exact ⟨watch.same.step guarding leaves moved, (step_table leaves moved).trans watch.table, watch.located,
      watch.original⟩

/-! ## What a tick finds -/

theorem Watch.modified_iff (guarding : Guarding setup first) (watch : Watch first s) :
    s.checker.Modified ↔ s.place.injected = true ∧ Seen first.tableBytes first.sysCallTableSize s.hijackerSysOpen := by
  have there := guarding.there
  rw [Checker.Modified, watch.same.hash, guarding.hash, Checker.tableHash, Checker.tableHash, if_neg there,
    if_neg (watch.same.address ▸ there), watch.same.size, watch.table]
  cases s.place.injected with
  | false => simp
  | true => simp [Seen]

theorem Acts.handler (acts : Acts setup s s') : s'.checker.incidentHandler = s.checker.incidentHandler := by
  cases acts <;> rfl

/-- Only a tick that finds the other table calls the handler for an incident. -/
theorem Watch.incident_iff (guarding : Guarding setup first) (watch : Watch first s) {event : Event}
    (ok : Hijacker.step setup s event = .ok (call, s')) : isIncident call = true ↔
      event = .tick ∧ s.checker.incidentHandler.isSome ∧ s.place.injected = true ∧
        Seen first.tableBytes first.sysCallTableSize s.hijackerSysOpen := by
  rw [← watch.modified_iff guarding, ← Event.op_tick]
  cases step_moves ok with
  | insmod => simp [Event.op, isIncident]
  | statement => simp [Event.op, isIncident]
  | rmmod => simp [Event.op, isIncident]
  | checker part moved =>
    rw [part, Option.some_inj]
    constructor
    · intro incident
      obtain ⟨tick, modified, set, -⟩ := incident_of_step moved incident
      exact ⟨tick, set, modified⟩
    · rintro ⟨rfl, set, modified⟩
      obtain ⟨handler, is⟩ := Option.isSome_iff_exists.1 set
      rw [step_tick_alarm ⟨watch.same.pending, modified⟩, is] at moved
      cases moved
      rfl

/-- The handler stays until it is called for an incident. -/
theorem handler_stays {event : Event} (ok : Hijacker.step setup s event = .ok (call, s'))
    (set : s.checker.incidentHandler.isSome) : isIncident call = true ∨ s'.checker.incidentHandler.isSome := by
  cases step_moves ok with
  | insmod => exact .inr set
  | statement acts => exact .inr (acts.handler ▸ set)
  | rmmod => exact .inr set
  | checker part moved =>
    cases step_move moved with
    | init =>
      exfalso
      cases event <;> cases part
    | calm => exact .inr set
    | alarm =>
      obtain ⟨handler, is⟩ := Option.isSome_iff_exists.1 set
      left
      simp [is, isIncident]
    | write => exact .inr set
    | quiet => exact .inr set
    | live => exact .inr set

end Steps

/-! ## The whole attack -/

variable {setup : Setup Handler} {first : Checker Handler}

theorem caught_snoc {s₀ s : State Handler} {events : List Event} {event : Event}
    (reaches : Reaches (step setup) s₀ events s) : Caught setup s₀ (events ++ [event]) ↔
      Caught setup s₀ events ∨ event = .tick ∧ s.place.injected = true ∧
        Seen s₀.checker.tableBytes s₀.checker.sysCallTableSize s.hijackerSysOpen := by
  constructor
  · rintro ⟨pre, post, s₁, split, before, injected, seen⟩
    cases post using List.reverseRecOn with
    | nil =>
      obtain ⟨rfl, last⟩ := List.append_inj' split rfl
      obtain rfl := before.unique reaches
      exact .inr ⟨List.singleton_inj.1 last, injected, seen⟩
    | append_singleton post last =>
      rw [← List.cons_append, ← List.append_assoc] at split
      exact .inl ⟨pre, post, s₁, (List.append_inj' split rfl).1, before, injected, seen⟩
  · rintro (⟨pre, post, s₁, rfl, before, injected, seen⟩ | ⟨rfl, injected, seen⟩)
    · exact ⟨pre, post ++ [event], s₁, by simp, before, injected, seen⟩
    · exact ⟨events, [], s, rfl, reaches, injected, seen⟩

/-- What holds of a run: the watch, who has been called, and whether there is still a handler. -/
structure Watched (setup : Setup Handler) (first : Checker Handler) (cr0 : UInt64) (events : List Event)
    (calls : List (Option (Call Handler))) (s : State Handler) : Prop where
  watch : Watch first s
  reported : (∃ call ∈ calls, isIncident call = true) ↔ Caught setup (start first cr0) events
  handler : (∃ call ∈ calls, isIncident call = true) ∨ s.checker.incidentHandler.isSome

theorem watched_of_run (guarding : Guarding setup first) (set : first.incidentHandler.isSome)
    (covers : 24 ≤ first.sysCallTableSize.toNat) {cr0 : UInt64} {events : List Event}
    {calls : List (Option (Call Handler))} {s : State Handler}
    (leaves : Along (step setup) LeavesTable events (start first cr0))
    (ran : run (step setup) events (start first cr0) = .ok (calls, s)) : Watched setup first cr0 events calls s := by
  revert leaves
  refine history_of_run (fun events calls s => Along (step setup) LeavesTable events (start first cr0) →
    Watched setup first cr0 events calls s) ?_ ?_ ran
  · intro _
    refine ⟨.start guarding cr0, ?_, .inr set⟩
    simp [Caught]
  intro events calls s event call s' before past ok leaves
  obtain ⟨front, here⟩ := (along_snoc ⟨calls, before⟩).1 leaves
  obtain ⟨watch, reported, handler⟩ := past front
  have incident := watch.incident_iff guarding ok
  refine ⟨watch.step guarding covers here ok, ?_, ?_⟩
  · rw [caught_snoc ⟨calls, before⟩, ← reported]
    simp only [List.mem_append, List.mem_singleton, or_and_right, exists_or, exists_eq_left, incident]
    constructor
    · rintro (earlier | ⟨tick, -, injected⟩)
      · exact .inl earlier
      · exact .inr ⟨tick, injected⟩
    · rintro (earlier | ⟨tick, injected⟩)
      · exact .inl earlier
      · rcases handler with earlier | is
        · exact .inl earlier
        · exact .inr ⟨tick, is, injected⟩
  · rcases handler with ⟨earlier, member, was⟩ | is
    · exact .inl ⟨earlier, List.mem_append_left _ member, was⟩
    · rcases handler_stays ok is with now | still
      · exact .inl ⟨call, by simp, now⟩
      · exact .inr still

/-- **The attack is reported exactly if a tick falls between the two stores of the hijacker and its hash tells the
tables apart**, however often the hijacker is loaded, wherever its function lies, and whatever else happens. -/
theorem reported_iff {around : Surroundings} (starts : Loading.CheckerStarts around) (memory : UInt64 → Byte) (cr0 : UInt64)
    {events : List Event} {calls : List (Option (Call Carbonite.Handler))} {s : State Carbonite.Handler}
    (covers : 24 ≤ (guard around memory).sysCallTableSize.toNat)
    (leaves : Along (step around.setup) LeavesTable events (start (guard around memory) cr0))
    (ran : run (step around.setup) events (start (guard around memory) cr0) = .ok (calls, s)) :
    (∃ call ∈ calls, isIncident call = true) ↔ Caught around.setup (start (guard around memory) cr0) events := by
  obtain ⟨guarding, handler⟩ := Guarding.of_starts memory starts
  have set : (guard around memory).incidentHandler.isSome := by
    rw [handler]
    rfl
  exact (watched_of_run guarding set covers leaves ran).reported

/-- A table of three functions at 4096, where the second symbol begins. -/
def tableSurroundings : Surroundings := ⟨1000, ⟨[⟨bytes "sys_call_table", 4096⟩, ⟨bytes "next", 4120⟩], none⟩, 1⟩

/-- The attack with a tick after the injection. -/
def attack : List Event :=
  .insmod ⟨[0x00, 0x30, 0x00, 0xa0, 0xff, 0xff, 0xff, 0xff], rfl⟩ :: List.replicate 5 .statement ++ [.tick, .rmmod]

theorem tableSurroundings_starts : Loading.CheckerStarts tableSurroundings := by
  unfold Loading.CheckerStarts
  decide +kernel

theorem attack_runs : ∃ calls s, run (step tableSurroundings.setup) attack
    (start (guard tableSurroundings fun _ => 0) 0x80050033) = .ok (calls, s) :=
  ⟨_, _, rfl⟩

/-- It is reported. -/
theorem reported_iff_attack : ∃ calls s, run (step tableSurroundings.setup) attack
    (start (guard tableSurroundings fun _ => 0) 0x80050033) = .ok (calls, s) ∧
      (∃ call ∈ calls, isIncident call = true) := by
  obtain ⟨calls, s, ran⟩ := attack_runs
  refine ⟨calls, s, ran, (reported_iff tableSurroundings_starts (fun _ => 0) 0x80050033 (by decide +kernel) ?_ ran).2 ?_⟩
  · simp [attack, Along, LeavesTable]
  · exact ⟨attack.take 6, [.rmmod], _, rfl, ⟨_, rfl⟩, rfl, by unfold Seen; decide +kernel⟩

/-! ## What the attack leaves as it was -/

theorem disablePageProtection_spec (cr0 : UInt64) : disablePageProtection cr0 &&& writeProtect = 0 := by
  rw [disablePageProtection, UInt64.and_assoc, UInt64.not_and_self, UInt64.and_zero]

theorem enablePageProtection_spec (cr0 : UInt64) : enablePageProtection cr0 &&& writeProtect ≠ 0 := by
  have same : (cr0 ||| writeProtect) &&& writeProtect = writeProtect := by
    rw [← UInt64.toBitVec_inj]
    ext i
    simp only [UInt64.toBitVec_and, UInt64.toBitVec_or, BitVec.getElem_and, BitVec.getElem_or]
    grind
  rw [enablePageProtection, same]
  decide

/-- The hijacker's function is not the one that it finds in the table. -/
def Elsewhere (s : State Handler) : Event → Prop
  | .insmod hijackerSysOpen => hijackerSysOpen ≠ openEntry s.checker
  | _ => True

/-- Page protection is off between `disable_page_protection` and `enable_page_protection` only. -/
def Fenced (s : State Handler) : Prop := s.cr0 &&& writeProtect = 0 ↔ s.place.unprotected = true

theorem Fenced.acts {s s' : State Handler} (fenced : Fenced s) (acts : Acts setup s s') : Fenced s' := by
  cases acts with
  | lookup place found =>
    have on : ¬ s.cr0 &&& writeProtect = 0 := by simpa [Fenced, place, Place.unprotected] using fenced
    refine iff_of_false on ?_
    dsimp only
    split
    · decide
    · decide
  | readOriginal place => simpa [Fenced, place, Place.unprotected] using fenced
  | disable place => exact iff_of_true (disablePageProtection_spec _) rfl
  | inject place => simpa [Fenced, place, Place.unprotected] using fenced
  | enable place => exact iff_of_false (enablePageProtection_spec _) (by simp [Place.unprotected])
  | cleanupDisable place => exact iff_of_true (disablePageProtection_spec _) rfl
  | restore place => simpa [Fenced, place, Place.unprotected] using fenced
  | cleanupEnable place => exact iff_of_false (enablePageProtection_spec _) (by simp [Place.unprotected])

theorem Fenced.step {s s' : State Handler} {event : Event} {call : Option (Call Handler)} (fenced : Fenced s)
    (ok : step setup s event = .ok (call, s')) : Fenced s' := by
  cases step_moves ok with
  | insmod hijackerSysOpen unloaded => simpa [Fenced, unloaded, Place.unprotected] using fenced
  | statement acts => exact fenced.acts acts
  | rmmod loaded => simpa [Fenced, loaded, Place.unprotected] using fenced
  | checker => exact fenced

/-- No store of the hijacker meets a protected page. -/
theorem Fenced.stores {s : State Handler} (fenced : Fenced s) : s.statement setup ≠ .error .pageFault := by
  intro fault
  unfold State.statement at fault
  cases place : s.place with
  | inject =>
    have off : s.cr0 &&& writeProtect = 0 := by simpa [Fenced, place, Place.unprotected] using fenced
    simp [place, State.storeEntry, off] at fault
  | restore =>
    have off : s.cr0 &&& writeProtect = 0 := by simpa [Fenced, place, Place.unprotected] using fenced
    simp [place, State.storeEntry, off] at fault
  | _ => simp [place] at fault

/-- The function that a loaded hijacker has put aside is not its own. -/
def Aside (first : Checker Handler) (s : State Handler) : Prop :=
  s.place ≠ .unloaded → s.hijackerSysOpen ≠ openEntry first

theorem Aside.step {s s' : State Handler} {event : Event} {call : Option (Call Handler)} (aside : Aside first s)
    (watch : Watch first s) (covers : 24 ≤ first.sysCallTableSize.toNat) (elsewhere : Elsewhere s event)
    (ok : step setup s event = .ok (call, s')) : Aside first s' := by
  cases step_moves ok with
  | insmod hijackerSysOpen unloaded =>
    have table : s.checker.tableBytes = first.tableBytes := by simpa [unloaded, Place.injected] using watch.table
    intro _
    rw [← openEntry_eq watch.same.size covers table]
    exact elsewhere
  | statement acts =>
    intro loaded
    cases acts with
    | cleanupEnable => exact absurd rfl loaded
    | lookup place => exact aside (by simp [place])
    | readOriginal place => exact aside (by simp [place])
    | disable place => exact aside (by simp [place])
    | inject place => exact aside (by simp [place])
    | enable place => exact aside (by simp [place])
    | cleanupDisable place => exact aside (by simp [place])
    | restore place => exact aside (by simp [place])
  | rmmod loaded =>
    intro _
    exact aside (by simp [loaded])
  | checker => exact aside

/-- The pointer for open of a table that holds another one. -/
theorem openEntry_injected {c : Checker Handler} (size : c.sysCallTableSize = first.sysCallTableSize)
    (covers : 24 ≤ first.sysCallTableSize.toNat) {pointer : Pointer}
    (table : c.tableBytes = withOpen first.tableBytes pointer) : openEntry c = pointer := by
  have length : (first.tableBytes.take 16).length = 16 := by
    rw [List.length_take, tableBytes_length]
    omega
  have bytes : (openEntry c).bytes = pointer.bytes := by
    rw [openEntry, pointerAt_open c.memory c.sysCallTableAddress (size ▸ covers)]
    change (c.tableBytes.drop 16).take 8 = _
    rw [table, withOpen, List.drop_left' length, List.take_left' pointer.sized]
  cases entry : openEntry c
  cases pointer
  simpa [entry] using bytes

/-- What a user of open and the rest of the kernel notice of the hijacker. -/
structure Unnoticed (setup : Setup Handler) (first : Checker Handler) (s : State Handler) : Prop where
  /-- Open does what it did before. -/
  opens : ∀ {Args Result : Type} (call : Pointer → Args → Result) (args : Args),
    sysOpen call s args = call (openEntry first) args
  /-- The hijacker's next store is not trapped. -/
  stores : s.statement setup ≠ .error .pageFault
  /-- Behind its exit nothing is left of it. -/
  restored : s.place = .unloaded → s.checker.tableBytes = first.tableBytes ∧ s.cr0 &&& writeProtect ≠ 0

end Carbonite.Hijacker
