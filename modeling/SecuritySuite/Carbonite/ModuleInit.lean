import SecuritySuite.Carbonite.DumpFile
import SecuritySuite.Carbonite.RemoteLog
import SecuritySuite.Carbonite.Snapshots

/-!
# `carbonite_init`

Four components are initialized in turn. The command device undoes its own part when it fails; a later component
undoes neither its own part nor that of those before it.
-/

namespace Carbonite
set_option autoImplicit false
open CString

def echardev : Int := 200

def etaskdump : Int := 300

def esystable : Int := 400

def elogger : Int := 500

def kernInfo : List Byte := bytes "<6>"

def kernErr : List Byte := bytes "<3>"

/-- `DUMP_PROC_ENTRY_NAME`. -/
def dumpProcEntryName : List Byte := bytes "the-drip-dry-carbonite-dump"

/-- The module parameters, apart from the check interval. -/
structure Parameters where
  sysCallTableMonitoring : UInt32
  remoteLogIp : Option (List Byte)
  stealth : UInt32

/-- What the kernel's functions return. -/
structure InitAnswers where
  /-- A major number, or a negative code. -/
  registerChrdev : Int32
  kmallocName : Bool
  kmallocData : Bool
  createCommandEntry : Bool
  kmallocList : Bool
  createDumpEntry : Bool
  sockCreateKern : Bool
  createWorkqueue : Bool
  /-- What a call of `print_log` finds, by the text that it prints. -/
  logged : List Byte → LogSurroundings
  /-- What `vsnprintf` makes of a format whose arguments `vprintk` has used, by the text that was printed. -/
  leftover : List Byte → List Byte

/-- The statics of `command-chrdev.c`, with arrays as their texts. -/
structure CommandChrdev where
  commandMajor : Int32
  commandingModule : List Byte
  chrdevName : List Byte
  command : Option Handler

/-- The statics of `proc-entry.c`. -/
structure ProcEntry where
  procFileName : Option (List Byte)
  dataToExpose : Option (List Byte)
  /-- `proc_entry` is not NULL. -/
  procEntry : Bool

/-- The module while it is loaded: what the kernel has registered for it, and its statics. -/
structure Loading where
  chrdevs : List (Int32 × List Byte)
  procEntries : List (List Byte)
  commandChrdev : CommandChrdev
  procEntry : ProcEntry
  dumpList : Option DumpList
  /-- `dump_proc_entry` is not NULL. -/
  dumpProcEntry : Bool
  checker : Checker Handler
  logger : Logger
  /-- Off the list of modules, and without its exit. -/
  hidden : Bool

/-- Before `carbonite_init`. -/
def Loading.start (memory : UInt64 → Byte) : Loading where
  chrdevs := []
  procEntries := []
  commandChrdev := ⟨0, [], [], none⟩
  procEntry := ⟨none, none, false⟩
  dumpList := none
  dumpProcEntry := false
  checker := firstLoad memory
  logger := .loaded
  hidden := false

namespace Loading

/-! ## Components -/

def initProcEntry (answers : InitAnswers) (name data : List Byte) (s : Loading) : Bool × Loading :=
  if s.procEntry.procEntry then (false, s)
  else if !answers.kmallocName then (false, { s with procEntry := ⟨none, s.procEntry.dataToExpose, false⟩ })
  else if !answers.kmallocData then (false, { s with procEntry := ⟨some name, none, false⟩ })
  else if !answers.createCommandEntry then (false, { s with procEntry := ⟨some name, some data, false⟩ })
  else (true, { s with procEntry := ⟨some name, some data, true⟩, procEntries := name :: s.procEntries })

/-- The pointers stay, although what they point to is freed. -/
def destroyProcEntry (s : Loading) : Loading :=
  match s.procEntry.procFileName with
  | some name => if s.procEntry.procEntry then { s with procEntries := s.procEntries.erase name } else s
  | none => s

def destroyCommandChrdev (s : Loading) : Loading :=
  let s := s.destroyProcEntry
  { s with
    chrdevs := s.chrdevs.erase (s.commandChrdev.commandMajor, s.commandChrdev.chrdevName)
    commandChrdev := ⟨0, [], [], none⟩ }

def initCommandChrdev (answers : InitAnswers) (moduleName : Option (List Byte)) (function : Option Handler) (s : Loading) :
    Bool × Loading :=
  match moduleName, function with
  | none, _ => (false, s)
  | some name, none =>
    (false, { s with commandChrdev := { s.commandChrdev with commandingModule := text (strncpy moduleNameLen name) } })
  | some name, some command =>
    let commandingModule := text (strncpy moduleNameLen name)
    let chrdevName := bytes "command-" ++ commandingModule
    let s := { s with commandChrdev := ⟨answers.registerChrdev, commandingModule, chrdevName, some command⟩ }
    if answers.registerChrdev < 0 then (false, s)
    else
      let s := { s with chrdevs := (answers.registerChrdev, chrdevName) :: s.chrdevs }
      let r := s.initProcEntry answers (chrdevName ++ bytes "-major") (signedDecimal answers.registerChrdev.toInt)
      if r.1 then (true, r.2) else (false, r.2.destroyCommandChrdev)

/-- A list that is there already is destroyed. -/
def initTaskDump (answers : InitAnswers) (s : Loading) : Bool × Loading :=
  if !answers.kmallocList then (false, { s with dumpList := none })
  else if s.dumpProcEntry then (true, { s with dumpList := some [] })
  else if !answers.createDumpEntry then (false, { s with dumpList := some [] })
  else (true, { s with dumpList := some [], dumpProcEntry := true, procEntries := dumpProcEntryName :: s.procEntries })

end Loading

/-- The statements of the initialization, one after the other. -/
def Checker.statements (setup : Setup Handler) : (fuel : Nat) → Checker Handler → Checker Handler
  | 0, s => s
  | fuel + 1, s => statements setup fuel (initStatement setup s)

/-- It has thirteen statements. -/
def initSysCallTableIntegrityChecker (setup : Setup Handler) (s : Checker Handler) : Bool × Checker Handler :=
  let s := s.statements setup 13
  (s.next = .returned 1, s)

namespace Loading

/-! ## `carbonite_init` -/

def printLog (answers : InitAnswers) (message : Message) (s : Loading) : Except LoggerFault Loading :=
  match s.logger.printLog (answers.logged message.printed) (some message) with
  | .error fault => .error fault
  | .ok r => .ok { s with logger := r.2 }

/-- The report of a logger that is not initialized. -/
def loggerFailed : List Byte := kernErr ++ moduleName ++ bytes ":\t[-] Failed to initialize logger\n"

/-- The last part of `carbonite_init`, from `init_logger` on. -/
def startLogger (params : Parameters) (answers : InitAnswers) (s : Loading) : Except LoggerFault (Int × Loading) := do
  let r := s.logger.initLogger params.remoteLogIp answers.sockCreateKern answers.createWorkqueue
  let s := { s with logger := r.2 }
  if r.1 = 0 then
    let s ← s.printLog answers (.plain loggerFailed)
    return (-elogger, s)
  let s ← s.printLog answers (.plain (kernInfo ++ moduleName ++ bytes ":\t[+] Initiliazed logger\n"))
  if params.stealth ≠ 0 then
    let s ← printLog answers (.plain (kernInfo ++ moduleName ++ bytes ":\t[+] Stealth mode is enabled\n")) { s with hidden := true }
    return (0, s)
  let s ← s.printLog answers (.plain (kernInfo ++ moduleName ++ bytes ":\t[-] Stealth mode is not enabled\n"))
  return (0, s)

def carboniteInit (around : Surroundings) (params : Parameters) (answers : InitAnswers) (s : Loading) :
    Except LoggerFault (Int × Loading) := do
  let s ← s.printLog answers
    (.plain (kernInfo ++ moduleName ++
      bytes ": Security extension for the linux kernel by Panos Sakkos <panos.sakkos@gmail.com>\n"))
  let s ← s.printLog answers (.plain (kernInfo ++ moduleName ++ bytes ":\t[+] Initializing\n"))
  let r := s.initCommandChrdev answers (some moduleName) (some carbonite)
  if !r.1 then
    let s ← r.2.printLog answers (.plain (kernErr ++ moduleName ++ bytes ":\t[-] Failed to initialize command character device\n"))
    return (-echardev, s)
  let s ← r.2.printLog answers (.plain (kernInfo ++ moduleName ++ bytes ":\t[+] Initiliazed command character device\n"))
  let r := s.initTaskDump answers
  if !r.1 then
    let s ← r.2.printLog answers (.plain (kernErr ++ moduleName ++ bytes ":\t[-] Failed to initialize task_dump component\n"))
    return (-etaskdump, s)
  let s ← r.2.printLog answers (.plain (kernInfo ++ moduleName ++ bytes ":\t[+] Initiliazed task_dump component\n"))
  if params.sysCallTableMonitoring = 0 then
    let s ← s.printLog answers (.plain (kernInfo ++ moduleName ++ bytes ":\t[-] Skipping monitoring of the system call table\n"))
    return (0, s)
  let r := initSysCallTableIntegrityChecker around.setup s.checker
  let s := { s with checker := r.2 }
  if !r.1 then
    let s ← s.printLog answers (.plain (kernErr ++ moduleName ++ bytes ":\t[-] Failed to initialize system call table checker\n"))
    return (-esystable, s)
  let initialized := kernInfo ++ moduleName ++
    bytes ":\t[+] Initialized timer for checking the integrity of the system call table (check interval: " ++
    decimal around.sysCallTableCheckInterval.toNat ++ bytes ")\n"
  let s ← s.printLog answers ⟨initialized, answers.leftover initialized⟩
  s.startLogger params answers

/-! ## What a failure leaves -/

/-- Nothing is registered, armed or open. -/
structure LeavesNothing (s : Loading) : Prop where
  chrdevs : s.chrdevs = []
  procEntries : s.procEntries = []
  timer : s.checker.timerPending = false
  notifier : s.checker.notifierRegistered = false
  sock : s.logger.sock = false

/-- A negative code comes with nothing left. -/
def CleanFailure (around : Surroundings) (params : Parameters) (answers : InitAnswers) (memory : UInt64 → Byte) : Prop :=
  ∀ code s, carboniteInit around params answers (start memory) = .ok (code, s) → code < 0 → LeavesNothing s

/-- `init_command_chrdev` fails. -/
def ChrdevFails (answers : InitAnswers) : Prop :=
  answers.registerChrdev < 0 ∨ answers.kmallocName = false ∨ answers.kmallocData = false ∨ answers.createCommandEntry = false

/-- `init_task_dump` succeeds. -/
def TaskDumpStarts (answers : InitAnswers) : Prop := answers.kmallocList = true ∧ answers.createDumpEntry = true

/-- The interval is not 0, and both symbols are found. -/
def CheckerStarts (around : Surroundings) : Prop :=
  let table := (myKallsymsLookupName around.kernel (bytes "sys_call_table") ⟨0, false⟩).1
  around.sysCallTableCheckInterval ≠ 0 ∧ table ≠ 0 ∧ (findNextSymbol around.kernel table).targetAddress ≠ 0

/-- Remote logging is off, or the socket and the work queue are created. -/
def LoggerStarts (params : Parameters) (answers : InitAnswers) : Prop :=
  params.remoteLogIp = none ∨ answers.sockCreateKern = true ∧ answers.createWorkqueue = true

/-- The work queue is not created, and the report of that is handed to it. -/
def ReportStuck (params : Parameters) (answers : InitAnswers) : Prop :=
  params.remoteLogIp ≠ none ∧ answers.sockCreateKern = true ∧ answers.createWorkqueue = false ∧
    (answers.logged loggerFailed).kmallocWork = true ∧ (answers.logged loggerFailed).kmallocBuffer = true ∧
    (assemble (answers.logged loggerFailed) loggerFailed).isSome = true

/-! ### The components -/

/-- The command device is registered, and no other component has begun. -/
structure Attached (memory : UInt64 → Byte) (s : Loading) : Prop where
  chrdevs : s.chrdevs ≠ []
  dumpProcEntry : s.dumpProcEntry = false
  checker : s.checker = firstLoad memory
  logger : s.logger = .loaded

/-- The proc entry of the command device, which no earlier entry stands in the way of. -/
theorem initProcEntry_spec (answers : InitAnswers) (s : Loading) (fresh : s.procEntry.procEntry = false)
    (name data : List Byte) :
    (answers.kmallocName = true ∧ answers.kmallocData = true ∧ answers.createCommandEntry = true ∧
      s.initProcEntry answers name data =
        (true, { s with procEntry := ⟨some name, some data, true⟩, procEntries := name :: s.procEntries })) ∨
    ((answers.kmallocName = false ∨ answers.kmallocData = false ∨ answers.createCommandEntry = false) ∧
      ∃ statics, statics.procEntry = false ∧ s.initProcEntry answers name data = (false, { s with procEntry := statics })) := by
  unfold initProcEntry
  rw [if_neg (by simp [fresh])]
  cases answers.kmallocName with
  | false => exact .inr ⟨.inl rfl, ⟨none, s.procEntry.dataToExpose, false⟩, rfl, rfl⟩
  | true =>
    cases answers.kmallocData with
    | false => exact .inr ⟨.inr (.inl rfl), ⟨some name, none, false⟩, rfl, rfl⟩
    | true =>
      cases answers.createCommandEntry with
      | false => exact .inr ⟨.inr (.inr rfl), ⟨some name, some data, false⟩, rfl, rfl⟩
      | true => exact .inl ⟨rfl, rfl, rfl, rfl⟩

/-- An entry that was not created is not removed. -/
theorem destroyProcEntry_absent {s : Loading} (absent : s.procEntry.procEntry = false) : s.destroyProcEntry = s := by
  unfold destroyProcEntry
  cases s.procEntry.procFileName with
  | none => rfl
  | some name => exact if_neg (by simp [absent])

/-- With its major number, while the proc entry is not there yet. -/
def registered (answers : InitAnswers) (memory : UInt64 → Byte) (chrdevName commandingModule : List Byte) : Loading :=
  { start memory with
    commandChrdev := ⟨answers.registerChrdev, commandingModule, chrdevName, some carbonite⟩
    chrdevs := [(answers.registerChrdev, chrdevName)] }

/-- `init_command_chrdev` undoes its own part when it fails. -/
theorem initCommandChrdev_spec (answers : InitAnswers) (memory : UInt64 → Byte) :
    (ChrdevFails answers ∧ ∃ s, (start memory).initCommandChrdev answers (some moduleName) (some carbonite) = (false, s) ∧
      LeavesNothing s ∧ s.logger = .loaded) ∨
    (¬ ChrdevFails answers ∧ ∃ s, (start memory).initCommandChrdev answers (some moduleName) (some carbonite) = (true, s) ∧
      Attached memory s) := by
  by_cases major : answers.registerChrdev < 0
  · refine .inl ⟨.inl major, _, by simp only [initCommandChrdev, if_pos major]; rfl, ⟨rfl, rfl, rfl, rfl, rfl⟩, rfl⟩
  have whole : ∃ chrdevName commandingModule name data, (start memory).initCommandChrdev answers (some moduleName) (some carbonite) =
      let r := (registered answers memory chrdevName commandingModule).initProcEntry answers name data
      if r.1 then (true, r.2) else (false, r.2.destroyCommandChrdev) := by
    simp only [initCommandChrdev, if_neg major]
    exact ⟨_, _, _, _, rfl⟩
  obtain ⟨chrdevName, commandingModule, name, data, whole⟩ := whole
  rw [whole]
  rcases initProcEntry_spec answers (registered answers memory chrdevName commandingModule) rfl name data with
    ⟨named, filled, entry, created⟩ | ⟨fails, statics, absent, failed⟩
  · refine .inr ⟨?_, _, by rw [created]; rfl, ⟨by simp [registered], rfl, rfl, rfl⟩⟩
    simp [ChrdevFails, major, named, filled, entry]
  · -- Only the device is unregistered: there is no entry.
    have destroyed : destroyCommandChrdev { registered answers memory chrdevName commandingModule with procEntry := statics } =
        { start memory with procEntry := statics } := by
      unfold destroyCommandChrdev
      rw [destroyProcEntry_absent absent]
      simp [registered, start]
    refine .inl ⟨.inr fails, { start memory with procEntry := statics }, ?_, ⟨rfl, rfl, rfl, rfl, rfl⟩, rfl⟩
    rw [failed, ← destroyed]
    rfl

/-- The dump list and its entry. The device and the other components stay as they are. -/
theorem initTaskDump_spec (answers : InitAnswers) {memory : UInt64 → Byte} {s : Loading} (attached : Attached memory s) :
    ∃ s', s.initTaskDump answers = (answers.kmallocList && answers.createDumpEntry, s') ∧ s'.chrdevs = s.chrdevs ∧
      s'.checker = firstLoad memory ∧ s'.logger = .loaded := by
  have checker := attached.checker
  have logger := attached.logger
  unfold initTaskDump
  rw [if_neg (show ¬ s.dumpProcEntry = true by simp [attached.dumpProcEntry])]
  cases answers.kmallocList with
  | false => exact ⟨_, rfl, rfl, checker, logger⟩
  | true =>
    cases answers.createDumpEntry with
    | false => exact ⟨_, rfl, rfl, checker, logger⟩
    | true => exact ⟨_, rfl, rfl, checker, logger⟩

end Loading

/-- The statements stop at the first one that fails. -/
theorem initSysCallTableIntegrityChecker_starts (around : Surroundings) (memory : UInt64 → Byte) :
    (initSysCallTableIntegrityChecker around.setup (firstLoad memory)).1 = true ↔ Loading.CheckerStarts around := by
  have interval : around.sysCallTableCheckInterval.toUInt64 = 0 ↔ around.sysCallTableCheckInterval = 0 := by
    rw [← UInt64.toNat_inj, ← UInt32.toNat_inj]
    simp
  simp only [Loading.CheckerStarts, initSysCallTableIntegrityChecker, decide_eq_true_eq]
  by_cases zero : around.sysCallTableCheckInterval = 0
  · simp [Checker.statements, initStatement, firstLoad, Surroundings.setup, zero]
  by_cases table : (myKallsymsLookupName around.kernel (bytes "sys_call_table") ⟨0, false⟩).1 = 0
  · simp [Checker.statements, initStatement, firstLoad, Surroundings.setup, registerTimerInterrupt, interval, zero, table]
  by_cases next : (findNextSymbol around.kernel
      (myKallsymsLookupName around.kernel (bytes "sys_call_table") ⟨0, false⟩).1).targetAddress = 0
  · simp [Checker.statements, initStatement, firstLoad, Surroundings.setup, registerTimerInterrupt, interval, zero, table, next]
  · simp [Checker.statements, initStatement, firstLoad, Surroundings.setup, registerTimerInterrupt, interval, zero, table, next]

namespace Loading

/-- Before the logger is initialized, messages stay local. -/
theorem printLog_local {s : Loading} (quiet : s.logger = .loaded) (answers : InitAnswers) (message : Message) :
    s.printLog answers message = .ok s := by
  obtain ⟨chrdevs, procEntries, commandChrdev, procEntry, dumpList, dumpProcEntry, checker, logger, hidden⟩ := s
  cases quiet
  rfl

/-! ### The whole initialization -/

variable {around : Surroundings} {params : Parameters} {answers : InitAnswers} {memory : UInt64 → Byte}

theorem start_logger : (start memory).logger = .loaded := rfl

/-- The initialization returns a negative code while the device is still registered. -/
def Abandons (around : Surroundings) (params : Parameters) (answers : InitAnswers) (memory : UInt64 → Byte) : Prop :=
  ∃ code s, carboniteInit around params answers (start memory) = .ok (code, s) ∧ code < 0 ∧ s.chrdevs ≠ []

theorem Abandons.not_clean (abandons : Abandons around params answers memory) :
    ¬ CleanFailure around params answers memory := by
  intro clean
  obtain ⟨code, s, returned, negative, chrdevs⟩ := abandons
  exact chrdevs (clean code s returned negative).chrdevs

theorem clean_of_zero (zero : ∀ code s, carboniteInit around params answers (start memory) = .ok (code, s) → code = 0) :
    CleanFailure around params answers memory := by
  intro code s returned negative
  rw [zero code s returned] at negative
  cases negative

theorem carboniteInit_chrdev (fails : ChrdevFails answers) : CleanFailure around params answers memory := by
  rcases initCommandChrdev_spec answers memory with ⟨-, s, failed, nothing, quiet⟩ | ⟨starts, -⟩
  case inr => exact absurd fails starts
  have returned : carboniteInit around params answers (start memory) = .ok (-echardev, s) := by
    simp only [carboniteInit, bind, Except.bind, printLog_local start_logger, failed, printLog_local quiet]
    rfl
  intro code s' returned' _
  rw [returned] at returned'
  cases returned'
  exact nothing

theorem carboniteInit_taskDump (attaches : ¬ ChrdevFails answers) (fails : ¬ TaskDumpStarts answers) :
    Abandons around params answers memory := by
  rcases initCommandChrdev_spec answers memory with ⟨failed, -⟩ | ⟨-, s, started, attached⟩
  case inl => exact absurd failed attaches
  obtain ⟨s', dumps, chrdevs, -, quiet⟩ := initTaskDump_spec answers attached
  have both : (answers.kmallocList && answers.createDumpEntry) = false := by
    rw [Bool.eq_false_iff]
    simpa [TaskDumpStarts] using fails
  rw [both] at dumps
  refine ⟨-etaskdump, s', ?_, by decide, chrdevs ▸ attached.chrdevs⟩
  simp only [carboniteInit, bind, Except.bind, printLog_local start_logger, started, printLog_local attached.logger,
    dumps, printLog_local quiet]
  rfl

/-- The first two components have succeeded. -/
structure Dumping (answers : InitAnswers) (memory : UInt64 → Byte) (s s' : Loading) : Prop where
  device : (start memory).initCommandChrdev answers (some moduleName) (some carbonite) = (true, s)
  dump : s.initTaskDump answers = (true, s')
  chrdevs : s'.chrdevs ≠ []
  checker : s'.checker = firstLoad memory
  quiet : s.logger = .loaded
  logger : s'.logger = .loaded

theorem dumping (memory : UInt64 → Byte) (attaches : ¬ ChrdevFails answers) (starts : TaskDumpStarts answers) :
    ∃ s s', Dumping answers memory s s' := by
  rcases initCommandChrdev_spec answers memory with ⟨failed, -⟩ | ⟨-, s, started, attached⟩
  · exact absurd failed attaches
  obtain ⟨s', dumps, chrdevs, checker, quiet⟩ := initTaskDump_spec answers attached
  rw [starts.1, starts.2] at dumps
  exact ⟨s, s', started, dumps, chrdevs ▸ attached.chrdevs, checker, attached.logger, quiet⟩

theorem carboniteInit_unmonitored {s s' : Loading} (d : Dumping answers memory s s')
    (off : params.sysCallTableMonitoring = 0) : carboniteInit around params answers (start memory) = .ok (0, s') := by
  simp only [carboniteInit, bind, Except.bind, printLog_local start_logger, d.device, printLog_local d.quiet, d.dump,
    printLog_local d.logger, if_pos off]
  rfl

theorem carboniteInit_checker {s s' : Loading} (d : Dumping answers memory s s')
    (on : params.sysCallTableMonitoring ≠ 0) (fails : ¬ CheckerStarts around) :
    Abandons around params answers memory := by
  have stops : (initSysCallTableIntegrityChecker around.setup (firstLoad memory)).1 = false := by
    rw [Bool.eq_false_iff]
    exact fun starts => fails ((initSysCallTableIntegrityChecker_starts around memory).1 starts)
  refine ⟨-esystable, { s' with checker := (initSysCallTableIntegrityChecker around.setup (firstLoad memory)).2 }, ?_,
    by decide, d.chrdevs⟩
  simp only [carboniteInit, bind, Except.bind, printLog_local start_logger, d.device, printLog_local d.quiet, d.dump,
    printLog_local d.logger, if_neg on, d.checker, stops]
  rw [printLog_local]
  · rfl
  · exact d.logger

/-- The initialization comes to the logger, with the other components running. -/
theorem carboniteInit_logger {s s' : Loading} (d : Dumping answers memory s s')
    (on : params.sysCallTableMonitoring ≠ 0) (starts : CheckerStarts around) :
    ∃ s : Loading, s.chrdevs ≠ [] ∧ s.logger = .loaded ∧
      carboniteInit around params answers (start memory) = s.startLogger params answers := by
  have begins := (initSysCallTableIntegrityChecker_starts around memory).2 starts
  have logger (checker : Checker Handler) : ({ s' with checker := checker } : Loading).logger = .loaded := d.logger
  refine ⟨{ s' with checker := (initSysCallTableIntegrityChecker around.setup (firstLoad memory)).2 }, d.chrdevs,
    logger _, ?_⟩
  simp only [carboniteInit, bind, Except.bind, printLog_local start_logger, d.device, printLog_local d.quiet, d.dump,
    printLog_local d.logger, if_neg on, d.checker, begins, printLog_local (logger _)]
  rfl

/-- The logger as `carbonite_init` initializes it. -/
def firstLogger (params : Parameters) (answers : InitAnswers) : Int × Logger :=
  Logger.loaded.initLogger params.remoteLogIp answers.sockCreateKern answers.createWorkqueue

theorem firstLogger_starts (starts : LoggerStarts params answers) : (firstLogger params answers).1 = 1 := by
  unfold firstLogger Logger.initLogger
  rcases starts with off | ⟨socket, workqueue⟩
  · rw [off]
    rfl
  · cases params.remoteLogIp with
    | none => rfl
    | some ip =>
      rw [socket, workqueue]
      rfl

theorem firstLogger_fails (fails : ¬ LoggerStarts params answers) : (firstLogger params answers).1 = 0 ∧
    ((firstLogger params answers).2.Loses (.printLog (answers.logged loggerFailed) (some (.plain loggerFailed))) ↔
      ReportStuck params answers) := by
  unfold LoggerStarts at fails
  unfold firstLogger Logger.initLogger ReportStuck
  cases ip : params.remoteLogIp with
  | none => exact absurd (.inl ip) fails
  | some ip =>
    cases socket : answers.sockCreateKern with
    | false => simp [Logger.loaded, Logger.Loses]
    | true =>
      cases workqueue : answers.createWorkqueue with
      | false => simp [Logger.loaded, Logger.Loses]
      | true => exact absurd (.inr ⟨socket, workqueue⟩) fails

/-- With a logger, the initialization returns no code but 0. -/
theorem startLogger_starts {s s' : Loading} {code : Int} (logger : s.logger = .loaded) (starts : LoggerStarts params answers)
    (returned : s.startLogger params answers = .ok (code, s')) : code = 0 := by
  have works := firstLogger_starts starts
  unfold firstLogger at works
  simp only [startLogger, bind, Except.bind, logger, works, if_neg Int.one_ne_zero] at returned
  split at returned
  · cases returned
  split at returned
  · split at returned
    · cases returned
    · cases returned
      rfl
  · split at returned
    · cases returned
    · cases returned
      rfl

/-- A logger that is not initialized is reported, unless the report has no work queue to go to. -/
theorem startLogger_fails {s : Loading} (logger : s.logger = .loaded) (fails : ¬ LoggerStarts params answers) :
    (ReportStuck params answers ∧ s.startLogger params answers = .error .queueWork) ∨
    (¬ ReportStuck params answers ∧
      ∃ s', s.startLogger params answers = .ok (-elogger, s') ∧ s'.chrdevs = s.chrdevs) := by
  obtain ⟨zero, stuck⟩ := firstLogger_fails fails
  have tracked : (firstLogger params answers).2.Tracked :=
    Logger.initLogger_tracked Logger.loaded_tracked params.remoteLogIp answers.sockCreateKern answers.createWorkqueue
  by_cases loses : (firstLogger params answers).2.Loses (.printLog (answers.logged loggerFailed) (some (.plain loggerFailed)))
  · have faults := Logger.printLog_loses loses
    unfold Logger.step at faults
    refine .inl ⟨stuck.1 loses, ?_⟩
    unfold firstLogger at zero faults
    simp only [startLogger, bind, Except.bind, logger, zero, printLog, Message.plain_printed, faults]
    rfl
  · obtain ⟨answer, logger', logged, -⟩ := Logger.printLog_tracked tracked loses
    refine .inr ⟨fun isStuck => loses (stuck.2 isStuck), { s with logger := logger' }, ?_, rfl⟩
    unfold firstLogger at zero logged
    simp only [startLogger, bind, Except.bind, logger, zero, printLog, Message.plain_printed, logged]
    rfl

/-- **Which initializations fail cleanly**: those in which the command device fails, and those that return no
negative code: because they succeed, or because the report of a missing work queue is handed to it. -/
theorem clean_failure_iff (around : Surroundings) (params : Parameters) (answers : InitAnswers) (memory : UInt64 → Byte) :
    CleanFailure around params answers memory ↔
      ChrdevFails answers ∨ (TaskDumpStarts answers ∧ (params.sysCallTableMonitoring = 0 ∨
        (CheckerStarts around ∧ (LoggerStarts params answers ∨ ReportStuck params answers)))) := by
  by_cases attaches : ChrdevFails answers
  · exact iff_of_true (carboniteInit_chrdev attaches) (.inl attaches)
  by_cases dumps : TaskDumpStarts answers
  case neg => exact iff_of_false (carboniteInit_taskDump attaches dumps).not_clean (by tauto)
  obtain ⟨s, s', d⟩ := dumping memory attaches dumps
  by_cases off : params.sysCallTableMonitoring = 0
  · refine iff_of_true ?_ (.inr ⟨dumps, .inl off⟩)
    apply clean_of_zero
    intro code s'' returned
    rw [carboniteInit_unmonitored d off] at returned
    cases returned
    rfl
  by_cases starts : CheckerStarts around
  case neg => exact iff_of_false (carboniteInit_checker d off starts).not_clean (by tauto)
  obtain ⟨running, chrdevs, logger, comes⟩ := carboniteInit_logger d off starts
  by_cases logs : LoggerStarts params answers
  · refine iff_of_true ?_ (.inr ⟨dumps, .inr ⟨starts, .inl logs⟩⟩)
    apply clean_of_zero
    intro code s'' returned
    rw [comes] at returned
    exact startLogger_starts logger logs returned
  rcases startLogger_fails logger logs with ⟨stuck, faults⟩ | ⟨free, s'', returned, same⟩
  · refine iff_of_true ?_ (.inr ⟨dumps, .inr ⟨starts, .inr stuck⟩⟩)
    intro code s'' returned
    rw [comes, faults] at returned
    cases returned
  · have abandons : Abandons around params answers memory :=
      ⟨-elogger, s'', comes.trans returned, by decide, same ▸ chrdevs⟩
    exact iff_of_false abandons.not_clean (by tauto)

/-- Every call of the kernel succeeds, and the major number is 240. -/
def allAnswers : InitAnswers := ⟨240, true, true, true, true, true, true, true, fun _ => Logger.noonSurroundings, id⟩

/-- The dump list cannot be allocated; the symbols are not found; the work queue is not created, and there is no
memory for the report of that. -/
theorem clean_failure_fails :
    ¬ CleanFailure smallSurroundings ⟨1, none, 1⟩ { allAnswers with kmallocList := false } (fun _ => 0) ∧
    ¬ CleanFailure { smallSurroundings with kernel := ⟨[], none⟩ } ⟨1, none, 1⟩ allAnswers (fun _ => 0) ∧
    ¬ CleanFailure smallSurroundings ⟨1, some (bytes "10.0.0.1"), 1⟩ { allAnswers with
      createWorkqueue := false, logged := fun _ => { Logger.noonSurroundings with kmallocWork := false } } (fun _ => 0) := by
  refine ⟨?_, ?_, ?_⟩
  · intro clean
    have left := (clean (-300) _ rfl (by decide)).chrdevs
    cases left
  · intro clean
    have left := (clean (-400) _ rfl (by decide)).notifier
    cases left
  · intro clean
    have left := (clean (-500) _ rfl (by decide)).sock
    cases left

end Loading

end Carbonite
