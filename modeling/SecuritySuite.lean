import SecuritySuite.Foundation.BitMixing
import SecuritySuite.Foundation.Buffer
import SecuritySuite.Foundation.Delivery
import SecuritySuite.Foundation.FirstCome
import SecuritySuite.Foundation.Framing
import SecuritySuite.Foundation.Ledger
import SecuritySuite.Foundation.Runs
import SecuritySuite.Foundation.Separated
import SecuritySuite.Netlog.AddressBuffers
import SecuritySuite.Netlog.BindProbe
import SecuritySuite.Netlog.ConcurrentWrites
import SecuritySuite.Netlog.ConnectProbes
import SecuritySuite.Netlog.ConnectionFormat
import SecuritySuite.Netlog.ConnectionLedger
import SecuritySuite.Netlog.ConnectionString
import SecuritySuite.Netlog.EffectiveEntries
import SecuritySuite.Netlog.LogLine
import SecuritySuite.Netlog.LoggedConnections
import SecuritySuite.Netlog.Matching
import SecuritySuite.Netlog.ModuleLifecycle
import SecuritySuite.Netlog.PortNumeral
import SecuritySuite.Netlog.ProbedAddress
import SecuritySuite.Netlog.ProcBounds
import SecuritySuite.Netlog.ProcConfig
import SecuritySuite.Netlog.ProcConfigSteps
import SecuritySuite.Netlog.ProcConsistency
import SecuritySuite.Netlog.ProcRejection
import SecuritySuite.Netlog.ProcRoundTrip
import SecuritySuite.Netlog.ReadRoom
import SecuritySuite.Netlog.RewrittenList
import SecuritySuite.Netlog.Whitelist
import SecuritySuite.Netlog.WhitelistInvariant
import SecuritySuite.Netlog.WhitelistUnion
import SecuritySuite.Netlog.WrittenText
import SecuritySuite.Carbonite.CheckerTeardown
import SecuritySuite.Carbonite.ConcurrentDumps
import SecuritySuite.Carbonite.Dispatch
import SecuritySuite.Carbonite.DumpAllocation
import SecuritySuite.Carbonite.DumpFormat
import SecuritySuite.Carbonite.DumpPointers
import SecuritySuite.Carbonite.DumpReaders
import SecuritySuite.Carbonite.DumpReading
import SecuritySuite.Carbonite.DumpText
import SecuritySuite.Carbonite.Forgery
import SecuritySuite.Carbonite.GrowingDump
import SecuritySuite.Carbonite.Hijacker
import SecuritySuite.Carbonite.IncidentHandler
import SecuritySuite.Carbonite.IntegrityCheck
import SecuritySuite.Carbonite.MessageRoom
import SecuritySuite.Carbonite.ModuleExit
import SecuritySuite.Carbonite.ModuleInit
import SecuritySuite.Carbonite.Monitoring
import SecuritySuite.Carbonite.MyKallsyms
import SecuritySuite.Carbonite.NextSymbol
import SecuritySuite.Carbonite.RemoteLog
import SecuritySuite.Carbonite.RemoteStream
import SecuritySuite.Carbonite.SingleIncident
import SecuritySuite.Carbonite.SnapshotLog
import SecuritySuite.Carbonite.Snapshots
import SecuritySuite.Carbonite.SuperFastHash
import SecuritySuite.Carbonite.TableChange
import SecuritySuite.Carbonite.TaskDump
import SecuritySuite.Dresden.ModuleGate
