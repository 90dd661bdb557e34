import LibreSync.Base
import LibreSync.Entry
import LibreSync.State
import LibreSync.Writes
import LibreSync.Record
import LibreSync.RecordKey
import LibreSync.Logical
import LibreSync.Lib.LastWriter
import LibreSync.RecordMerge
import LibreSync.LogicalConvergence
import LibreSync.Adapter
import LibreSync.Lib.Transition
import LibreSync.Sync
import LibreSync.SyncInvariant
import LibreSync.SyncExchange
import LibreSync.SyncDelta
import LibreSync.RecordContent
import LibreSync.RecordState
import LibreSync.RecordEdit
import LibreSync.SyncFields
import LibreSync.SyncArrival
import LibreSync.RecordRouting
import LibreSync.Engine
import LibreSync.EngineFiles
import LibreSync.Handler
import LibreSync.LinkKeys
import LibreSync.ConfigHandler
import LibreSync.Managed.Envelope
import LibreSync.Managed.Adapter
import LibreSync.Managed.Records
import LibreSync.Managed.Momentum
import LibreSync.Managed.Receipt
import LibreSync.Managed.Journal
import LibreSync.Managed.Exchange
import LibreSync.Managed.Application
import LibreSync.Managed.Lifecycle
import LibreSync.Managed.Pairing
import LibreSync.Managed.Open
import LibreSync.Managed.Calls
import LibreSync.Managed.Commit
import LibreSync.Managed.Steps
import LibreSync.Managed.Changes
import LibreSync.Managed.ClockRange
import LibreSync.Managed.Delivery
import LibreSync.Managed.Pause
import LibreSync.Managed.RecoveryCopy
import LibreSync.Managed.Consent
import LibreSync.Managed.CrashAtomicity
import LibreSync.Managed.Effect
import LibreSync.Managed.World
import LibreSync.Managed.Meeting
import LibreSync.Managed.Coverage
import LibreSync.Managed.Convergence
import LibreSync.PairingManager
import LibreSync.Managed.BatchJson
import LibreSync.Lib.Overlay
import LibreSync.SqliteDelta
import LibreSync.SqliteFile
import LibreSync.SqliteExchange
import LibreSync.Lib.Threads
import LibreSync.EventStream
import LibreSync.BackgroundEngine
import LibreSync.CollectionMerge
import LibreSync.FieldClocks
import LibreSync.Backup
import LibreSync.Lib.Json
import LibreSync.RecordJson
import LibreSync.SqliteColumns
import LibreSync.SqliteLogical
import LibreSync.Lib.Fallible
import LibreSync.RecordInbound
import LibreSync.FileTicks
import LibreSync.Remerge
import LibreSync.StateRuns
import LibreSync.Lib.PrefixCode
import LibreSync.Crypto
import LibreSync.AutoRefresh
import LibreSync.Managed.Invitation
import LibreSync.Managed.Acknowledge
import LibreSync.Keystore
import LibreSync.Lib.Surplus
import LibreSync.Retention
import LibreSync.SnapshotKeys
import LibreSync.Lib.JsonBytes
import LibreSync.KeyRotation
import LibreSync.Compaction
import LibreSync.Framing
import LibreSync.Managed.JsonTree
import LibreSync.Contract
import LibreSync.Transcript
import LibreSync.Managed.Applied
import LibreSync.Managed.Renewal
import LibreSync.Managed.Generations
import LibreSync.Managed.Status
import LibreSync.Managed.UpToDate
import LibreSync.Managed.Overtaking
import LibreSync.Managed.PairingRecovery
import LibreSync.Managed.GroupAgreement
import LibreSync.Managed.KeyRelease
