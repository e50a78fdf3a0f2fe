import CompilerFabric.Base.Format
import CompilerFabric.Base.Packing
import CompilerFabric.Base.Stricter
import CompilerFabric.Base.Spelling
import CompilerFabric.Base.Trace
import CompilerFabric.Base.Action
import CompilerFabric.Base.Walk
import CompilerFabric.Base.Frames
import CompilerFabric.Core.Identity
import CompilerFabric.Core.Digest
import CompilerFabric.Core.Text
import CompilerFabric.Core.Path
import CompilerFabric.Core.Phase
import CompilerFabric.Core.Registry
import CompilerFabric.Core.Toolchain
import CompilerFabric.Core.Artifact
import CompilerFabric.Core.Lineage
import CompilerFabric.Core.Session
import CompilerFabric.Core.Persistence
import CompilerFabric.Core.Bounds
import CompilerFabric.Core.Canonical
import CompilerFabric.Core.Journal
import CompilerFabric.Core.Scan
import CompilerFabric.Core.Store
import CompilerFabric.Core.Snapshot
import CompilerFabric.Runtime.State
import CompilerFabric.Runtime.Bundle
import CompilerFabric.Runtime.Reserve
import CompilerFabric.Runtime.Execute
import CompilerFabric.Runtime.Commit
import CompilerFabric.Runtime.Session
import CompilerFabric.Runtime.Recovery
import CompilerFabric.Runtime.Boot
import CompilerFabric.Runtime.System
import CompilerFabric.Runtime.Identities
import CompilerFabric.Runtime.Evolution
import CompilerFabric.Runtime.Frame
import CompilerFabric.Runtime.Moves
import CompilerFabric.Runtime.Outputs
import CompilerFabric.Runtime.Steps
import CompilerFabric.Runtime.Calls
import CompilerFabric.Runtime.Restart
import CompilerFabric.Runtime.Turns
import CompilerFabric.Law.AtMostOnce
import CompilerFabric.Law.RecoveryGate
import CompilerFabric.Law.Retry
import CompilerFabric.Law.Reproducible
import CompilerFabric.Law.Sources
import CompilerFabric.Law.Atomic
import CompilerFabric.Law.Readable
import CompilerFabric.Law.Terminal
import CompilerFabric.Law.Freshness
import CompilerFabric.Law.Generations
import CompilerFabric.Law.Journal
import CompilerFabric.Law.Crash
import CompilerFabric.Law.Boundary
import CompilerFabric.Runtime.Workspace
import CompilerFabric.Runtime.Marker
import CompilerFabric.Runtime.Invocation
import CompilerFabric.Law.Recovered
import CompilerFabric.Law.Progress
import CompilerFabric.Law.Workspaces
import CompilerFabric.Runtime.Estate
import CompilerFabric.Runtime.Holdings
import CompilerFabric.Runtime.Ownership
import CompilerFabric.Runtime.Openings
import CompilerFabric.Law.Isolation
import CompilerFabric.Ipc.Protocol
import CompilerFabric.Law.Admission
import CompilerFabric.Law.Rotation
import CompilerFabric.Law.Handover
import CompilerFabric.Ipc.Channel
import CompilerFabric.Ipc.Messages
import CompilerFabric.Law.Payloads
import CompilerFabric.Ipc.Worker
import CompilerFabric.Law.Containment
import CompilerFabric.Core.Checksum
import CompilerFabric.Law.BitRot
import CompilerFabric.Base.Crc
import CompilerFabric.Law.Castagnoli
import CompilerFabric.Law.Lineage
import CompilerFabric.Ipc.Framing
import CompilerFabric.Law.Framing
import CompilerFabric.Law.Reservation
import CompilerFabric.Core.Supervisor
import CompilerFabric.Law.Orphans
import CompilerFabric.Base.Writes
import CompilerFabric.Runtime.Staging
import CompilerFabric.Law.Staging
import CompilerFabric.Runtime.Counters
import CompilerFabric.Law.Monotone
import CompilerFabric.Law.Accounting
import CompilerFabric.Law.Settled
import CompilerFabric.Law.Conclusion
import CompilerFabric.Law.Derivation
import CompilerFabric.Law.Descent
import CompilerFabric.Base.Order
import CompilerFabric.Core.Kahn
import CompilerFabric.Law.Plan
import CompilerFabric.Base.Argv
import CompilerFabric.Core.Folding
import CompilerFabric.Law.CommandLine
import CompilerFabric.Law.Options
import CompilerFabric.Law.Interning
import CompilerFabric.Law.Drift
import CompilerFabric.Base.Collapse
import CompilerFabric.Core.Normal
import CompilerFabric.Core.Spelling
import CompilerFabric.Core.Rooted
import CompilerFabric.Law.Canonicalization
import CompilerFabric.Law.EnvironmentIdentity
import CompilerFabric.Law.Keyed
import CompilerFabric.Law.Drivers
import CompilerFabric.Law.Rounds
import CompilerFabric.Base.Closure
import CompilerFabric.Law.Ancestors
import CompilerFabric.Ipc.References
import CompilerFabric.Base.Window
import CompilerFabric.Ipc.Replay
import CompilerFabric.Core.Coff
import CompilerFabric.Law.Inspection
import CompilerFabric.Core.Diagnostics
import CompilerFabric.Law.Normalization
import CompilerFabric.Core.ProcessEnvironment
import CompilerFabric.Law.ChildEnvironment
import CompilerFabric.Runtime.Capture
import CompilerFabric.Base.Sha256
import CompilerFabric.Law.Streaming
import CompilerFabric.Law.Causes
import CompilerFabric.Law.Ceilings
import CompilerFabric.Law.Confinement
import CompilerFabric.Core.Declared
import CompilerFabric.Ipc.Rows
import CompilerFabric.Law.Enumerations
import CompilerFabric.Law.Superseded
import CompilerFabric.Law.Authority
import CompilerFabric.Law.Authored
import CompilerFabric.Runtime.Msvc
import CompilerFabric.Law.Unproduced
import CompilerFabric.Base.Findings
import CompilerFabric.Runtime.Audit
import CompilerFabric.Law.Audited
import CompilerFabric.Law.Lawful
import CompilerFabric.Law.Upheld
import CompilerFabric.Law.Current
import CompilerFabric.Base.Faithful
import CompilerFabric.Law.Refused
import CompilerFabric.Ipc.Executor
import CompilerFabric.Law.Remote
import CompilerFabric.Law.Renamed
import CompilerFabric.Runtime.MsvcPlan
import CompilerFabric.Law.Units
import CompilerFabric.Law.Gathered
import CompilerFabric.Ipc.Coordinator
import CompilerFabric.Law.Coordinated
import CompilerFabric.Law.Answered
