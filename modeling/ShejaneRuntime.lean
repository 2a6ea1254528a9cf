import ShejaneRuntime.Lib.Table
import ShejaneRuntime.Lib.Txn
import ShejaneRuntime.Lib.Trace
import ShejaneRuntime.Lib.Transition
import ShejaneRuntime.Lib.Positions
import ShejaneRuntime.Store.Codec
import ShejaneRuntime.Store.Schema
import ShejaneRuntime.Store.Session
import ShejaneRuntime.Store.Workspaces
import ShejaneRuntime.Store.Journal
import ShejaneRuntime.Store.ToolReceipts
import ShejaneRuntime.Store.RunControl
import ShejaneRuntime.Store.Waits
import ShejaneRuntime.Store.RunJobs
import ShejaneRuntime.Store.WaitCommands
import ShejaneRuntime.Store.RunCommands
import ShejaneRuntime.Store.Children
import ShejaneRuntime.Store.ModelCalls
import ShejaneRuntime.Store.Threads
import ShejaneRuntime.Store.AgentMessages
import ShejaneRuntime.Store.Operations
import ShejaneRuntime.Store.Footprint
import ShejaneRuntime.Store.Writes
import ShejaneRuntime.Store.Frames
import ShejaneRuntime.Lockstep.Machine
import ShejaneRuntime.Lockstep.Refinement
import ShejaneRuntime.Lockstep.Reachable
import ShejaneRuntime.Coordinator.Resumption
import ShejaneRuntime.Collaboration.Admission
import ShejaneRuntime.Journal.Turns
import ShejaneRuntime.Journal.Growth
import ShejaneRuntime.Journal.Projection
import ShejaneRuntime.Journal.Gapless
import ShejaneRuntime.Journal.Positions
import ShejaneRuntime.Coordinator.Conversations
import ShejaneRuntime.Waiting.Closure
import ShejaneRuntime.Waiting.Endings
import ShejaneRuntime.Waiting.TerminalClosure
import ShejaneRuntime.Lib.Paging
import ShejaneRuntime.Store.Snapshots
import ShejaneRuntime.Snapshot.CatchUp
import ShejaneRuntime.Collaboration.Families
import ShejaneRuntime.Lib.Waiters
import ShejaneRuntime.Agent.ReceiptForest
import ShejaneRuntime.Agent.ToolExecutionGate
import ShejaneRuntime.Scheduling.Schedules
import ShejaneRuntime.Scheduling.Dispatcher
import ShejaneRuntime.Scheduling.Agreement
import ShejaneRuntime.Scheduling.Outcomes
import ShejaneRuntime.Agent.ModelLedger
import ShejaneRuntime.Agent.CallAttempts
import ShejaneRuntime.Agent.ModelRetries
import ShejaneRuntime.Agent.LedgerSoundness
import ShejaneRuntime.Plugins.Packages
import ShejaneRuntime.Plugins.Installations
import ShejaneRuntime.Plugins.Consistency
import ShejaneRuntime.Plugins.Registry
import ShejaneRuntime.Plugins.Files
import ShejaneRuntime.Gateway.Protocol
import ShejaneRuntime.Gateway.Schema
import ShejaneRuntime.Gateway.TaskStore
import ShejaneRuntime.Gateway.Projection
import ShejaneRuntime.Gateway.PushStore
import ShejaneRuntime.Gateway.PushOutbox
import ShejaneRuntime.Gateway.PushCompleteness
import ShejaneRuntime.Gateway.Delivery
import ShejaneRuntime.Gateway.Convergence
import ShejaneRuntime.Artifacts.Bodies
import ShejaneRuntime.Artifacts.Collection
import ShejaneRuntime.Plugins.AssetLeases
import ShejaneRuntime.Plugins.AssetsPinned
import ShejaneRuntime.Lib.FileTree
import ShejaneRuntime.Worker.Broker
import ShejaneRuntime.Worker.Containment
import ShejaneRuntime.Mcp.Catalog
import ShejaneRuntime.Lib.Holdings
import ShejaneRuntime.Mcp.Leases
import ShejaneRuntime.Mcp.Tasks
import ShejaneRuntime.Mcp.Isolation
import ShejaneRuntime.Lib.Suffix
import ShejaneRuntime.Completion.Evidence
import ShejaneRuntime.Completion.Router
import ShejaneRuntime.Completion.PerRun
import ShejaneRuntime.Lib.Repair
import ShejaneRuntime.Migration.Legacy
import ShejaneRuntime.Migration.EventLog
import ShejaneRuntime.Migration.Reopening
import ShejaneRuntime.Lib.Utf8
import ShejaneRuntime.Lib.Lines
import ShejaneRuntime.Lib.Binary64
import ShejaneRuntime.Stream.JsonText
import ShejaneRuntime.Stream.JsonReading
import ShejaneRuntime.Stream.Transport
import ShejaneRuntime.Stream.RoundTrip
import ShejaneRuntime.Lib.Futures
import ShejaneRuntime.Collaboration.Summary
import ShejaneRuntime.Collaboration.Continuation
import ShejaneRuntime.Lib.CodePoints
import ShejaneRuntime.ToolResults.Values
import ShejaneRuntime.ToolResults.Codec
import ShejaneRuntime.ToolResults.RoundTrip
import ShejaneRuntime.ToolResults.Replay
import ShejaneRuntime.ToolResults.Messages
import ShejaneRuntime.Lib.TextCuts
import ShejaneRuntime.ToolResults.Bounding
import ShejaneRuntime.ToolResults.Sizes
import ShejaneRuntime.ToolResults.Bounds
import ShejaneRuntime.Lib.Redaction
import ShejaneRuntime.Outbound.Policy
import ShejaneRuntime.Outbound.Leaks
import ShejaneRuntime.Lib.Calls
import ShejaneRuntime.Lib.PathTree
import ShejaneRuntime.Lib.Disk
import ShejaneRuntime.Archives.Extract
import ShejaneRuntime.Archives.Inside
import ShejaneRuntime.Archives.Containment
import ShejaneRuntime.ToolAliases.Aliasing
import ShejaneRuntime.ToolAliases.Bijection
import ShejaneRuntime.Store.Lineage
import ShejaneRuntime.Lib.Chase
import ShejaneRuntime.Coordinator.GraphHead
import ShejaneRuntime.Journal.ResultCommit
import ShejaneRuntime.Artifacts.Quotas
import ShejaneRuntime.Lib.Latest
import ShejaneRuntime.Lib.OrderedMap
import ShejaneRuntime.Client.Presentation
import ShejaneRuntime.Client.Replays
import ShejaneRuntime.WebFetch.Addresses
import ShejaneRuntime.WebFetch.Fetch
import ShejaneRuntime.WebFetch.PublicOnly
import ShejaneRuntime.Lib.Search
import ShejaneRuntime.Context.Envelope
import ShejaneRuntime.Context.Cuts
import ShejaneRuntime.Context.Sizes
import ShejaneRuntime.Context.Sound
import ShejaneRuntime.Lib.Decimal
import ShejaneRuntime.Lib.Calendar
import ShejaneRuntime.Timestamps.Isoformat
import ShejaneRuntime.Timestamps.Columns
import ShejaneRuntime.Timestamps.Decisions
import ShejaneRuntime.Lib.Splice
import ShejaneRuntime.Answers.Citations
import ShejaneRuntime.Answers.Blocks
import ShejaneRuntime.Answers.Faithful
import ShejaneRuntime.Lib.Checks
import ShejaneRuntime.Plugins.Values
import ShejaneRuntime.Plugins.WorkerProtocol
import ShejaneRuntime.Plugins.WorkerBreaks
import ShejaneRuntime.Plugins.WorkerExchange
import ShejaneRuntime.Plugins.WorkerStrict
import ShejaneRuntime.Collaboration.Dependencies
import ShejaneRuntime.Store.Histories
