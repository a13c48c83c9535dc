import Kstrl.Base.CrashProg
import Kstrl.Base.Json
import Kstrl.Base.JsonText
import Kstrl.Base.JsonLayout
import Kstrl.Base.JsonPrefix
import Kstrl.Base.JsonLimits
import Kstrl.Base.IsoTime
import Kstrl.Base.PyText
import Kstrl.Base.PyCodec
import Kstrl.Base.Runs
import Kstrl.Base.SortedSet
import Kstrl.Base.LatestLog
import Kstrl.Base.Rounding
import Kstrl.Base.Binary64
import Kstrl.Base.Rows
import Kstrl.Base.Worklist
import Kstrl.Base.WorkerPool
import Kstrl.Base.Kahn
import Kstrl.Base.TornLines
import Kstrl.Base.Toml
import Kstrl.Base.TextLines
import Kstrl.Io.Append
import Kstrl.Io.TextRows
import Kstrl.Queue.Items
import Kstrl.Queue.Store
import Kstrl.Queue.WorkQueue
import Kstrl.Queue.Spec
import Kstrl.Queue.Operations
import Kstrl.Queue.Invariant
import Kstrl.Queue.Descent
import Kstrl.Plan.Manifest
import Kstrl.Plan.ManifestKeys
import Kstrl.Plan.ManifestFile
import Kstrl.Plan.ManifestGraph
import Kstrl.Pipeline.Restarts
import Kstrl.Pipeline.MergeGate
import Kstrl.Pipeline.RetryContext
import Kstrl.Pipeline.Attempts
import Kstrl.Pipeline.ContextRuns
import Kstrl.Acceptance.Contract
import Kstrl.Serve.Outcome
import Kstrl.Serve.Cycle
import Kstrl.Serve.Books
import Kstrl.Serve.Processes
import Kstrl.Serve.Recovery
import Kstrl.Serve.Escalation
import Kstrl.Owner.Inbox
import Kstrl.Owner.Dedupe
import Kstrl.Owner.Decisions
import Kstrl.Owner.InboxGate
import Kstrl.Owner.Approvals
import Kstrl.Queue.Journal
import Kstrl.Serve.Spend
import Kstrl.Serve.CiState
import Kstrl.Serve.Signals
import Kstrl.Serve.SignalPolls
import Kstrl.Events.Reducer
import Kstrl.Events.Books
import Kstrl.Events.Catalog
import Kstrl.Events.Decode
import Kstrl.Events.Usage
import Kstrl.Verify.Secrets
import Kstrl.Verify.FailureSignatures
import Kstrl.Verify.Baseline
import Kstrl.Factory.Scheduling
import Kstrl.Plan.Prd
import Kstrl.Plan.Requirements
import Kstrl.Review.Review
import Kstrl.Review.Security
import Kstrl.Architect.Decisions
import Kstrl.Architect.SpecIssues
import Kstrl.Architect.SpecConvergence
import Kstrl.Architect.DecomposeReply
import Kstrl.Architect.Register
import Kstrl.Architect.DecomposePlan
import Kstrl.Project.Stack
import Kstrl.Project.StackToml
import Kstrl.Project.StackConfirmation
import Kstrl.Factory.PlanGate
import Kstrl.Learning.Ladder
import Kstrl.Learning.Transitions
import Kstrl.Learning.Violations
import Kstrl.Base.Keyed
import Kstrl.Acceptance.Plan
import Kstrl.Acceptance.Replay
import Kstrl.Acceptance.BaseReading
import Kstrl.Acceptance.Dispute
import Kstrl.Acceptance.HeadRecord
import Kstrl.Acceptance.Lines
import Kstrl.Acceptance.Head
import Kstrl.Acceptance.PlanFiles
import Kstrl.Acceptance.Carried
import Kstrl.Acceptance.HeldOut
import Kstrl.Acceptance.Recheck
import Kstrl.Loop.LoopBudget
import Kstrl.Loop.Loop
import Kstrl.Base.CrashRuns
import Kstrl.Base.Cursor
import Kstrl.Queue.Adding
import Kstrl.Serve.Intake
import Kstrl.Serve.Steering
import Kstrl.Serve.SteeringRuns
import Kstrl.Serve.SteeringEffects
import Kstrl.Serve.IssueIntake
import Kstrl.Serve.IntakeSync
import Kstrl.Acceptance.Isolation
import Kstrl.Base.PyCells
import Kstrl.Proc.Listing
import Kstrl.Base.Markers
import Kstrl.Loop.Breaker
import Kstrl.Base.JsonScan
import Kstrl.Agents.AgentOutput
import Kstrl.Base.PyStrip
import Kstrl.Knowledge.Facts
import Kstrl.Knowledge.FactStore
import Kstrl.Knowledge.Context
import Kstrl.Knowledge.PrefixClaims
import Kstrl.Knowledge.Utilization
import Kstrl.Base.Search
import Kstrl.Plan.Cascade
import Kstrl.Plan.Names
import Kstrl.Verify.AddedLines
import Kstrl.Verify.Globs
import Kstrl.Plan.Tamper
import Kstrl.Queue.Answering
import Kstrl.Verify.Scope
import Kstrl.Review.Divergence
import Kstrl.Io.LinkTree
import Kstrl.Project.ScaffoldLedger
import Kstrl.Learning.Health
import Kstrl.Events.Stamps
import Kstrl.Serve.Backoff
import Kstrl.Serve.OwnedRuns
import Kstrl.Serve.Pause
import Kstrl.Factory.Rounds
import Kstrl.Factory.RunLists
import Kstrl.Factory.LaunchBound
import Kstrl.Factory.RunEnds
import Kstrl.Factory.Stranded
import Kstrl.Factory.Resume
import Kstrl.Learning.Experiments
import Kstrl.Learning.Replay
