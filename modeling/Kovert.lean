import Kovert.Foundations.Execution
import Kovert.Foundations.FirstWins
import Kovert.Matching
import Kovert.Validation
import Kovert.Engine
import Kovert.RuleStep
import Kovert.EngineStep
import Kovert.Runs
import Kovert.RateLimits
import Kovert.SequenceBounds
import Kovert.Sustain
import Kovert.SequenceProgress
import Kovert.Recovery
import Kovert.SequenceWindow
import Kovert.Conflicts
import Kovert.FailurePath
import Kovert.Requirements
import Kovert.FailClosed
import Kovert.ReloadProgress
import Kovert.AuditStore
import Kovert.AuditChain
import Kovert.AuditTamper
import Kovert.Foundations.Fallible
import Kovert.Actions
import Kovert.Runtime
import Kovert.Foundations.History
import Kovert.RuntimeStep
import Kovert.ActionLedger
import Kovert.PlanScript
import Kovert.StoreFailures
import Kovert.Attempts
import Kovert.Control
import Kovert.ModeRules
import Kovert.Modes
import Kovert.Restart
import Kovert.Foundations.TwoRuns
import Kovert.RuleIsolation
import Kovert.Foundations.StableSort
import Kovert.RuleLists
import Kovert.DisabledRules
import Kovert.FailureTriggers
import Kovert.Polling
import Kovert.Foundations.Replay
import Kovert.PollingStep
import Kovert.SnapshotViews
import Kovert.PollAgreement
import Kovert.PollHealth
import Kovert.PollFailures
import Kovert.SensorCoverage
import Kovert.ExecutorGuards
import Kovert.Foundations.SlidingWindow
import Kovert.Hotkeys
import Kovert.Logins
import Kovert.Foundations.Listings
import Kovert.Probing
import Kovert.ProbeOrder
import Kovert.UsbInventory
import Kovert.IntegrityHealth
import Kovert.FreshState
import Kovert.MarkedRules
import Kovert.NestedSequences
import Kovert.RecursiveWatches
import Kovert.TimeWindows
import Kovert.ConflictTargets
import Kovert.Foundations.EscapedFields
import Kovert.Foundations.Replacement
import Kovert.HostTexts
import Kovert.KeyNames
import Kovert.CommandBoundary
import Kovert.ControlClient
import Kovert.ControlLimits
import Kovert.SnapshotHistory
import Kovert.AuditHistory
import Kovert.ProcessLife
import Kovert.SensorTasks
import Kovert.Foundations.OrderedMap
import Kovert.HostProbes
import Kovert.PollTask
import Kovert.RankIsolation
import Kovert.SustainProgress
import Kovert.EngineHistory
import Kovert.LifeLimits
import Kovert.PlainRules
import Kovert.UnchangedReloads
import Kovert.RecoveryLife
