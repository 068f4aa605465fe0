import Devstack.Lib.Cursor
import Devstack.Lib.Faults
import Devstack.Lib.Files
import Devstack.Lib.Interleaving
import Devstack.Lib.Kahn
import Devstack.Lib.LineReader
import Devstack.Lib.Lines
import Devstack.Lib.LossyUtf8
import Devstack.Lib.Machine
import Devstack.Lib.PrintedOrder
import Devstack.Lib.Reservation
import Devstack.Lib.Splitting
import Devstack.Lib.TopN
import Devstack.Model
import Devstack.Stores
import Devstack.Config
import Devstack.Ports
import Devstack.Exclusivity
import Devstack.Readiness
import Devstack.Health
import Devstack.LogFmt
import Devstack.LogRegex
import Devstack.Ingest
import Devstack.IngestExact
import Devstack.IngestFaults
import Devstack.IngestPending
import Devstack.IngestRecovery
import Devstack.IngestRuns
import Devstack.TaskLogs
import Devstack.SourceNames
import Devstack.RunDeletion
import Devstack.Retention
import Devstack.SourceRemoval
import Devstack.SourceStates
import Devstack.SourceRegistry
import Devstack.LogPump
import Devstack.LogQuery
import Devstack.Following
import Devstack.AutoShare
import Devstack.FacetCache
import Devstack.SizeEviction
import Devstack.LogLine
import Devstack.LiveTail
import Devstack.TailedLines
import Devstack.FileFollow
import Devstack.RecentErrors
import Devstack.LogLevels
import Devstack.LogEncoding
import Devstack.Launch
import Devstack.AtomicWrite
import Devstack.InitTasks
import Devstack.Warmup
import Devstack.WatchHash
import Devstack.TaskHistory
import Devstack.Resources
import Devstack.Validate
import Devstack.Plans
import Devstack.Prepare
import Devstack.Launchable
import Devstack.EnvLayers
import Devstack.EnvVars
import Devstack.Watcher
import Devstack.Names
import Devstack.Atomicity
import Devstack.Gating
import Devstack.Status
import Devstack.Shim
import Devstack.ApiCapture
import Devstack.BodySnapshot
import Devstack.TaskStarts
import Devstack.LocalSystemd
import Devstack.SearchParser
import Devstack.SearchRoundTrip
import Devstack.SearchQuery
import Devstack.Undated
import Devstack.UnitTable
import Devstack.RestartUnit
import Devstack.Daemon.Collection
import Devstack.Daemon.Locked
import Devstack.Daemon.World
import Devstack.Completion
import Devstack.Restore
import Devstack.Globals
import Devstack.RestoredGlobals
import Devstack.Daemon.Tasks
import Devstack.Daemon.System
import Devstack.Daemon.Launches
import Devstack.Daemon.Orphans
import Devstack.Daemon.Stopping
import Devstack.Daemon.StatusReads
import Devstack.Daemon.Effects
import Devstack.Daemon.Successors
import Devstack.Daemon.Identity
import Devstack.Daemon.Aggregates
import Devstack.RestoredRuns
import Devstack.Daemon.ActiveRuns
import Devstack.Daemon.StoppedHandles
import Devstack.Timestamps
import Devstack.Daemon.Manifests
import Devstack.Daemon.RestartPolicy
import Devstack.Daemon.Handles
import Devstack.Daemon.Monitors
import Devstack.LogViews
import Devstack.Lib.Patterns
import Devstack.AnsiPattern
import Devstack.TemplateAliases
import Devstack.TailSubscriptions
import Devstack.Lib.AsciiWords
import Devstack.LevelDetection
import Devstack.SearchEdits
import Devstack.FilterActions
import Devstack.TrimmedSearch
import Devstack.TokenEdits
import Devstack.FacetToggle
import Devstack.Lib.Choice
import Devstack.Lib.Conveyor
import Devstack.AgentSessions
import Devstack.PtyProxy
import Devstack.Lib.Throttle
import Devstack.Notifications
import Devstack.Daemon.Pausing
import Devstack.Lib.MultiMap
import Devstack.CaptureProxy
import Devstack.EventStream
import Devstack.Lib.FormEncoding
import Devstack.QueryStrings
import Devstack.Daemon.Watchers
import Devstack.Lib.StampedRead
import Devstack.RecentErrorsCache
