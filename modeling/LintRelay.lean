import LintRelay.Text.Blank
import LintRelay.Text.Quoted
import LintRelay.Path
import LintRelay.Glob.Matcher
import LintRelay.Log
import LintRelay.Analysis.Response
import LintRelay.Disk.Walk
import LintRelay.Project.Partition
import LintRelay.Settings
import LintRelay.Metrics
import LintRelay.Progress
import LintRelay.Report.Pretty
import LintRelay.Run.Session
import LintRelay.Bridge.Client
import LintRelay.Collection
import LintRelay.SettingsFile
import LintRelay.Main
import LintRelay.Proofs.Sequence
import LintRelay.Proofs.Glob.Meaning
import LintRelay.Proofs.Path
import LintRelay.Proofs.Glob.Segments
import LintRelay.Proofs.Text.Utf8
import LintRelay.Proofs.Text.Span
import LintRelay.Proofs.Json.Lexeme
import LintRelay.Proofs.Json.Reading
import LintRelay.Proofs.Json.Number
import LintRelay.Proofs.Json.Grammar
import LintRelay.Proofs.Json.Outcome
import LintRelay.Proofs.Json.Telling
import LintRelay.Proofs.Json.Written
import LintRelay.Proofs.Analysis.Tolerance
import LintRelay.Proofs.Analysis.Body
import LintRelay.Proofs.Disk.Tree
import LintRelay.Proofs.Disk.Files
import LintRelay.Proofs.Disk.Frame
import LintRelay.Proofs.Disk.Walk
import LintRelay.Proofs.Collection
import LintRelay.Proofs.Collection.Discovery
import LintRelay.Proofs.Engine.Calls
import LintRelay.Proofs.Engine.Projection
import LintRelay.Proofs.Project.Resolution
import LintRelay.Proofs.Path.Location
import LintRelay.Proofs.Path.Normal
import LintRelay.Proofs.Path.Reference
import LintRelay.Proofs.Project.Levels
import LintRelay.Proofs.Project.Termination
import LintRelay.Proofs.Project.Partition
import LintRelay.Proofs.Project.Assignment
import LintRelay.Proofs.Project.Pattern
import LintRelay.Proofs.Project.Spelling
import LintRelay.Proofs.Project.Faults
import LintRelay.Proofs.Project.Generated
import LintRelay.Proofs.Progress
import LintRelay.Proofs.Metrics
import LintRelay.Proofs.Metrics.History
import LintRelay.Proofs.Metrics.Persistence
import LintRelay.Proofs.Metrics.Restart
import LintRelay.Proofs.Run.Trace
import LintRelay.Proofs.Run.Tasks
import LintRelay.Proofs.Run.Step
import LintRelay.Proofs.Run.Phases
import LintRelay.Proofs.Run.Conversation
import LintRelay.Proofs.Run.Discipline
import LintRelay.Proofs.Run.Accounting
import LintRelay.Proofs.Run.Completion
import LintRelay.Proofs.Bridge.Forwarding
import LintRelay.Proofs.Bridge.Announcement
import LintRelay.Proofs.Bridge.Context
import LintRelay.Proofs.Bridge.Memory
import LintRelay.Proofs.Bridge.Identity
import LintRelay.Proofs.Run.Interruption
import LintRelay.Proofs.Run.Isolation
import LintRelay.Proofs.Run.Observation
import LintRelay.Proofs.Run.Hosting
import LintRelay.Proofs.Run.Records
import LintRelay.Proofs.Run.Unconfigured
import LintRelay.Proofs.Run.Unreadable
import LintRelay.Proofs.Run.Projection
import LintRelay.Proofs.Run.Lifetime
import LintRelay.Proofs.Run.Reporting
import LintRelay.Proofs.Report
import LintRelay.Proofs.RoundTrip
