import ToolchainChoice.Calendar.Date
import ToolchainChoice.Calendar.Moment
import ToolchainChoice.CommandLine.Grammar
import ToolchainChoice.CommandLine.Options
import ToolchainChoice.CommandLine.Reading
import ToolchainChoice.CommandLine.Run
import ToolchainChoice.CommandLine.Word
import ToolchainChoice.Config.File
import ToolchainChoice.Config.Settings
import ToolchainChoice.Decision.Advice
import ToolchainChoice.Decision.Code
import ToolchainChoice.Decision.State
import ToolchainChoice.Decision.Survey
import ToolchainChoice.Decision.Table
import ToolchainChoice.Decision.Template
import ToolchainChoice.Diagnostics.Advisor
import ToolchainChoice.Diagnostics.Archive
import ToolchainChoice.Diagnostics.Session
import ToolchainChoice.Diagnostics.Sink
import ToolchainChoice.Failure
import ToolchainChoice.Files.Disk
import ToolchainChoice.Files.Path
import ToolchainChoice.Files.Resolve
import ToolchainChoice.Files.Text
import ToolchainChoice.Files.Tree
import ToolchainChoice.Identification
import ToolchainChoice.Installation.Banner
import ToolchainChoice.Installation.Probe
import ToolchainChoice.Json.Basic
import ToolchainChoice.Json.Decode
import ToolchainChoice.Json.Encode
import ToolchainChoice.Log
import ToolchainChoice.Main
import ToolchainChoice.Number.Binary64
import ToolchainChoice.Number.Digits
import ToolchainChoice.Number.FloatText
import ToolchainChoice.Number.Hex
import ToolchainChoice.Number.Literal
import ToolchainChoice.Number.Power
import ToolchainChoice.Number.Shortest
import ToolchainChoice.Proofs.CommandLine.Output
import ToolchainChoice.Proofs.CommandLine.RangeSafety
import ToolchainChoice.Proofs.Decision.Action
import ToolchainChoice.Proofs.Decision.Classification
import ToolchainChoice.Proofs.Decision.Convergence
import ToolchainChoice.Proofs.Decision.Failures
import ToolchainChoice.Proofs.Decision.Resolution
import ToolchainChoice.Proofs.Range.Bounds
import ToolchainChoice.Proofs.Range.Membership
import ToolchainChoice.Proofs.Results
import ToolchainChoice.Proofs.Text.Digits
import ToolchainChoice.Proofs.Trace.Records
import ToolchainChoice.Proofs.Trace.Silence
import ToolchainChoice.Proofs.Version.Characters
import ToolchainChoice.Proofs.Version.DottedNumbers
import ToolchainChoice.Proofs.Version.Texts
import ToolchainChoice.Range
import ToolchainChoice.Report
import ToolchainChoice.Text.Base64
import ToolchainChoice.Text.Blank
import ToolchainChoice.Text.CodePoints
import ToolchainChoice.Text.Digit
import ToolchainChoice.Text.Printable
import ToolchainChoice.Text.Quoted
import ToolchainChoice.Text.Symbol
import ToolchainChoice.Text.Utf8
import ToolchainChoice.Text.Word
import ToolchainChoice.Trace
import ToolchainChoice.Value.Basic
import ToolchainChoice.Value.OfJson
import ToolchainChoice.Value.SetOrder
import ToolchainChoice.Value.Shown
import ToolchainChoice.Version.Basic
import ToolchainChoice.Version.Order
import ToolchainChoice.Version.Reading
import ToolchainChoice.Workspace.Directive
import ToolchainChoice.Workspace.Scan
import ToolchainChoice.Yaml.BlockScalar
import ToolchainChoice.Yaml.Character
import ToolchainChoice.Yaml.Composition
import ToolchainChoice.Yaml.Fault
import ToolchainChoice.Yaml.Meaning
import ToolchainChoice.Yaml.Merge
import ToolchainChoice.Yaml.Node
import ToolchainChoice.Yaml.PlainScalar
import ToolchainChoice.Yaml.Property
import ToolchainChoice.Yaml.QuotedScalar
import ToolchainChoice.Yaml.Scalar
import ToolchainChoice.Yaml.Scanner
import ToolchainChoice.Yaml.Source
import ToolchainChoice.Yaml.Tag
import ToolchainChoice.Yaml.Token
import ToolchainChoice.Proofs.Decision.Outcome
import ToolchainChoice.Proofs.Diagnostics.Session
import ToolchainChoice.Proofs.CommandLine.Agreement
import ToolchainChoice.Proofs.Workspace.Requirement
import ToolchainChoice.Proofs.Workspace.Manifests
import ToolchainChoice.Proofs.Identification.Refinement
import ToolchainChoice.Proofs.CommandLine.AllOrNothing
import ToolchainChoice.Proofs.Version.Preorder
import ToolchainChoice.Proofs.Decision.Equality
import ToolchainChoice.Proofs.Decision.Monotonicity
import ToolchainChoice.Proofs.Diagnostics.Archive
import ToolchainChoice.Proofs.Version.PaddedReleases
import ToolchainChoice.Proofs.Decision.Ascent
import ToolchainChoice.Proofs.Workspace.Directive
import ToolchainChoice.Proofs.Decision.Absence
import ToolchainChoice.Proofs.Workspace.Comment
import ToolchainChoice.Proofs.Installation.Extent
import ToolchainChoice.Proofs.Version.Release
import ToolchainChoice.Proofs.Installation.Release
import ToolchainChoice.Proofs.Decision.Message
import ToolchainChoice.Proofs.Json.Environment
import ToolchainChoice.Proofs.Config.Schema
import ToolchainChoice.Proofs.CommandLine.Failures
import ToolchainChoice.Proofs.Config.Overriding
import ToolchainChoice.Proofs.Diagnostics.Containment
import ToolchainChoice.Proofs.CommandLine.Verbosity
import ToolchainChoice.Proofs.Config.BoundFile
import ToolchainChoice.Proofs.Range.Partition
import ToolchainChoice.Proofs.Version.Spelling
