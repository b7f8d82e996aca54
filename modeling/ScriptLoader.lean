import ScriptLoader.Bundler.Basic
import ScriptLoader.Bundler.Engine
import ScriptLoader.Bundler.Script
import ScriptLoader.CommandLine.Check
import ScriptLoader.CommandLine.Command
import ScriptLoader.CommandLine.Flags
import ScriptLoader.CommandLine.Governing
import ScriptLoader.CommandLine.Program
import ScriptLoader.CommandLine.Session
import ScriptLoader.CommandLine.Suggestion
import ScriptLoader.Decimal.Basic
import ScriptLoader.Decimal.Fixed
import ScriptLoader.Decimal.Integer
import ScriptLoader.Decimal.Shortest
import ScriptLoader.Diagnostic.Basic
import ScriptLoader.Diagnostic.Format
import ScriptLoader.Diagnostic.Json
import ScriptLoader.Engine.Basic
import ScriptLoader.Engine.Script
import ScriptLoader.Fields
import ScriptLoader.FileTree
import ScriptLoader.Glob
import ScriptLoader.Graph.Basic
import ScriptLoader.Graph.Build
import ScriptLoader.Graph.Sort
import ScriptLoader.Hooks.Basic
import ScriptLoader.Hooks.Chain
import ScriptLoader.Hooks.Host
import ScriptLoader.Hooks.Loader
import ScriptLoader.Hooks.Payload
import ScriptLoader.Json.Access
import ScriptLoader.Json.Basic
import ScriptLoader.Json.Reader
import ScriptLoader.Json.Writer
import ScriptLoader.LoaderOptions
import ScriptLoader.Log
import ScriptLoader.Main
import ScriptLoader.MessagePack
import ScriptLoader.ModuleFormat
import ScriptLoader.Options.Basic
import ScriptLoader.Options.Kinds
import ScriptLoader.Options.Normalize
import ScriptLoader.Options.Reader
import ScriptLoader.Options.Sets
import ScriptLoader.Options.TransformText
import ScriptLoader.Options.Validate
import ScriptLoader.PackageFile
import ScriptLoader.Path
import ScriptLoader.Pipeline.Compile
import ScriptLoader.Pipeline.Problem
import ScriptLoader.Pipeline.Progress
import ScriptLoader.Pipeline.References
import ScriptLoader.Pipeline.SharedBuilds
import ScriptLoader.Profiling
import ScriptLoader.Progress.Board
import ScriptLoader.Progress.View
import ScriptLoader.Project.Config
import ScriptLoader.Project.Find
import ScriptLoader.Project.Members
import ScriptLoader.Project.RawConfig
import ScriptLoader.Proofs.Bundler.Failures
import ScriptLoader.Proofs.Bundler.ProjectFormat
import ScriptLoader.Proofs.ByteTexts
import ScriptLoader.Proofs.CleanPath
import ScriptLoader.Proofs.CommandLine.AcceptedFlags
import ScriptLoader.Proofs.CommandLine.GoverningTold
import ScriptLoader.Proofs.Decimal.Counting
import ScriptLoader.Proofs.Diagnostic.ShownPaths
import ScriptLoader.Proofs.Diagnostic.Underlines
import ScriptLoader.Proofs.Fields
import ScriptLoader.Proofs.FileNames
import ScriptLoader.Proofs.FileUrls
import ScriptLoader.Proofs.FollowedNames
import ScriptLoader.Proofs.FormedTrees
import ScriptLoader.Proofs.Glob.Literal
import ScriptLoader.Proofs.Graph.Built
import ScriptLoader.Proofs.Graph.Cycles
import ScriptLoader.Proofs.Graph.Layers
import ScriptLoader.Proofs.Graph.Levels
import ScriptLoader.Proofs.Graph.Numbering
import ScriptLoader.Proofs.Graph.Rearranged
import ScriptLoader.Proofs.Hooks.ClaimedImports
import ScriptLoader.Proofs.Hooks.DeliveredOptions
import ScriptLoader.Proofs.Hooks.Dispatch
import ScriptLoader.Proofs.Hooks.HostFormats
import ScriptLoader.Proofs.Hooks.SourceUrls
import ScriptLoader.Proofs.Json.Numbers
import ScriptLoader.Proofs.Json.Records
import ScriptLoader.Proofs.Json.WrittenValues
import ScriptLoader.Proofs.LinkFreePaths
import ScriptLoader.Proofs.Locations
import ScriptLoader.Proofs.Options.AccountedMembers
import ScriptLoader.Proofs.Options.Merged
import ScriptLoader.Proofs.Options.NormalForm
import ScriptLoader.Proofs.Options.ReadBack
import ScriptLoader.Proofs.Options.Rendered
import ScriptLoader.Proofs.Options.TransformTexts
import ScriptLoader.Proofs.Pipeline.Discovery
import ScriptLoader.Proofs.Pipeline.Hints
import ScriptLoader.Proofs.Pipeline.Outcome
import ScriptLoader.Proofs.Pipeline.ProgressTold
import ScriptLoader.Proofs.Pipeline.ReferenceBuilds
import ScriptLoader.Proofs.Pipeline.ReferenceGraph
import ScriptLoader.Proofs.Pipeline.ReferencesHeeded
import ScriptLoader.Proofs.Pipeline.ReportedFormat
import ScriptLoader.Proofs.Pipeline.SharedOutcomes
import ScriptLoader.Proofs.Pipeline.Stages
import ScriptLoader.Proofs.Pipeline.Unchecked
import ScriptLoader.Proofs.PlacedTrees
import ScriptLoader.Proofs.PlainTrees
import ScriptLoader.Proofs.Progress.Advancing
import ScriptLoader.Proofs.Progress.Outcomes
import ScriptLoader.Proofs.Project.AddedLinks
import ScriptLoader.Proofs.Project.CanonicalMembers
import ScriptLoader.Proofs.Project.CanonicalPaths
import ScriptLoader.Proofs.Project.Circularity
import ScriptLoader.Proofs.Project.Extending
import ScriptLoader.Proofs.Project.Inheritance
import ScriptLoader.Proofs.Project.LinkedWalks
import ScriptLoader.Proofs.Project.Nearest
import ScriptLoader.Proofs.Project.Parsed
import ScriptLoader.Proofs.Project.PlacedLayers
import ScriptLoader.Proofs.Project.PlacedMembers
import ScriptLoader.Proofs.Project.Relocation
import ScriptLoader.Proofs.Project.WalkedFiles
import ScriptLoader.Proofs.RelativePaths
import ScriptLoader.Proofs.Server.LocalPaths
import ScriptLoader.Proofs.Server.PathLabels
import ScriptLoader.Proofs.Server.ResolvedPaths
import ScriptLoader.Proofs.Server.Spellings
import ScriptLoader.Proofs.Settings.Precedence
import ScriptLoader.Proofs.ShortPaths
import ScriptLoader.Proofs.ShownText
import ScriptLoader.Proofs.Text.CellWidths
import ScriptLoader.Run
import ScriptLoader.Server.Address
import ScriptLoader.Server.Basic
import ScriptLoader.Server.LocalPath
import ScriptLoader.Server.Message
import ScriptLoader.Server.Metrics
import ScriptLoader.Server.Routing
import ScriptLoader.Settings.Basic
import ScriptLoader.Settings.DotEnv
import ScriptLoader.Settings.Report
import ScriptLoader.Snapshot
import ScriptLoader.SourceName
import ScriptLoader.Text.Basic
import ScriptLoader.Text.Blank
import ScriptLoader.Text.CaseFold
import ScriptLoader.Text.Cells
import ScriptLoader.Text.Grapheme
import ScriptLoader.Text.GraphemeRanges
import ScriptLoader.Text.LowerCase
import ScriptLoader.Text.Order
import ScriptLoader.Text.Printable
import ScriptLoader.Text.Quoted
import ScriptLoader.Text.Ranges
import ScriptLoader.Text.Style
import ScriptLoader.Text.Utf8
import ScriptLoader.Text.Width
import ScriptLoader.Timing
import ScriptLoader.Toml.Basic
import ScriptLoader.Toml.Calendar
import ScriptLoader.Toml.Document
import ScriptLoader.Toml.Number
import ScriptLoader.Toml.Reader
import ScriptLoader.Url.Basic
import ScriptLoader.Url.File
import ScriptLoader.Url.IpAddress
import ScriptLoader.Url.Percent
import ScriptLoader.Url.Query
import ScriptLoader.Version
