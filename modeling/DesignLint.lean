import DesignLint.Number.Binary64
import DesignLint.Number.Decimal
import DesignLint.Text.CodePoints
import DesignLint.Text.Unicode
import DesignLint.Number.Basic
import DesignLint.Text.Surrogate
import DesignLint.Text.Quoted
import DesignLint.Text.Wildcard
import DesignLint.Digest.Sha256
import DesignLint.Json.Basic
import DesignLint.Json.Printer
import DesignLint.Json.Reader
import DesignLint.Syntax.Basic
import DesignLint.Syntax.Tree
import DesignLint.Syntax.Occurrence
import DesignLint.Syntax.Decode
import DesignLint.Syntax.SourceText
import DesignLint.Cohesion.Block
import DesignLint.Cohesion.OpenUnits
import DesignLint.Cohesion.Credit
import DesignLint.Cohesion.Component
import DesignLint.Cohesion.Analysis
import DesignLint.Schema.Basic
import DesignLint.Schema.Validation
import DesignLint.Finding.Basic
import DesignLint.Rule.Basic
import DesignLint.Check.BooleanParameters
import DesignLint.Check.Cohesion
import DesignLint.Check.Conditions
import DesignLint.Check.FanOut
import DesignLint.Check.Imports
import DesignLint.Check.LateUsage
import DesignLint.Check.Literals
import DesignLint.Check.Naming
import DesignLint.Check.Nesting
import DesignLint.Check.Parameters
import DesignLint.Config.Level
import DesignLint.Config.Preset
import DesignLint.Rule.Options
import DesignLint.Config.Error
import DesignLint.Config.Resolution
import DesignLint.Scan.Source
import DesignLint.Schema.RunResult
import DesignLint.Schema.Bundle
import DesignLint.Files.Path
import DesignLint.Report.Canonical
import DesignLint.Report.Value
import DesignLint.Text.Utf8
import DesignLint.Result.Verdict
import DesignLint.Report.Export
import DesignLint.Config.Setting
import DesignLint.Config.Listing
import DesignLint.Scan.Configuration
import DesignLint.Files.Glob
import DesignLint.Files.Output
import DesignLint.Number.Numeral
import DesignLint.Scan.Checker
import DesignLint.Config.Document
import DesignLint.Scan.Discovery
import DesignLint.Scan.Project
import DesignLint.CommandLine.Arguments
import DesignLint.CommandLine.Command
import DesignLint.CommandLine.Run
import DesignLint.Service.Address
import DesignLint.Service.Answer
import DesignLint.Cohesion.History
import DesignLint.Report.Record
import DesignLint.Result.Stamp
import DesignLint.Files.Content
import DesignLint.Main
import DesignLint.Proofs.Syntax.Grammar
import DesignLint.Proofs.Syntax.Place
import DesignLint.Proofs.Cohesion.Enclosure
import DesignLint.Proofs.Cohesion.Attribution
import DesignLint.Proofs.Cohesion.NameSet
import DesignLint.Proofs.Cohesion.OpenUnit
import DesignLint.Proofs.Cohesion.NameCredit
import DesignLint.Proofs.Cohesion.MemberCredit
import DesignLint.Proofs.Cohesion.BlockFrames
import DesignLint.Proofs.Cohesion.Traversal
import DesignLint.Proofs.Cohesion.FunctionUnits
import DesignLint.Proofs.Cohesion.ClassUnits
import DesignLint.Proofs.Cohesion.Sharing
import DesignLint.Proofs.Cohesion.Connectivity
import DesignLint.Proofs.Number.Order
import DesignLint.Proofs.Cohesion.Threshold
import DesignLint.Proofs.Config.Layering
import DesignLint.Proofs.Syntax.Moved
import DesignLint.Proofs.Syntax.MovedText
import DesignLint.Proofs.Check.Moved
import DesignLint.Proofs.Check.MovedCalls
import DesignLint.Proofs.Check.MovedCohesion
import DesignLint.Proofs.Check.Placed
import DesignLint.Proofs.Syntax.Reached
import DesignLint.Proofs.Syntax.Lines
import DesignLint.Proofs.Check.Lines
import DesignLint.Proofs.Rule.Moved
import DesignLint.Proofs.Number.Decimal
import DesignLint.Proofs.Json.Numbers
import DesignLint.Proofs.Json.RoundTrip
import DesignLint.Proofs.Json.Faithful
import DesignLint.Proofs.Schema.Acceptance
import DesignLint.Proofs.Result.Document
import DesignLint.Proofs.Result.Totals
import DesignLint.Proofs.Result.Verdict
import DesignLint.Proofs.Cohesion.Average
import DesignLint.Proofs.Finding.Fingerprint
import DesignLint.Proofs.Rule.Fitting
import DesignLint.Proofs.Scan.Validity
import DesignLint.Proofs.Finding.Order
import DesignLint.Proofs.Rule.Numbering
import DesignLint.Proofs.Scan.Order
import DesignLint.Proofs.Scan.Origin
import DesignLint.Proofs.Scan.Loading
import DesignLint.Proofs.Scan.Configured
import DesignLint.Proofs.CommandLine.Scanning
import DesignLint.Proofs.Syntax.Edited
import DesignLint.Proofs.Syntax.Renamed
import DesignLint.Proofs.Cohesion.Renamed
import DesignLint.Proofs.Files.Lookup
import DesignLint.Proofs.Files.Selection
import DesignLint.Proofs.Scan.Discovery
import DesignLint.Proofs.Scan.Rooted
import DesignLint.Proofs.Scan.Copies
import DesignLint.Proofs.Scan.SingleFile
import DesignLint.Proofs.Scan.Accounted
import DesignLint.Proofs.Cohesion.Sides
import DesignLint.Proofs.Cohesion.Innermost
import DesignLint.Proofs.Cohesion.Marks
import DesignLint.Proofs.Cohesion.MarkedPlaces
import DesignLint.Proofs.Cohesion.Discipline
import DesignLint.Proofs.Cohesion.Reachable
import DesignLint.Proofs.Config.Fields
import DesignLint.Proofs.Config.Telling
import DesignLint.Proofs.Config.Resolution
import DesignLint.Proofs.CommandLine.Ending
import DesignLint.Proofs.CommandLine.Agreement
import DesignLint.Proofs.Rule.Failure
import DesignLint.Proofs.Scan.Refusal
import DesignLint.Proofs.Schema.Agreement
import DesignLint.Proofs.Service.Body
import DesignLint.Proofs.Service.Source
import DesignLint.Proofs.Number.Shortest
import DesignLint.Proofs.Json.Alike
import DesignLint.Proofs.Report.Canonical
import DesignLint.Proofs.Syntax.Recursion
import DesignLint.Proofs.Schema.PathOrder
import DesignLint.Proofs.Service.Confinement
import DesignLint.Proofs.Syntax.Targets
import DesignLint.Proofs.Cohesion.Bindings
import DesignLint.Proofs.Syntax.OwnScope
import DesignLint.Proofs.Check.LateReads
import DesignLint.Proofs.Check.OutsideCalls
import DesignLint.Proofs.Syntax.FunctionParts
import DesignLint.Proofs.Cohesion.FunctionScope
import DesignLint.Proofs.Check.LocalNames
import DesignLint.Proofs.Check.NestingDepth
import DesignLint.Proofs.Check.ConditionOperands
import DesignLint.Proofs.Cohesion.Variables
import DesignLint.Proofs.Check.ParameterReads
import DesignLint.Proofs.Check.TruthfulPairs
import DesignLint.Proofs.Check.ImportedModules
import DesignLint.Proofs.Check.GivenNames
import DesignLint.Proofs.Check.IndexNumbers
import DesignLint.Proofs.Check.OwnDefaults
import DesignLint.Proofs.Files.Components
import DesignLint.Proofs.Scan.Outside
import DesignLint.Proofs.Scan.Exactness
import DesignLint.Proofs.Config.Spellings
import DesignLint.Proofs.CommandLine.Dispatch
import DesignLint.Proofs.Report.Sections
