import TestWriter.Build.Assembly
import TestWriter.Build.Basic
import TestWriter.Build.Call
import TestWriter.Build.Draft
import TestWriter.Build.Imports
import TestWriter.Build.Table
import TestWriter.Build.Test
import TestWriter.CommandLine.Arguments
import TestWriter.CommandLine.Directory
import TestWriter.CommandLine.Session
import TestWriter.Config
import TestWriter.Config.Encoding
import TestWriter.Decimal.Binary
import TestWriter.Decimal.Reading
import TestWriter.Decimal.Scaled
import TestWriter.Decimal.Shortest
import TestWriter.Decimal.Text
import TestWriter.Error
import TestWriter.Evidence.Encoding
import TestWriter.Evidence.Execution
import TestWriter.Evidence.Groups
import TestWriter.Evidence.Type
import TestWriter.Evidence.Value
import TestWriter.ExportSection
import TestWriter.Generation
import TestWriter.Generator
import TestWriter.Helper
import TestWriter.HelperClass
import TestWriter.Json.Basic
import TestWriter.Json.Fields
import TestWriter.Json.Number
import TestWriter.Json.Reader
import TestWriter.Json.Writer
import TestWriter.Language
import TestWriter.Layout
import TestWriter.Main
import TestWriter.Names
import TestWriter.OrderedMap
import TestWriter.Proofs.BoundNames
import TestWriter.Proofs.BuiltCode
import TestWriter.Proofs.BuiltForms
import TestWriter.Proofs.CallCounts
import TestWriter.Proofs.Captures
import TestWriter.Proofs.CharLiterals
import TestWriter.Proofs.Checks
import TestWriter.Proofs.ClusterRegions
import TestWriter.Proofs.CodePieces
import TestWriter.Proofs.CommentRules
import TestWriter.Proofs.CommentText
import TestWriter.Proofs.Contributions
import TestWriter.Proofs.CountAdditions
import TestWriter.Proofs.Counts
import TestWriter.Proofs.DecimalTexts
import TestWriter.Proofs.Description
import TestWriter.Proofs.Docstrings
import TestWriter.Proofs.Enclosure
import TestWriter.Proofs.ErrorAccounting
import TestWriter.Proofs.EvidenceRoundTrip
import TestWriter.Proofs.ExportRounds
import TestWriter.Proofs.ExportSections
import TestWriter.Proofs.Expressible
import TestWriter.Proofs.FileHeads
import TestWriter.Proofs.FilledSuites
import TestWriter.Proofs.FreshNames
import TestWriter.Proofs.GoPieces
import TestWriter.Proofs.GoReferences
import TestWriter.Proofs.GoRefusals
import TestWriter.Proofs.GroupRanges
import TestWriter.Proofs.Groups
import TestWriter.Proofs.Hands
import TestWriter.Proofs.HelperClosure
import TestWriter.Proofs.HelperExactness
import TestWriter.Proofs.HelperIncrements
import TestWriter.Proofs.ImportCoverage
import TestWriter.Proofs.ImportOptimization
import TestWriter.Proofs.InStep
import TestWriter.Proofs.Indentation
import TestWriter.Proofs.Inversion
import TestWriter.Proofs.Isolation
import TestWriter.Proofs.JsonTexts
import TestWriter.Proofs.JvmPieces
import TestWriter.Proofs.LevelFiles
import TestWriter.Proofs.Literals
import TestWriter.Proofs.LocalNames
import TestWriter.Proofs.Locality
import TestWriter.Proofs.MethodNames
import TestWriter.Proofs.MethodOrder
import TestWriter.Proofs.MockUse
import TestWriter.Proofs.Modes
import TestWriter.Proofs.NameAgreement
import TestWriter.Proofs.NameClashes
import TestWriter.Proofs.NameSearch
import TestWriter.Proofs.NamedClasses
import TestWriter.Proofs.NeededImports
import TestWriter.Proofs.Obstacle
import TestWriter.Proofs.Origins
import TestWriter.Proofs.Pieces
import TestWriter.Proofs.PlainEvidence
import TestWriter.Proofs.PrintedNames
import TestWriter.Proofs.PytestRows
import TestWriter.Proofs.PythonSuites
import TestWriter.Proofs.Rebuilding
import TestWriter.Proofs.Recording
import TestWriter.Proofs.Recovery
import TestWriter.Proofs.Regions
import TestWriter.Proofs.Remarks
import TestWriter.Proofs.ReportAgreement
import TestWriter.Proofs.Rounding
import TestWriter.Proofs.Scope
import TestWriter.Proofs.ScriptNumbers
import TestWriter.Proofs.ScriptPieces
import TestWriter.Proofs.ShortNames
import TestWriter.Proofs.ShortestDecimals
import TestWriter.Proofs.ShownLiterals
import TestWriter.Proofs.ShownNames
import TestWriter.Proofs.SkippedTests
import TestWriter.Proofs.StaticMocks
import TestWriter.Proofs.Steps
import TestWriter.Proofs.Successes
import TestWriter.Proofs.SuiteReading
import TestWriter.Proofs.TableParts
import TestWriter.Proofs.TableRows
import TestWriter.Proofs.TestDiscovery
import TestWriter.Proofs.ThinnedJson
import TestWriter.Proofs.Tidy
import TestWriter.Proofs.Tolerances
import TestWriter.Proofs.Warnings
import TestWriter.Proofs.WellScoped
import TestWriter.Proofs.WrittenFiles
import TestWriter.Proofs.WrittenForms
import TestWriter.Proofs.WrittenLanguages
import TestWriter.Report
import TestWriter.Report.Encoding
import TestWriter.Suite.Code
import TestWriter.Suite.File
import TestWriter.Suite.Memory
import TestWriter.Suite.Mention
import TestWriter.Suite.Trace
import TestWriter.Target.Annotations
import TestWriter.Target.Dialect
import TestWriter.Target.Go
import TestWriter.Target.Java
import TestWriter.Target.JavaHelpers
import TestWriter.Target.JavaScript
import TestWriter.Target.Kotlin
import TestWriter.Target.KotlinHelpers
import TestWriter.Target.Methods
import TestWriter.Target.Python
import TestWriter.Target.PythonHelpers
import TestWriter.Target.Render
import TestWriter.Target.Settings
import TestWriter.Text.AlphanumericTable
import TestWriter.Text.Blank
import TestWriter.Text.Case
import TestWriter.Text.CaseTable
import TestWriter.Text.Lines
import TestWriter.Text.Quoted
import TestWriter.Text.Run
