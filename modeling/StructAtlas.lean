import StructAtlas.Body
import StructAtlas.Calendar
import StructAtlas.Charset.Catalog
import StructAtlas.Charset.Decode
import StructAtlas.Charset.Fault
import StructAtlas.Charset.SingleByte
import StructAtlas.Charset.Utf16
import StructAtlas.Charset.Utf8
import StructAtlas.CommandLine
import StructAtlas.Comment
import StructAtlas.Decimal.Binary
import StructAtlas.Decimal.Number
import StructAtlas.Decimal.Real
import StructAtlas.Decimal.Shortest
import StructAtlas.Declaration.Candidate
import StructAtlas.Declaration.Rule
import StructAtlas.Declaration.Shape
import StructAtlas.Failure
import StructAtlas.Field
import StructAtlas.FileTree
import StructAtlas.Generation
import StructAtlas.JavaClass
import StructAtlas.JavaType
import StructAtlas.Journal
import StructAtlas.Json.Escape
import StructAtlas.Json.Reader
import StructAtlas.Json.Writer
import StructAtlas.LineIndex
import StructAtlas.Location
import StructAtlas.Log
import StructAtlas.Logging
import StructAtlas.Main
import StructAtlas.Markup.Atom
import StructAtlas.Markup.Cursor
import StructAtlas.Markup.Document
import StructAtlas.Markup.Lexer
import StructAtlas.Markup.Node
import StructAtlas.Markup.Scalar
import StructAtlas.Markup.SlotTable
import StructAtlas.Markup.Tag
import StructAtlas.Markup.Timestamp
import StructAtlas.Markup.Token
import StructAtlas.Name
import StructAtlas.Naming
import StructAtlas.Path
import StructAtlas.Path.Glob
import StructAtlas.Path.Template
import StructAtlas.Problem
import StructAtlas.Program
import StructAtlas.Proofs.AccessorNames
import StructAtlas.Proofs.BodyGrammar
import StructAtlas.Proofs.BodySearch
import StructAtlas.Proofs.BraceGroups
import StructAtlas.Proofs.Braces
import StructAtlas.Proofs.BuiltRegistry
import StructAtlas.Proofs.Candidates
import StructAtlas.Proofs.ClassOutline
import StructAtlas.Proofs.CommentPattern
import StructAtlas.Proofs.ConsoleLoss
import StructAtlas.Proofs.DeclarationGrammar
import StructAtlas.Proofs.DeclarationPattern
import StructAtlas.Proofs.DeclarationSearch
import StructAtlas.Proofs.FieldGrammar
import StructAtlas.Proofs.FieldPattern
import StructAtlas.Proofs.FieldText
import StructAtlas.Proofs.FileScans
import StructAtlas.Proofs.FileShapes
import StructAtlas.Proofs.FreshNames
import StructAtlas.Proofs.GenerationLedger
import StructAtlas.Proofs.GlobMatching
import StructAtlas.Proofs.ImportReading
import StructAtlas.Proofs.ImportedTypes
import StructAtlas.Proofs.JavaFileNames
import StructAtlas.Proofs.JavaTokens
import StructAtlas.Proofs.JsonText
import StructAtlas.Proofs.KeptFiles
import StructAtlas.Proofs.KeywordTokens
import StructAtlas.Proofs.LineDrift
import StructAtlas.Proofs.Lines
import StructAtlas.Proofs.LogOutlets
import StructAtlas.Proofs.Lookups
import StructAtlas.Proofs.NestedGroups
import StructAtlas.Proofs.NormalForms
import StructAtlas.Proofs.NullCharacters
import StructAtlas.Proofs.Numerals
import StructAtlas.Proofs.Operations
import StructAtlas.Proofs.Patterns
import StructAtlas.Proofs.PlaceTexts
import StructAtlas.Proofs.PlanGroups
import StructAtlas.Proofs.Planning
import StructAtlas.Proofs.PrintedFile
import StructAtlas.Proofs.ProperTrees
import StructAtlas.Proofs.QuickTest
import StructAtlas.Proofs.QuietReading
import StructAtlas.Proofs.Ranking
import StructAtlas.Proofs.RegistryGrowth
import StructAtlas.Proofs.ReportFaults
import StructAtlas.Proofs.ReportFile
import StructAtlas.Proofs.Rescans
import StructAtlas.Proofs.Runs
import StructAtlas.Proofs.ScanIsolation
import StructAtlas.Proofs.ScanRun
import StructAtlas.Proofs.SearchOutcomes
import StructAtlas.Proofs.Selection
import StructAtlas.Proofs.SessionTrace
import StructAtlas.Proofs.SettingChecks
import StructAtlas.Proofs.SettingTypes
import StructAtlas.Proofs.ShapeChoice
import StructAtlas.Proofs.ShowableNotes
import StructAtlas.Proofs.SingleFile
import StructAtlas.Proofs.SourceDecoding
import StructAtlas.Proofs.SourceDiscovery
import StructAtlas.Proofs.SourceLines
import StructAtlas.Proofs.SourceSearch
import StructAtlas.Proofs.SourceTrees
import StructAtlas.Proofs.StrictUtf8
import StructAtlas.Proofs.StructFates
import StructAtlas.Proofs.StructText
import StructAtlas.Proofs.TypeSpelling
import StructAtlas.Proofs.UnitGroups
import StructAtlas.Proofs.UsageGrammar
import StructAtlas.Proofs.UsagePattern
import StructAtlas.Proofs.UsageSearch
import StructAtlas.Proofs.Utf8
import StructAtlas.Proofs.ValidatedScans
import StructAtlas.Registry
import StructAtlas.Registry.Export
import StructAtlas.Registry.Import
import StructAtlas.Registry.Ranking
import StructAtlas.Report
import StructAtlas.Scan
import StructAtlas.Session
import StructAtlas.Settings
import StructAtlas.Source
import StructAtlas.Text.Base64
import StructAtlas.Text.Blank
import StructAtlas.Text.Cased
import StructAtlas.Text.Digit
import StructAtlas.Text.Lowercase
import StructAtlas.Text.Printable
import StructAtlas.Text.Quoted
import StructAtlas.Text.Ranges
import StructAtlas.Text.Split
import StructAtlas.Text.Uppercase
import StructAtlas.Text.Wide
import StructAtlas.Text.Word
import StructAtlas.Usage
import StructAtlas.Value
