import SqlTemplate.Binding.BoundSql
import SqlTemplate.Binding.Mapping
import SqlTemplate.Catalog.Basic
import SqlTemplate.Catalog.Inclusion
import SqlTemplate.Catalog.Loading
import SqlTemplate.Catalog.Registration
import SqlTemplate.Catalog.Variants
import SqlTemplate.CommandLine.Arguments
import SqlTemplate.CommandLine.Report
import SqlTemplate.CommandLine.Run
import SqlTemplate.Decimal.Reading
import SqlTemplate.Decimal.Remainder
import SqlTemplate.Decimal.Shortest
import SqlTemplate.Entries
import SqlTemplate.Expr.Basic
import SqlTemplate.Expr.Cache
import SqlTemplate.Expr.Evaluation
import SqlTemplate.Expr.Operation
import SqlTemplate.Expr.Reader
import SqlTemplate.Expr.Token
import SqlTemplate.Failure
import SqlTemplate.Files.Basic
import SqlTemplate.Files.Location
import SqlTemplate.Files.Tree
import SqlTemplate.Json.Reader
import SqlTemplate.Json.Text
import SqlTemplate.Json.Value
import SqlTemplate.Keys.Description
import SqlTemplate.Keys.Generation
import SqlTemplate.Keys.Storing
import SqlTemplate.Main
import SqlTemplate.Marker
import SqlTemplate.Markup.Reader
import SqlTemplate.Markup.Reference
import SqlTemplate.Markup.Tree
import SqlTemplate.Proofs.Joining
import SqlTemplate.Proofs.Nodes
import SqlTemplate.Proofs.Outcome
import SqlTemplate.Proofs.Trace
import SqlTemplate.Property.Access
import SqlTemplate.Property.Path
import SqlTemplate.Settings.Basic
import SqlTemplate.Settings.Project
import SqlTemplate.Statement.Basic
import SqlTemplate.Statement.Source
import SqlTemplate.Template.Affixes
import SqlTemplate.Template.Compilation
import SqlTemplate.Template.Context
import SqlTemplate.Template.Iteration
import SqlTemplate.Template.Node
import SqlTemplate.Template.Rendering
import SqlTemplate.Text.Blank
import SqlTemplate.Text.Letter
import SqlTemplate.Text.LetterCase
import SqlTemplate.Text.Literal
import SqlTemplate.Text.Numeral
import SqlTemplate.Text.Parts
import SqlTemplate.Text.Reading
import SqlTemplate.Toml.Reader
import SqlTemplate.Toml.Value
import SqlTemplate.Proofs.Markers
import SqlTemplate.Proofs.Scoping
import SqlTemplate.Proofs.WrittenText
import SqlTemplate.Proofs.Decisions
import SqlTemplate.Proofs.Passes
import SqlTemplate.Proofs.Escapes
import SqlTemplate.Proofs.IterationNames
import SqlTemplate.Proofs.Resolution
import SqlTemplate.Proofs.LoopVariables
import SqlTemplate.Proofs.EarlierText
import SqlTemplate.Proofs.StaticTemplates
import SqlTemplate.Proofs.NameReading
import SqlTemplate.Proofs.BoundNames
import SqlTemplate.Proofs.VariantMaps
import SqlTemplate.Proofs.Publishing
import SqlTemplate.Proofs.Registry
import SqlTemplate.Proofs.Expansion
import SqlTemplate.Proofs.Cuts
import SqlTemplate.Proofs.WrittenCharacters
import SqlTemplate.Proofs.MarkupWriting
import SqlTemplate.Proofs.MarkupGrammar
import SqlTemplate.Proofs.ReadMarkup
import SqlTemplate.Proofs.Prologs
import SqlTemplate.Proofs.MarkupReading
import SqlTemplate.Proofs.PlainMarkup
import SqlTemplate.Proofs.DocumentLoading
import SqlTemplate.Proofs.LoadOrder
import SqlTemplate.Proofs.InclusionGraph
import SqlTemplate.Proofs.FragmentHomes
import SqlTemplate.Proofs.ReadTrees
import SqlTemplate.Proofs.ForeignDialects
import SqlTemplate.Proofs.ExpressionWriting
import SqlTemplate.Proofs.ExpressionTokens
import SqlTemplate.Proofs.ExpressionReading
import SqlTemplate.Proofs.PathWriting
import SqlTemplate.Proofs.Navigation
import SqlTemplate.Proofs.StrictSubstitution
import SqlTemplate.Proofs.MarkerWriting
import SqlTemplate.Proofs.MarkerCursors
import SqlTemplate.Proofs.PathCuts
import SqlTemplate.Proofs.PathSegments
import SqlTemplate.Proofs.MappingGrammar
import SqlTemplate.Proofs.WellFormedTemplates
import SqlTemplate.Proofs.Listings
import SqlTemplate.Proofs.Spans
import SqlTemplate.Proofs.EscapedText
import SqlTemplate.Proofs.IncludedText
import SqlTemplate.Proofs.Placeholders
import SqlTemplate.Proofs.AffixCuts
import SqlTemplate.Proofs.LoopShape
import SqlTemplate.Proofs.BlankRuns
import SqlTemplate.Proofs.Shrinking
import SqlTemplate.Proofs.Completion
import SqlTemplate.Proofs.ElementOrder
import SqlTemplate.Proofs.SortedValues
import SqlTemplate.Proofs.PathAssignment
import SqlTemplate.Proofs.KeyWrites
import SqlTemplate.Proofs.PathFrames
import SqlTemplate.Proofs.KeyColumns
import SqlTemplate.Proofs.KeyDialects
import SqlTemplate.Proofs.Magnitudes
import SqlTemplate.Proofs.NearestIntegers
import SqlTemplate.Proofs.ExactIntegers
import SqlTemplate.Proofs.IntegerOrder
import SqlTemplate.Proofs.ZeroDivisors
import SqlTemplate.Proofs.FaultPositions
import SqlTemplate.Proofs.CommentPlaces
import SqlTemplate.Proofs.IdleTemplates
import SqlTemplate.Proofs.ExpressionCache
