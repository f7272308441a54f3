import Recordsmith.Code.JavaCode
import Recordsmith.Code.Renderer
import Recordsmith.Code.SwiftCode
import Recordsmith.Command.Arguments
import Recordsmith.Command.Run
import Recordsmith.Config.Basic
import Recordsmith.Config.File
import Recordsmith.Console.Literal
import Recordsmith.Console.Markup
import Recordsmith.Console.Sequence
import Recordsmith.Console.Table
import Recordsmith.Console.Wrap
import Recordsmith.Expansion.Basic
import Recordsmith.Expansion.Edit
import Recordsmith.Language
import Recordsmith.LanguageKit
import Recordsmith.Log
import Recordsmith.Main
import Recordsmith.Path
import Recordsmith.Record.Assembly
import Recordsmith.Record.Constructor
import Recordsmith.Record.Declaration
import Recordsmith.Record.Encoding
import Recordsmith.Record.Field
import Recordsmith.Record.Member
import Recordsmith.Record.Report
import Recordsmith.Record.Wither
import Recordsmith.Registry
import Recordsmith.Source.JavaSource
import Recordsmith.Source.Mark
import Recordsmith.Source.Part
import Recordsmith.Source.Piece
import Recordsmith.Source.SwiftSource
import Recordsmith.Source.SwiftToken
import Recordsmith.Source.SwiftType
import Recordsmith.Source.Token
import Recordsmith.Steps
import Recordsmith.Store
import Recordsmith.Text.Blank
import Recordsmith.Text.CaseTable
import Recordsmith.Text.CodePoint
import Recordsmith.Text.Identifier
import Recordsmith.Text.IdentifierTable
import Recordsmith.Text.Lines
import Recordsmith.Text.LowerCase
import Recordsmith.Text.PrintableTable
import Recordsmith.Text.Quoted
import Recordsmith.Text.Ranges
import Recordsmith.Text.Slice
import Recordsmith.Text.Utf8
import Recordsmith.Text.Width
import Recordsmith.Text.WidthTable
import Recordsmith.Total
import Recordsmith.Tree.Dialect
import Recordsmith.Tree.JavaTree
import Recordsmith.Tree.Node
import Recordsmith.Tree.SwiftTree
import Recordsmith.Value.Basic
import Recordsmith.Value.Reading
import Recordsmith.Yaml.Cursor
import Recordsmith.Yaml.Document
import Recordsmith.Yaml.Error
import Recordsmith.Yaml.Node
import Recordsmith.Yaml.Parse
import Recordsmith.Yaml.Scalar
import Recordsmith.Yaml.Scan
import Recordsmith.Yaml.Token
import Recordsmith.Proofs.Code.Brackets
import Recordsmith.Proofs.Code.LineBreaks
import Recordsmith.Proofs.Code.Shadowing
import Recordsmith.Proofs.Code.Withers
import Recordsmith.Proofs.Command.Arguments
import Recordsmith.Proofs.Command.Copying
import Recordsmith.Proofs.Command.Defaults
import Recordsmith.Proofs.Command.Effects
import Recordsmith.Proofs.Command.Runs
import Recordsmith.Proofs.Config.Layers
import Recordsmith.Proofs.Config.Loading
import Recordsmith.Proofs.Config.RoundTrip
import Recordsmith.Proofs.Console.Rendering
import Recordsmith.Proofs.Console.Sequences
import Recordsmith.Proofs.Expansion.Accounting
import Recordsmith.Proofs.Expansion.Brackets
import Recordsmith.Proofs.Expansion.Edits
import Recordsmith.Proofs.Expansion.Failure
import Recordsmith.Proofs.Expansion.Indentation
import Recordsmith.Proofs.Expansion.Insertion
import Recordsmith.Proofs.Expansion.LineBreaks
import Recordsmith.Proofs.Expansion.Markers
import Recordsmith.Proofs.Expansion.Modes
import Recordsmith.Proofs.Expansion.Placement
import Recordsmith.Proofs.Expansion.ReadBack
import Recordsmith.Proofs.Expansion.Reading
import Recordsmith.Proofs.Expansion.Recovery
import Recordsmith.Proofs.Expansion.Splicing
import Recordsmith.Proofs.Expansion.Strict
import Recordsmith.Proofs.Expansion.Tokens
import Recordsmith.Proofs.Expansion.Treatment
import Recordsmith.Proofs.Expansion.Unmarked
import Recordsmith.Proofs.Path.NormalForm
import Recordsmith.Proofs.Record.Consistency
import Recordsmith.Proofs.Record.Faults
import Recordsmith.Proofs.Record.Fields
import Recordsmith.Proofs.Record.Meaning
import Recordsmith.Proofs.Record.Relevance
import Recordsmith.Proofs.Record.Reports
import Recordsmith.Proofs.Registry.Registration
import Recordsmith.Proofs.Source.JavaBoundaries
import Recordsmith.Proofs.Source.Parts
import Recordsmith.Proofs.Source.Pieces
import Recordsmith.Proofs.Source.SwiftBoundaries
import Recordsmith.Proofs.Store.Saving
import Recordsmith.Proofs.Text.Blanks
import Recordsmith.Proofs.Text.Blocks
import Recordsmith.Proofs.Text.Brackets
import Recordsmith.Proofs.Text.CodePoints
import Recordsmith.Proofs.Text.Decoding
import Recordsmith.Proofs.Text.Gaps
import Recordsmith.Proofs.Text.Indentation
import Recordsmith.Proofs.Text.LineBreaks
import Recordsmith.Proofs.Text.Lines
import Recordsmith.Proofs.Text.Utf8
import Recordsmith.Proofs.Tree.Bindings
import Recordsmith.Proofs.Tree.Comments
import Recordsmith.Proofs.Tree.Extraction
import Recordsmith.Proofs.Tree.Offsets
import Recordsmith.Proofs.Tree.Order
import Recordsmith.Proofs.Tree.Spans
import Recordsmith.Proofs.Tree.Texts
import Recordsmith.Proofs.Tree.WellFormed
import Recordsmith.Proofs.Value.Issues
import Recordsmith.Proofs.Value.Restoring
import Recordsmith.Proofs.Yaml.Parsing
