import SqliteSchema.Expr.Unfold
import SqliteSchema.Main
import SqliteSchema.Proofs.Parser.Ensures
import SqliteSchema.Proofs.Schema.WellFormed
import SqliteSchema.Proofs.Schema.Reference
import SqliteSchema.Proofs.Lexeme.Piece
import SqliteSchema.Proofs.Query.Distinct
import SqliteSchema.Proofs.Query.Parameters
import SqliteSchema.Proofs.Parser.Reads
import SqliteSchema.Proofs.Lexeme.Spelling
import SqliteSchema.Proofs.Schema.Print
import SqliteSchema.Proofs.Schema.ReadColumn
import SqliteSchema.Proofs.Schema.ReadKey
import SqliteSchema.Proofs.Schema.ReadItem
import SqliteSchema.Proofs.Schema.ReadTable
import SqliteSchema.Proofs.Schema.ReadStatement
import SqliteSchema.Proofs.Schema.ReadBack
import SqliteSchema.Proofs.Parameter.Numbering
import SqliteSchema.Proofs.Parameter.Stretch
import SqliteSchema.Proofs.Lexeme.Partition
import SqliteSchema.Proofs.Lexeme.Seam
import SqliteSchema.Proofs.Parser.Mirror
import SqliteSchema.Proofs.Expr.Mirror
import SqliteSchema.Proofs.Expr.Collect
import SqliteSchema.Proofs.Schema.Mirror
import SqliteSchema.Proofs.Schema.Stored
import SqliteSchema.Proofs.Parser.Points
import SqliteSchema.Proofs.Expr.Points
import SqliteSchema.Proofs.Schema.Points
import SqliteSchema.Proofs.Query.Points
import SqliteSchema.Proofs.Diagnostic.Located
import SqliteSchema.Proofs.Query.Resolve
import SqliteSchema.Proofs.Lexeme.LineBreak
import SqliteSchema.Proofs.Schema.Continued
import SqliteSchema.Proofs.Query.Print
import SqliteSchema.Proofs.Query.ReadBack
import SqliteSchema.Proofs.Query.Renaming
import SqliteSchema.Proofs.Parser.Comparison
import SqliteSchema.Proofs.Query.Mirror
import SqliteSchema.Proofs.Text.Character
import SqliteSchema.Proofs.Literal.Number
import SqliteSchema.Proofs.Literal.Delimited
import SqliteSchema.Proofs.Lexeme.Spaced
import SqliteSchema.Proofs.Literal.Extent
import SqliteSchema.Proofs.Lexeme.Lines
import SqliteSchema.Proofs.Query.Layout
import SqliteSchema.Proofs.Name.Identifier
import SqliteSchema.Proofs.Query.Identifier
import SqliteSchema.Proofs.Schema.Declaration
import SqliteSchema.Proofs.Update
import SqliteSchema.Proofs.Schema.Refusal
import SqliteSchema.Proofs.Query.Projection
import SqliteSchema.Proofs.Parameter.Place
import SqliteSchema.Proofs.Parameter.Unique
import SqliteSchema.Proofs.Expr.Scan
import SqliteSchema.Proofs.Expr.Chaining
import SqliteSchema.Proofs.Expr.Scope
import SqliteSchema.Proofs.Expr.Between
import SqliteSchema.Proofs.Expr.Probe
import SqliteSchema.Proofs.Query.SelectList
import SqliteSchema.Proofs.Parameter.Follow
import SqliteSchema.Proofs.Parser.Resume
import SqliteSchema.Proofs.Schema.Site
import SqliteSchema.Proofs.Schema.Opaque
import SqliteSchema.Proofs.Query.Opaque
import SqliteSchema.Proofs.Expr.Window
import SqliteSchema.Proofs.Schema.Effect
import SqliteSchema.Proofs.Schema.Local
import SqliteSchema.Proofs.Schema.Constraint
import SqliteSchema.Proofs.Schema.Clauses
import SqliteSchema.Proofs.Schema.Column
import SqliteSchema.Proofs.Schema.Reorder
import SqliteSchema.Proofs.Lexeme.FirstCharacter
import SqliteSchema.Proofs.Literal.Quoted
import SqliteSchema.Proofs.Literal.Blob
import SqliteSchema.Proofs.Lexeme.Malformed
import SqliteSchema.Proofs.Lexeme.Rejoined
import SqliteSchema.Proofs.Parser.TypeName
import SqliteSchema.Proofs.Parser.Parentheses
