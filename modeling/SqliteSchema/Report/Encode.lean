import SqliteSchema.Query.Select
import SqliteSchema.Definition.Table
import SqliteSchema.Report.Document

/-!
The report on a schema and its queries.
-/
namespace SqliteSchema.Report

open Document

def optional {α : Type} (encode : α → Document) : Option α → Document
  | some a => encode a
  | none => .null

def list {α : Type} (encode : α → Document) (items : List α) : Document :=
  .array (items.map encode)

def position (p : Position) : Document :=
  .object [("absolute", .number p.absolute), ("line", .number p.line),
    ("column", .number p.column)]

def kindName : TokenKind → String
  | .other => "Other"
  | .string => "StringLiteral"
  | .number => "NumericLiteral"
  | .blob => "BlobLiteral"
  | .operator _ _ => "Operator"

def token (t : Token) : Document :=
  .object [("value", .string t.value), ("kind", .string (kindName t.kind)),
    ("position", position t.position), ("is_binary_operator", .bool t.isBinary),
    ("is_unary_operator", .bool t.isUnary)]

def column (c : Column) : Document :=
  .object [("sql_name", .string c.sqlName), ("sql_type", .string c.sqlType),
    ("output_name", .string c.outputName), ("affinity", .string c.affinity.display),
    ("not_null", .bool c.notNull), ("primary_key", .bool c.primaryKey),
    ("auto_increment", .bool c.autoIncrement), ("unique", .bool c.unique),
    ("collation", optional .string c.collation), ("table", .number c.table)]

def actionName : ReferentialAction → String
  | .noAction => "NoAction"
  | .restrict => "Restrict"
  | .setNull => "SetNull"
  | .setDefault => "SetDefault"
  | .cascade => "Cascade"

def foreignKey (k : ForeignKey) : Document :=
  .object [("columns", list .number k.columns), ("foreign_table", .number k.foreignTable),
    ("foreign_columns", list .number k.foreignColumns),
    ("on_delete", .string (actionName k.onDelete)),
    ("on_update", .string (actionName k.onUpdate))]

def table (t : Table) : Document :=
  .object [("id", .number t.id), ("sql_name", .string t.sqlName),
    ("output_name", .string t.outputName), ("columns", list column t.columns),
    ("create_table_text", .string t.createTableText), ("is_temporary", .bool t.isTemporary),
    ("primary_key", list .number t.primaryKey),
    ("unique_sets", list (list .number) t.uniqueSets),
    ("foreign_keys", list foreignKey t.foreignKeys), ("without_rowid", .bool t.withoutRowid),
    ("strict", .bool t.strict)]

def source (s : Source) : Document :=
  .object [("alias", .string s.name), ("table", .number s.table.id)]

def selectItem : SelectItem → Document
  | .allColumns => .object [("kind", .string "AllColumnsOfAllTables")]
  | .allColumnsOf table => .object [("kind", .string "AllColumnsOfTable"), ("table", token table)]
  | .column table column newName =>
    .object [("kind", .string "NamedColumn"), ("table", optional token table),
      ("column", token column), ("alias", optional .string newName)]

def parameter (p : Parameter) : Document :=
  .object [("number", .number p.number), ("output_name", .string p.outputName),
    ("sql_name", optional .string p.sqlName)]

/-- A query under the name of its file. -/
def query (file : String) (q : Query) : Document :=
  .object [("file", .string file), ("query_type", .string "Select"),
    ("distinct", .bool q.distinct), ("from_tables", list source q.sources),
    ("column_sources", list selectItem q.items), ("columns", list column q.columns),
    ("parameters", list parameter q.parameters.entries)]

def warning (w : Warning) : Document :=
  .object [("code", .string w.code.name), ("message", .string w.message),
    ("position", optional position w.position)]

def report (registry : Registry) (queries : List (String × Query)) (warnings : List Warning) :
    Document :=
  .object [("tables", list table registry.tables),
    ("queries", list (fun (file, q) => query file q) queries),
    ("warnings", list warning warnings)]

end SqliteSchema.Report
