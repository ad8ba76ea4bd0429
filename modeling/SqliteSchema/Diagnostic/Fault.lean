import SqliteSchema.Diagnostic.Code
import SqliteSchema.Literal.Blob
import SqliteSchema.Literal.Number
import SqliteSchema.Model.Table
import SqliteSchema.Parameter

/-!
Why a text is rejected. A fault holds what its message needs to say; the place is added by the
error that reports it.
-/
namespace SqliteSchema

inductive Fault
  -- characters
  | unexpectedCharacter (c : Char)
  | unterminatedString
  | unterminatedIdentifier
  | unterminatedComment
  | blob (fault : Literal.BlobFault)
  | number (fault : Literal.NumberFault)
  -- grammar
  | endOfInput (expected : String)
  | unexpected (expected found : String)
  | notAConstraint (found column : String)
  | notCreateTable (found : String)
  | notSelect (found : String)
  | createTableAs
  | schemaQualifiedTable
  | schemaQualifiedColumn
  | subqueryInFrom
  | join
  | repeatedWindowClause (clause : String)
  | repeatedTableOption (option : String)
  | columnAfterConstraint
  -- names
  | tableExists (table : String)
  | tableOutputTaken (table output other : String)
  | aliasTaken (name : String)
  | columnExists (column table : String)
  | columnOutputTaken (column output other : String)
  | columnListedTwice (column : String)
  | unknownTable (table : String)
  | unknownReferencedTable (table : String)
  | notInFrom (table : String)
  | unknownColumn (column table : String)
  | unknownInFrom (column : String)
  | ambiguousColumn (column : String)
  -- keys
  | keyConflict (conflict : KeyConflict) (listed primaryKey : String)
  | autoIncrement (column type : String)
  | foreignKeyLength (here there : Nat) (table : String)
  | foreignPrimaryKeyLength (table : String) (there here : Nat)
  | foreignNotUnique (columns table : String)
  | withoutPrimaryKey (table : String)
  | notStrict (column table type : String)
  -- queries
  | parameter (fault : ParameterFault)
  | notAColumn
  deriving DecidableEq, Repr

namespace Fault

def code : Fault → ErrorCode
  | unexpectedCharacter _ => .unexpectedCharacter
  | unterminatedString => .unterminatedString
  | unterminatedIdentifier => .unterminatedIdentifier
  | unterminatedComment => .unterminatedComment
  | blob _ => .invalidBlobLiteral
  | number _ => .invalidNumericLiteral
  | endOfInput _ => .unexpectedEndOfInput
  | unexpected _ _ => .unexpectedToken
  | notAConstraint _ _ => .unexpectedToken
  | notCreateTable _ => .unsupportedSyntax
  | notSelect _ => .unsupportedSyntax
  | createTableAs => .unsupportedSyntax
  | schemaQualifiedTable => .unsupportedSyntax
  | schemaQualifiedColumn => .unsupportedSyntax
  | subqueryInFrom => .unsupportedSyntax
  | join => .unsupportedSyntax
  | repeatedWindowClause _ => .duplicateClause
  | repeatedTableOption _ => .duplicateClause
  | columnAfterConstraint => .constraintOrder
  | tableExists _ => .duplicateTable
  | tableOutputTaken _ _ _ => .duplicateTable
  | aliasTaken _ => .duplicateTable
  | columnExists _ _ => .duplicateColumn
  | columnOutputTaken _ _ _ => .duplicateColumn
  | columnListedTwice _ => .duplicateColumn
  | unknownTable _ => .unknownTable
  | unknownReferencedTable _ => .unknownTable
  | notInFrom _ => .unknownTable
  | unknownColumn _ _ => .unknownColumn
  | unknownInFrom _ => .unknownColumn
  | ambiguousColumn _ => .ambiguousColumn
  | keyConflict .primaryKeyExists _ _ => .duplicatePrimaryKey
  | keyConflict _ _ _ => .duplicateUniqueConstraint
  | autoIncrement _ _ => .invalidAutoIncrement
  | foreignKeyLength _ _ _ => .foreignKeyMismatch
  | foreignPrimaryKeyLength _ _ _ => .foreignKeyMismatch
  | foreignNotUnique _ _ => .foreignKeyMismatch
  | withoutPrimaryKey _ => .invalidTableOption
  | notStrict _ _ _ => .invalidTableOption
  | parameter (.nameTaken _ _ _) => .parameterNameCollision
  | parameter _ => .invalidParameter
  | notAColumn => .unsupportedResultColumn

def keyMessage (listed primaryKey : String) : KeyConflict → String
  | .primaryKeyExists => "Table already has a primary key"
  | .alreadyUnique column => s!"Column '{column}' is already unique"
  | .matchesPrimaryKey => s!"Table already has a primary key on ({listed})"
  | .inPrimaryKey column =>
    s!"Table already has a primary key on ({primaryKey}) which includes column '{column}'"
  | .matchesUnique => s!"Table already has a unique constraint on ({listed})"

def message : Fault → String
  | unexpectedCharacter c => s!"Unexpected character '{c}'"
  | unterminatedString => "Unterminated string literal"
  | unterminatedIdentifier => "Unterminated quoted identifier"
  | unterminatedComment => "Unterminated block comment"
  | blob fault => fault.message
  | number fault => fault.message
  | endOfInput expected => s!"Unexpected end of input, expected {expected}"
  | unexpected expected found => s!"Expected {expected} but found '{found}'"
  | notAConstraint found column =>
    s!"Unexpected '{found}' in the definition of column '{column}'"
  | notCreateTable found => s!"Only CREATE TABLE statements are supported, found '{found}'"
  | notSelect found => s!"Only SELECT queries are supported, found '{found}'"
  | createTableAs => "CREATE TABLE ... AS SELECT is not supported"
  | schemaQualifiedTable => "Schema-qualified table names are not supported"
  | schemaQualifiedColumn => "Schema-qualified column references are not supported"
  | subqueryInFrom => "Sub-queries in FROM are not supported"
  | join => "JOIN is not supported, list the tables separated by commas"
  | repeatedWindowClause clause => s!"{clause} may appear only once in a window definition"
  | repeatedTableOption option => s!"Table option {option} may appear only once"
  | columnAfterConstraint => "Column definitions must come before table constraints"
  | tableExists table => s!"Table '{table}' already exists"
  | tableOutputTaken table output other =>
    s!"Table '{table}' has the same output name '{output}' as table '{other}'"
  | aliasTaken name => s!"Table alias '{name}' is used more than once in FROM"
  | columnExists column table => s!"Column '{column}' already exists in table '{table}'"
  | columnOutputTaken column output other =>
    s!"Column '{column}' has the same output name '{output}' as column '{other}'"
  | columnListedTwice column => s!"Column '{column}' is listed more than once"
  | unknownTable table => s!"Table '{table}' does not exist"
  | unknownReferencedTable table => s!"Referenced table '{table}' does not exist"
  | notInFrom table => s!"Table '{table}' is not in the FROM clause"
  | unknownColumn column table => s!"Column '{column}' does not exist in table '{table}'"
  | unknownInFrom column => s!"Column '{column}' does not exist in any FROM table"
  | ambiguousColumn column => s!"Ambiguous column name '{column}'"
  | keyConflict conflict listed primaryKey => keyMessage listed primaryKey conflict
  | autoIncrement column type =>
    "AUTOINCREMENT is only allowed on an INTEGER PRIMARY KEY, " ++
      s!"column '{column}' has type '{type}'"
  | foreignKeyLength here there table =>
    s!"Foreign key has {here} column(s) but references {there} column(s) of table '{table}'"
  | foreignPrimaryKeyLength table there here =>
    s!"Referenced table doesn't have a matching foreign key: '{table}' has a " ++
      s!"{there}-column primary key, {here} column(s) given"
  | foreignNotUnique columns table =>
    s!"Referenced table doesn't have a matching foreign key: ({columns}) of '{table}' " ++
      "is neither a primary key nor unique"
  | withoutPrimaryKey table => s!"WITHOUT ROWID table '{table}' must have a primary key"
  | notStrict column table type =>
    s!"Column '{column}' of STRICT table '{table}' has unsupported type '{type}'"
  | parameter fault => fault.message
  | notAColumn => "Only column references are supported in the select list"

end Fault

end SqliteSchema
