import SqliteSchema.Text.WhiteSpace

namespace SqliteSchema

/-- The five classes of declared column types. -/
inductive Affinity
  | text | numeric | integer | real | blob
  deriving DecidableEq, Repr

namespace Affinity

/-- The needle stands somewhere in the text. -/
def occursIn (needle : List Char) : List Char → Bool
  | [] => needle.isEmpty
  | c :: cs => needle.isPrefixOf (c :: cs) || occursIn needle cs

/-- The first rule that applies decides; the case of ASCII letters does not count. -/
def ofDeclaredType (declared : String) : Affinity :=
  let text := declared.toUpper.toList
  let has (word : String) : Bool := occursIn word.toList text
  if has "INT" then integer
  else if has "CHAR" || has "CLOB" || has "TEXT" then Affinity.text
  else if has "BLOB" || text.all Text.isWhiteSpace then blob
  else if has "REAL" || has "FLOA" || has "DOUB" then real
  else numeric

def display : Affinity → String
  | text => "TEXT"
  | numeric => "NUMERIC"
  | integer => "INTEGER"
  | real => "REAL"
  | blob => "BLOB"

/-- The type of a value in generated code. -/
def outputType : Affinity → String
  | text => "String"
  | numeric => "f64"
  | integer => "i64"
  | real => "f64"
  | blob => "Vec<u8>"

end Affinity

end SqliteSchema
