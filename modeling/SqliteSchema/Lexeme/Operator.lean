import SqliteSchema.Text.WhiteSpace

namespace SqliteSchema.Lexeme

/-- An operator and the number of operands it can take. -/
structure Operator where
  symbol : String
  binary : Bool := true
  unary : Bool := false
  deriving DecidableEq, Repr

namespace Operator

/-- Longer symbols come first, so that the first match is the longest. -/
def symbols : List Operator :=
  [{ symbol := "->>" }, { symbol := "||" }, { symbol := "->" }, { symbol := "<<" },
   { symbol := "<=" }, { symbol := "<>" }, { symbol := ">>" }, { symbol := ">=" },
   { symbol := "==" }, { symbol := "!=" }, { symbol := "*" }, { symbol := "/" },
   { symbol := "%" }, { symbol := "&" }, { symbol := "-", unary := true },
   { symbol := "+", unary := true }, { symbol := "~", binary := false, unary := true },
   { symbol := "<" }, { symbol := ">" }, { symbol := "=" }, { symbol := "|" }]

def match? (cs : List Char) : Option Operator :=
  symbols.find? fun op => op.symbol.toList.isPrefixOf cs

/-- Words that are binary operators where white space follows them. -/
def words : List String := ["and", "or"]

/-- The length of the word operator at the front of a text. -/
def word? (cs : List Char) : Option Nat :=
  (words.find? fun w =>
    (cs.take w.length).map Char.toLower == w.toList &&
      (cs.drop w.length).head?.any Text.isWhiteSpace).map String.length

end Operator

end SqliteSchema.Lexeme
