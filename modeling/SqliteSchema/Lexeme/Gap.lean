import SqliteSchema.Text.WhiteSpace

/-!
Comments. A line comment starts with two hyphens and ends before the next line feed; a block
comment ends with the first `*` `/` behind its opening, and block comments do not nest.
-/
namespace SqliteSchema.Lexeme

/-- How many characters there are up to and including the end of a block comment. -/
def blockTail : List Char → Option Nat
  | [] => none
  | '*' :: '/' :: _ => some 2
  | _ :: rest => (blockTail rest).map (· + 1)

/-- How many characters there are before the next line feed. -/
def lineTail (cs : List Char) : Nat := (cs.takeWhile (· != '\n')).length

end SqliteSchema.Lexeme
