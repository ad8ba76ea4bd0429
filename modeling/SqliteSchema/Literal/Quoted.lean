/-!
Quoted text. Inside a string literal a quote is written `\'` or `''`; an identifier in brackets,
double quotes or back quotes is read verbatim up to its closing character.
-/
namespace SqliteSchema.Literal

namespace Quoted

/-- How many characters follow the opening quote of a string, its closing quote included. -/
def stringTail : List Char → Option Nat
  | [] => none
  | '\\' :: '\'' :: rest => (stringTail rest).map (· + 2)
  | '\'' :: '\'' :: rest => (stringTail rest).map (· + 2)
  | '\'' :: _ => some 1
  | _ :: rest => (stringTail rest).map (· + 1)

/-- The text of a string literal's inside, every escaped quote read as one quote. -/
def unescape : List Char → List Char
  | [] => []
  | '\\' :: '\'' :: rest => '\'' :: unescape rest
  | '\'' :: '\'' :: rest => '\'' :: unescape rest
  | c :: rest => c :: unescape rest

/-- The characters between the quotes of a string, or all of them where one of the two is
missing. -/
def stripQuotes (cs : List Char) : List Char :=
  match cs with
  | '\'' :: rest => if rest.getLast? = some '\'' then rest.dropLast else cs
  | _ => cs

/-- How many characters follow the opening character of an identifier, `close` included. -/
def identifierTail (close : Char) (cs : List Char) : Option Nat :=
  (cs.findIdx? (· == close)).map (· + 1)

/-- The character that closes an identifier opened by `c`. -/
def closing? (c : Char) : Option Char :=
  if c = '[' then some ']' else if c = '"' then some '"' else if c = '\x60' then some '\x60'
  else none

/-- The inside of a quoted identifier. -/
def inside? (cs : List Char) : Option (List Char) :=
  match cs with
  | c :: rest => if (closing? c).isSome && rest.getLast? = closing? c then some rest.dropLast
    else none
  | [] => none

end Quoted

end SqliteSchema.Literal
