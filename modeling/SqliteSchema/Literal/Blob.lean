import SqliteSchema.Literal.Basic

/-!
Blob literals: `x` or `X`, then an even number of hexadecimal digits between quotes.
-/
namespace SqliteSchema.Literal

inductive BlobFault
  | empty
  | noLeadingX
  | noOpeningQuote
  | oddDigits
  | strayCharacter (c : Char)
  | unterminated
  deriving DecidableEq, Repr

namespace BlobFault

def message : BlobFault → String
  | empty => "Blob literal is empty"
  | noLeadingX => "Blob literal must start with 'x' or 'X'"
  | noOpeningQuote => "Blob literal is missing its opening quote"
  | oddDigits => "Blob literal has an odd number of hexadecimal digits"
  | strayCharacter c => s!"Invalid character '{c}' in blob literal"
  | unterminated => "Unterminated blob literal"

end BlobFault

namespace Blob

/-- After the opening quote. -/
def digits (rest : List Char) : Scan BlobFault :=
  let n := leading isHexDigit rest
  match rest.drop n with
  | '\'' :: _ => if n % 2 = 0 then .ok (2 + n + 1) else .error (.oddDigits, 2 + n)
  | c :: _ => .error (.strayCharacter c, 2 + n)
  | [] => .error (.unterminated, 2 + n)

/-- The length of the blob at the front of a text. -/
def scan (cs : List Char) : Scan BlobFault :=
  match cs with
  | [] => .error (.empty, 0)
  | lead :: rest =>
    if lead = 'x' ∨ lead = 'X' then
      match rest with
      | '\'' :: tail => digits tail
      | _ => .error (.noOpeningQuote, 1)
    else .error (.noLeadingX, 0)

end Blob

end SqliteSchema.Literal
