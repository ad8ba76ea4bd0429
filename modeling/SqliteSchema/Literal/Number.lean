import SqliteSchema.Literal.Basic
import SqliteSchema.Text.Numeric

/-!
Numeric literals: `12`, `1.5`, `1.`, `.5`, `1e-3` and `0x1F`. A literal ends where nothing that
could belong to a word follows it.
-/
namespace SqliteSchema.Literal

inductive NumberFault
  | noHexDigits
  | hexFraction
  | secondPoint
  | noExponentDigits
  | pointAfterExponent
  | strayCharacter (c : Char)
  deriving DecidableEq, Repr

namespace NumberFault

def message : NumberFault → String
  | noHexDigits => "Hexadecimal literal has no digits"
  | hexFraction => "Hexadecimal literal cannot have a fractional part"
  | secondPoint => "Numeric literal has more than one decimal point"
  | noExponentDigits => "Exponent has no digits"
  | pointAfterExponent => "Decimal point after exponent"
  | strayCharacter c => s!"Invalid character '{c}' in numeric literal"

end NumberFault

namespace Number

/-- The end of a literal of `n` characters before `rest`. -/
def finish (n : Nat) (rest : List Char) : Scan NumberFault :=
  match rest with
  | c :: _ =>
    if Text.isAlphanumeric c || c == '_' then .error (.strayCharacter c, n)
    else .ok n
  | [] => .ok n

/-- After `0x`. -/
def hexadecimal (rest : List Char) : Scan NumberFault :=
  let n := leading isHexDigit rest
  if n = 0 then .error (.noHexDigits, 2) else
  match rest.drop n with
  | '.' :: _ => .error (.hexFraction, 2 + n)
  | tail => finish (2 + n) tail

def signLength : List Char → Nat
  | '+' :: _ => 1
  | '-' :: _ => 1
  | _ => 0

/-- After the letter of an exponent, which is the `n`-th character. -/
def exponent (n : Nat) (rest : List Char) : Scan NumberFault :=
  let sign := signLength rest
  let digits := leading Char.isDigit (rest.drop sign)
  if digits = 0 then .error (.noExponentDigits, n + sign) else
  match rest.drop (sign + digits) with
  | '.' :: _ => .error (.pointAfterExponent, n + sign + digits)
  | tail => finish (n + sign + digits) tail

/-- After the `n` characters of a whole part and a fraction. -/
def scale (n : Nat) (rest : List Char) : Scan NumberFault :=
  match rest with
  | 'e' :: tail => exponent (n + 1) tail
  | 'E' :: tail => exponent (n + 1) tail
  | _ => finish n rest

def decimal (cs : List Char) : Scan NumberFault :=
  let whole := leading Char.isDigit cs
  match cs.drop whole with
  | '.' :: rest =>
    let digits := leading Char.isDigit rest
    match rest.drop digits with
    | '.' :: _ => .error (.secondPoint, whole + 1 + digits)
    | tail => scale (whole + 1 + digits) tail
  | rest => scale whole rest

/-- The length of the number at the front of a text. -/
def scan (cs : List Char) : Scan NumberFault :=
  match cs with
  | '0' :: 'x' :: rest => hexadecimal rest
  | '0' :: 'X' :: rest => hexadecimal rest
  | _ => decimal cs

end Number

end SqliteSchema.Literal
