import SqliteSchema.Keyword
import SqliteSchema.Literal.Quoted
import SqliteSchema.Position
import SqliteSchema.Text.Numeric

namespace SqliteSchema

/-- The lexical class of a token. Words, punctuation, quoted identifiers and bind parameters are
all of the class `other`; what they are is decided where they are read. -/
inductive TokenKind
  | other
  | string
  | number
  | blob
  | operator (binary unary : Bool)
  deriving DecidableEq, Repr

/-- A token: its verbatim text, quotes included, and where it starts. -/
structure Token where
  value : String
  kind : TokenKind
  position : Position
  deriving DecidableEq, Repr

/-- Equality of names, which ignores the case of ASCII letters only. -/
def sameName (a b : String) : Bool := a.toLower == b.toLower

namespace Token

def length (t : Token) : Nat := t.value.length

/-- The character offset behind the token. -/
def stop (t : Token) : Nat := t.position.absolute + t.length

def isLiteral (t : Token) : Bool := t.kind matches .string | .number | .blob

/-- Only words and operators are compared with keywords. -/
def isWord (t : Token) : Bool := t.kind matches .other | .operator _ _

def isBinary (t : Token) : Bool := t.kind matches .operator true _

def isUnary (t : Token) : Bool := t.kind matches .operator _ true

def isKeyword (t : Token) (k : Keyword) : Bool := t.isWord && t.value.toLower == k.text

def keyword (t : Token) : Option Keyword :=
  if t.isWord then Keyword.ofText? t.value.toLower else none

/-- The token is this punctuation mark or operator. -/
def is (t : Token) (symbol : String) : Bool := !t.isLiteral && t.value == symbol

/-- The token is written in brackets, double quotes or back quotes. -/
def isQuoted (t : Token) : Bool :=
  t.kind == .other && (Literal.Quoted.inside? t.value.toList).isSome

def startsWord (c : Char) : Bool := Text.isAlphanumeric c || c == '_'

/-- The token can name a table or a column. -/
def isIdentifier (t : Token) : Bool :=
  t.kind == .other && (t.isQuoted || t.value.toList.head?.any startsWord)

/-- The token is spelled like a bind parameter. -/
def isParameter (t : Token) : Bool :=
  t.kind == .other && t.value.toList.head?.any ['?', ':', '@', '$'].contains

/-- The name or string that the token stands for, without its quotes. -/
def unquoted (t : Token) : String :=
  match t.kind with
  | .string => String.ofList (Literal.Quoted.unescape (Literal.Quoted.stripQuotes t.value.toList))
  | .other => ((Literal.Quoted.inside? t.value.toList).map String.ofList).getD t.value
  | _ => t.value

theorem isKeyword_iff_keyword {t : Token} {k : Keyword} :
    t.isKeyword k = true ↔ t.keyword = some k := by
  simp only [isKeyword, keyword, Bool.and_eq_true, beq_iff_eq]
  constructor
  · rintro ⟨hw, hv⟩
    rw [if_pos hw, hv, Keyword.ofText?_text]
  · intro h
    split at h
    · next hw => exact ⟨hw, (Keyword.text_of_ofText? h).symm⟩
    · cases h

end Token

end SqliteSchema
