import SqliteSchema.Diagnostic.ParseError
import SqliteSchema.Lexeme.Gap
import SqliteSchema.Lexeme.Operator

/-!
Cutting a text into tokens. Every step reads one lexeme, which is a piece of the gap between
tokens or a token, at the front of what is left; the first malformed lexeme ends the run.
-/
namespace SqliteSchema

/-- What stands at the front of a text: a part of a gap, or a token of some kind, and how many
characters it has behind its first one. -/
inductive Lexeme
  | gap (more : Nat)
  | token (kind : TokenKind) (more : Nat)
  deriving DecidableEq, Repr

namespace Lexeme

def punctuation : List Char := [',', '(', ')', ';']

/-- The characters that end a word. -/
def isDelimiter (c : Char) : Bool :=
  Text.isWhiteSpace c || punctuation.contains c ||
    ['.', '\'', '"', '\x60', '[', '|', '-', '<', '>', '=', '!', '*', '/', '%', '&', '+',
      '~'].contains c

/-- A fault in a lexeme and its distance from the lexeme's first character. -/
abbrev Outcome := Except (Fault × Nat) Lexeme

/-- A literal token, from what a scan of it says. -/
def literal {φ : Type} (kind : TokenKind) (fault : φ → Fault) : Literal.Scan φ → Outcome
  | .ok n => .ok (.token kind (n - 1))
  | .error (f, n) => .error (fault f, n)

/-- A token that ends `tail` characters behind its first one, if it ends at all. -/
def closed (kind : TokenKind) (fault : Fault) : Option Nat → Outcome
  | some tail => .ok (.token kind tail)
  | none => .error (fault, 0)

/-- A word is everything up to the next delimiter. -/
def word (c : Char) (rest : List Char) : Outcome :=
  if isDelimiter c then .error (.unexpectedCharacter c, 0)
  else .ok (.token .other (Literal.leading (!isDelimiter ·) rest))

def operatorOrWord (c : Char) (rest : List Char) : Outcome :=
  match Operator.match? (c :: rest) with
  | some op => .ok (.token (.operator op.binary op.unary) (op.symbol.length - 1))
  | none =>
    match Operator.word? (c :: rest) with
    | some n => .ok (.token (.operator true false) (n - 1))
    | none => word c rest

/-- The token at the front of a text that does not start with a gap. -/
def tokenAt (c : Char) (rest : List Char) : Outcome :=
  if punctuation.contains c then .ok (.token .other 0)
  else if c == '.' && !rest.head?.any Char.isDigit then .ok (.token .other 0)
  else if c == '.' || c.isDigit then literal .number .number (Literal.Number.scan (c :: rest))
  else if c == '\'' then closed .string .unterminatedString (Literal.Quoted.stringTail rest)
  else if (c == 'x' || c == 'X') && rest.head? == some '\'' then
    literal .blob .blob (Literal.Blob.scan (c :: rest))
  else
    match Literal.Quoted.closing? c with
    | some close => closed .other .unterminatedIdentifier (Literal.Quoted.identifierTail close rest)
    | none => operatorOrWord c rest

/-- The lexeme at the front of a text. -/
def read (c : Char) (rest : List Char) : Outcome :=
  if Text.isWhiteSpace c then .ok (.gap 0) else
  match c, rest with
  | '-', '-' :: tail => .ok (.gap (1 + lineTail tail))
  | '/', '*' :: tail =>
    match blockTail tail with
    | some n => .ok (.gap (1 + n))
    | none => .error (.unterminatedComment, 0)
  | _, _ => tokenAt c rest

end Lexeme

namespace Token

/-- The tokens of a text that starts at `place`. -/
def stream (place : Position) (cs : List Char) : Except ParseError (List Token) :=
  match cs with
  | [] => .ok []
  | c :: rest =>
    match Lexeme.read c rest with
    | .error (fault, n) => .error (.atPosition fault (place.after ((c :: rest).take n)))
    | .ok (.gap n) => stream (place.after (c :: rest.take n)) (rest.drop n)
    | .ok (.token kind n) =>
      let lexeme := c :: rest.take n
      (stream (place.after lexeme) (rest.drop n)).map (⟨String.ofList lexeme, kind, place⟩ :: ·)
termination_by cs.length

section Steps

variable {place : Position} {c : Char} {cs rest : List Char} {fault : Fault} {kind : TokenKind}
  {n : Nat} {ts : List Token}

@[simp] theorem stream_nil (place : Position) : stream place [] = .ok [] := by rw [stream]

theorem stream_fault (h : Lexeme.read c rest = .error (fault, n)) :
    stream place (c :: rest) = .error (.atPosition fault (place.after ((c :: rest).take n))) := by
  rw [stream, h]

theorem stream_gap (h : Lexeme.read c rest = .ok (.gap n)) :
    stream place (c :: rest) = stream (place.after (c :: rest.take n)) (rest.drop n) := by
  rw [stream, h]

theorem stream_token (h : Lexeme.read c rest = .ok (.token kind n)) :
    stream place (c :: rest) = (stream (place.after (c :: rest.take n)) (rest.drop n)).map
      (⟨String.ofList (c :: rest.take n), kind, place⟩ :: ·) := by
  rw [stream, h]

/-- A text that has been read to its end, lexeme by lexeme, and its tokens. -/
inductive Streamed : Position → List Char → List Token → Prop
  | nil (place : Position) : Streamed place [] []
  | gap {place : Position} {c : Char} {rest : List Char} {n : Nat} {ts : List Token}
      (hread : Lexeme.read c rest = .ok (.gap n))
      (h : Streamed (place.after (c :: rest.take n)) (rest.drop n) ts) :
      Streamed place (c :: rest) ts
  | token {place : Position} {c : Char} {rest : List Char} {kind : TokenKind} {n : Nat}
      {ts : List Token} (hread : Lexeme.read c rest = .ok (.token kind n))
      (h : Streamed (place.after (c :: rest.take n)) (rest.drop n) ts) :
      Streamed place (c :: rest) (⟨String.ofList (c :: rest.take n), kind, place⟩ :: ts)

theorem Streamed.eq_ok (h : Streamed place cs ts) : stream place cs = .ok ts := by
  induction h with
  | nil place => exact stream_nil place
  | gap hread _ ih => exact (stream_gap hread).trans ih
  | token hread _ ih => rw [stream_token hread, ih, Except.map]

theorem streamed_of_eq_ok (h : stream place cs = .ok ts) : Streamed place cs ts := by
  induction place, cs using stream.induct generalizing ts with
  | case1 place =>
    rw [stream_nil] at h
    cases h
    exact .nil place
  | case2 place c rest fault n hread =>
    rw [stream_fault hread] at h
    cases h
  | case3 place c rest n hread ih =>
    rw [stream_gap hread] at h
    exact .gap hread (ih h)
  | case4 place c rest kind n hread lexeme =>
    rename_i ih
    rw [stream_token hread] at h
    cases hbehind : stream (place.after lexeme) (rest.drop n) with
    | error e =>
      rw [hbehind] at h
      cases h
    | ok us =>
      rw [hbehind] at h
      cases h
      exact .token hread (ih hbehind)

end Steps

/-- The tokens of a text. -/
def tokenize (text : String) : Except ParseError (List Token) := stream .start text.toList

end Token

end SqliteSchema
