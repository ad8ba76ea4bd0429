import SqliteSchema.Diagnostic.ParseError
import SqliteSchema.Diagnostic.Warning

/-!
Reading a list of tokens from its front. A parser that fails keeps the warnings that were reported
before.
-/
namespace SqliteSchema

/-- The tokens ahead, and the bind parameters and warnings that were met behind them. -/
structure ParseState where
  rest : List Token
  parameters : Parameters := {}
  warnings : List Warning := []
  deriving DecidableEq, Repr

namespace ParseState

/-- How many of these tokens are read. -/
def index (tokens : List Token) (s : ParseState) : Nat := tokens.length - s.rest.length

/-- The last token that was read. -/
def previous? (tokens : List Token) (s : ParseState) : Option Token :=
  (tokens.take (s.index tokens)).getLast?

end ParseState

abbrev Parser := EStateM ParseError ParseState

namespace Parser

variable {α : Type}

def fail (e : ParseError) : Parser α := fun s => .error e s

/-- Looks at the tokens ahead and reads none. -/
def look (f : List Token → α) : Parser α := fun s => .ok (f s.rest) s

def peek : Parser (Option Token) := look (·.head?)

/-- The token `n` places ahead. -/
def peekNth (n : Nat) : Parser (Option Token) := look (·[n]?)

def check (symbol : String) : Parser Bool := look (·.head?.any (·.is symbol))

def checkKeyword (k : Keyword) : Parser Bool := look (·.head?.any (·.isKeyword k))

def checkNthKeyword (n : Nat) (k : Keyword) : Parser Bool := look (·[n]?.any (·.isKeyword k))

/-- The next token, which is not read. -/
def current (expected : String) : Parser Token := fun s =>
  match s.rest with
  | [] => .error (.endOfInput expected) s
  | t :: _ => .ok t s

/-- Reads the next token if it satisfies `p`. -/
def accept (p : Token → Bool) : Parser (Option Token) := fun s =>
  match s.rest with
  | [] => .ok none s
  | t :: rest => if p t then .ok (some t) { s with rest := rest } else .ok none s

/-- Reads the next token, which has to satisfy `p`. -/
def require (expected : String) (p : Token → Bool) : Parser Token := fun s =>
  match s.rest with
  | [] => .error (.endOfInput expected) s
  | t :: rest =>
    if p t then .ok t { s with rest := rest } else .error (.unexpected expected t) s

/-- Reads any token. -/
def advance (expected : String) : Parser Token := require expected fun _ => true

def eat (symbol : String) : Parser Bool := return (← accept (·.is symbol)).isSome

def eatKeyword (k : Keyword) : Parser Bool := return (← accept (·.isKeyword k)).isSome

/-- Reads the next token if it is one of the keywords. -/
def eatAnyKeyword (ks : List Keyword) : Parser (Option Keyword) := fun s =>
  match s.rest with
  | [] => .ok none s
  | t :: rest =>
    match ks.find? t.isKeyword with
    | some k => .ok (some k) { s with rest := rest }
    | none => .ok none s

def expect (symbol : String) : Parser Token := require s!"'{symbol}'" (·.is symbol)

def expectKeyword (k : Keyword) : Parser Token := require k.display (·.isKeyword k)

/-- Reads one of the keywords; the message names all of them. -/
def expectAnyKeyword (ks : List Keyword) : Parser Keyword := do
  let expected := " or ".intercalate (ks.map Keyword.display)
  let token ← current expected
  match ← eatAnyKeyword ks with
  | some k => return k
  | none => fail (.unexpected expected token)

def expectIdentifier (expected : String) : Parser Token := require expected (·.isIdentifier)

/-- The tokens before the parenthesis that closes `depth + 1` open ones, and those behind it. -/
def balanced (depth : Nat) : List Token → Option (List Token × List Token)
  | [] => none
  | t :: rest =>
    if t.is "(" then (balanced (depth + 1) rest).map fun r => (t :: r.1, r.2)
    else if t.is ")" then
      match depth with
      | 0 => some ([], rest)
      | depth + 1 => (balanced depth rest).map fun r => (t :: r.1, r.2)
    else (balanced depth rest).map fun r => (t :: r.1, r.2)

/-- Reads a group in parentheses and returns the tokens inside it. -/
def skipBalanced : Parser (List Token) := do
  let _ ← expect "("
  fun s =>
    match balanced 0 s.rest with
    | some (inside, rest) => .ok inside { s with rest := rest }
    | none => .error (.endOfInput "')'") { s with rest := [] }

def warn (code : WarningCode) (message : String) (token : Token) : Parser Unit := fun s =>
  .ok () { s with warnings := s.warnings ++ [.atToken code message token] }

/-- The number of the bind parameter that the token spells. -/
def register (token : Token) : Parser Nat := fun s =>
  match s.parameters.register token.value with
  | .ok (number, parameters) => .ok number { s with parameters := parameters }
  | .error fault => .error (.atToken (.parameter fault) token) s

/-- Repeats `round` on its own results until it returns nothing. A round that reads no token is
the last one. -/
def loop (round : α → Parser (Option α)) (a : α) : Parser α := fun s =>
  match round a s with
  | .error e s' => .error e s'
  | .ok none s' => .ok a s'
  | .ok (some b) s' => if s'.rest.length < s.rest.length then loop round b s' else .ok b s'
termination_by s => s.rest.length

/-- One or more items with commas between them. -/
def separated (item : Parser α) : Parser (List α) := do
  let first ← item
  loop (fun items => do
    if ← eat "," then return some (items ++ [← item]) else return none) [first]

end Parser

/-- A fatal error and the warnings that were reported before it. -/
structure Failure where
  error : ParseError
  warnings : List Warning
  deriving DecidableEq, Repr

/-- The result of a parser on these tokens, with the warnings that it reported. -/
def Parser.run {α : Type} (p : Parser α) (tokens : List Token) :
    Except Failure (α × List Warning) :=
  match p { rest := tokens } with
  | .ok a s => .ok (a, s.warnings)
  | .error e s => .error ⟨e, s.warnings⟩

end SqliteSchema
