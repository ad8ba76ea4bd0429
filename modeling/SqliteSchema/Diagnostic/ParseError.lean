import SqliteSchema.Diagnostic.Fault

namespace SqliteSchema

/-- A fatal error. It has no token where the text could not be cut into tokens, and no position
either where the tokens ran out. -/
structure ParseError where
  code : ErrorCode
  message : String
  token : Option Token
  position : Option Position
  deriving DecidableEq, Repr

namespace ParseError

/-- An error at a token. -/
def ofToken (code : ErrorCode) (message : String) (token : Token) : ParseError :=
  ⟨code, message, some token, some token.position⟩

/-- An error at a character that belongs to no token yet. -/
def ofPosition (code : ErrorCode) (message : String) (position : Position) : ParseError :=
  ⟨code, message, none, some position⟩

/-- The tokens ran out where something was still required. -/
def endOfInput (expected : String) : ParseError :=
  let fault := Fault.endOfInput expected
  ⟨fault.code, fault.message, none, none⟩

def atToken (fault : Fault) (token : Token) : ParseError :=
  .ofToken fault.code fault.message token

def atPosition (fault : Fault) (position : Position) : ParseError :=
  .ofPosition fault.code fault.message position

/-- A token stands where something else was required. -/
def unexpected (expected : String) (found : Token) : ParseError :=
  .atToken (.unexpected expected found.value) found

def text (e : ParseError) : String :=
  s!"{e.code.text}: {e.message} at " ++ (e.position.map Position.text).getD "end of input"

end ParseError

end SqliteSchema
