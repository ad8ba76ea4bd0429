import SqliteSchema.Parser.Basic

/-!
Values and type names: what may stand where no expression is needed.
-/
namespace SqliteSchema.Parser

/-- Keywords that are values. -/
def literalKeywords : List Keyword :=
  [.NULL, .TRUE, .FALSE, .CURRENT_TIME, .CURRENT_DATE, .CURRENT_TIMESTAMP]

def isLiteralValue (t : Token) : Bool := t.isLiteral || literalKeywords.any t.isKeyword

def literalValue : Parser (Option Token) := accept isLiteralValue

/-- A number, and the sign in front of it. A sign without a number is an error. -/
def signedNumber : Parser (Option String) := do
  match ← accept fun t => t.is "+" || t.is "-" with
  | some sign =>
    let number ← require "a numeric literal" (·.kind == .number)
    return some (sign.value ++ number.value)
  | none => return (← accept (·.kind == .number)).map (·.value)

/-- Keywords that start a column constraint and are no part of a type name. -/
def constraintStarts : List Keyword :=
  [.CONSTRAINT, .PRIMARY, .NOT, .NULL, .UNIQUE, .CHECK, .DEFAULT, .COLLATE, .REFERENCES,
   .GENERATED, .AS]

def isTypeWord (t : Token) : Bool := t.isIdentifier && !constraintStarts.any t.isKeyword

def typeSize : Parser String := do
  match ← signedNumber with
  | some number => return number
  | none => fail (.unexpected "a type size" (← current "a type size"))

/-- One or two sizes in parentheses, if there are any. -/
def typeSizes : Parser String := do
  if ← eat "(" then
    let first ← typeSize
    if ← eat "," then
      let second ← typeSize
      let _ ← expect ")"
      return s!"({first},{second})"
    else
      let _ ← expect ")"
      return s!"({first})"
  else return ""

/-- Words with a space between them and sizes without, such as `unsigned big int` or
`DECIMAL(10,5)`. -/
def typeName : Parser (Option String) := do
  let words ← loop (fun words => do
    return (← accept isTypeWord).map fun t => words ++ [t.value]) []
  if words.isEmpty then return none
  else return some (" ".intercalate words ++ (← typeSizes))

def builtinCollations : List String := ["BINARY", "NOCASE", "RTRIM"]

def warnUnknownCollation (name : String) (token : Token) : Parser Unit :=
  if builtinCollations.any (sameName · name) then pure ()
  else warn .unknownCollation s!"Unknown collation '{name}'" token

def warnNotText (name : String) (token : Token) : Option Affinity → Parser Unit
  | some .text => pure ()
  | some affinity =>
    warn .collateOnNonText
      s!"COLLATE {name} applied to a column with {affinity.display} affinity" token
  | none => pure ()

/-- The name behind `COLLATE`, which may apply to a column of some affinity. -/
def collation (affinity : Option Affinity) : Parser String := do
  let token ← expectIdentifier "a collation name"
  let name := token.unquoted
  warnUnknownCollation name token
  warnNotText name token affinity
  return name

end SqliteSchema.Parser
