import SqliteSchema.Name

/-!
Bind parameters and their numbers. `?` takes the number after the highest one, `?N` takes `N`, and
a named parameter takes the number after the highest one where it is first written and keeps it.
-/
namespace SqliteSchema

/-- A bind parameter. `sqlName` is the spelling of a named one. -/
structure Parameter where
  number : Nat
  outputName : String
  sqlName : Option String
  deriving DecidableEq, Repr

namespace Parameter

/-- The spelling that a message shows. -/
def spelling (p : Parameter) : String := p.sqlName.getD s!"?{p.number}"

/-- The highest number that a parameter can have. -/
def maximum : Nat := 32766

end Parameter

inductive ParameterFault
  | noName (spelling : String)
  | notNumeric (spelling : String)
  | numberTooLarge (digits : String)
  | numberZero
  | aboveMaximum (number : Nat)
  | noNumberLeft (spelling : String)
  | nameTaken (spelling outputName other : String)
  deriving DecidableEq, Repr

namespace ParameterFault

def message : ParameterFault → String
  | noName s => s!"Parameter '{s}' has no name"
  | notNumeric s => s!"Parameter number in '{s}' must be a non-negative integer"
  | numberTooLarge ds => s!"Parameter number '{ds}' is too large"
  | numberZero => "Parameter numbers start at 1"
  | aboveMaximum n => s!"Parameter number {n} exceeds the maximum of {Parameter.maximum}"
  | noNumberLeft s =>
    s!"Parameter '{s}' would exceed the maximum parameter number {Parameter.maximum}"
  | nameTaken s name other =>
    s!"Parameter '{s}' has the same output name '{name}' as parameter '{other}'"

end ParameterFault

/-- The parameters of one statement text, in the order of their numbers, and the highest number in
use, which is zero where there is none. -/
structure Parameters where
  entries : List Parameter := []
  highest : Nat := 0
  deriving DecidableEq, Repr

namespace Parameters

def find? (ps : Parameters) (number : Nat) : Option Parameter :=
  ps.entries.find? (·.number == number)

/-- Adds a parameter in front of those with a number as high as its own. -/
def insert (ps : Parameters) (p : Parameter) : Parameters where
  entries :=
    ps.entries.takeWhile (·.number < p.number) ++ p :: ps.entries.dropWhile (·.number < p.number)
  highest := max ps.highest p.number

/-- Adds a parameter whose output name is free. -/
def add (ps : Parameters) (spelling : String) (p : Parameter) :
    Except ParameterFault (Nat × Parameters) :=
  match ps.entries.find? (·.outputName == p.outputName) with
  | some other => .error (.nameTaken spelling p.outputName other.spelling)
  | none => .ok (p.number, ps.insert p)

/-- Adds a parameter under the number after the highest one. -/
def addNext (ps : Parameters) (spelling : String) (outputName : Nat → String)
    (sqlName : Option String) : Except ParameterFault (Nat × Parameters) :=
  let number := ps.highest + 1
  if number ≤ Parameter.maximum then
    ps.add spelling ⟨number, outputName number, sqlName⟩
  else .error (.noNumberLeft spelling)

/-- The output name of a parameter without a name of its own. -/
def numberedName (number : Nat) : String := s!"param{number}"

def decimalValue (digits : List Char) : Nat :=
  digits.foldl (fun n c => 10 * n + (c.toNat - '0'.toNat)) 0

/-- Numbers are read into 32 bits before they are compared with the maximum. -/
def addNumbered (ps : Parameters) (spelling : String) (digits : List Char) :
    Except ParameterFault (Nat × Parameters) :=
  let number := decimalValue digits
  if digits.isEmpty || !digits.all Char.isDigit then .error (.notNumeric spelling)
  else if UInt32.size ≤ number then .error (.numberTooLarge (String.ofList digits))
  else if number = 0 then .error .numberZero
  else if Parameter.maximum < number then .error (.aboveMaximum number)
  else if (ps.find? number).isSome then .ok (number, ps)
  else ps.add spelling ⟨number, numberedName number, none⟩

/-- The sign in front of a name is no part of it, whichever character it is. -/
def addNamed (ps : Parameters) (spelling : String) (name : List Char) :
    Except ParameterFault (Nat × Parameters) :=
  if name.isEmpty then .error (.noName spelling) else
  match ps.entries.find? (·.sqlName == some spelling) with
  | some p => .ok (p.number, ps)
  | none => ps.addNext spelling (fun _ => Name.parameter (String.ofList name)) (some spelling)

/-- The number of the parameter that is spelled so, and the parameters with it. -/
def register (ps : Parameters) (spelling : String) : Except ParameterFault (Nat × Parameters) :=
  match spelling.toList with
  | ['?'] => ps.addNext spelling numberedName none
  | '?' :: digits => ps.addNumbered spelling digits
  | cs => ps.addNamed spelling cs.tail

end Parameters

end SqliteSchema
