/-!
Documents of nested arrays and objects whose members keep their order, written compactly or with
one element on a line.
-/
namespace SqliteSchema

inductive Document
  | null
  | bool (b : Bool)
  | number (n : Nat)
  | string (s : String)
  | array (items : List Document)
  | object (members : List (String × Document))

namespace Document

def hexDigit (n : Nat) : Char :=
  if n < 10 then Char.ofNat ('0'.toNat + n) else Char.ofNat ('a'.toNat + (n - 10))

/-- Quotes, backslashes and control characters are escaped, all others stand for themselves. -/
def escape (c : Char) : List Char :=
  if c = '"' then ['\\', '"']
  else if c = '\\' then ['\\', '\\']
  else if c = '\n' then ['\\', 'n']
  else if c = '\r' then ['\\', 'r']
  else if c = '\t' then ['\\', 't']
  else if c = '\x08' then ['\\', 'b']
  else if c = '\x0c' then ['\\', 'f']
  else if c.toNat < 0x20 then
    ['\\', 'u', '0', '0', hexDigit (c.toNat / 16), hexDigit (c.toNat % 16)]
  else [c]

def quote (s : String) : String :=
  String.ofList ('"' :: s.toList.flatMap escape ++ ['"'])

def leaf (d : Document) : String :=
  match d with
  | .bool true => "true"
  | .bool false => "false"
  | .number n => toString n
  | .string s => quote s
  | _ => "null"

mutual

/-- Without white space. -/
def compact : Document → String
  | .array items => "[" ++ ",".intercalate (compactItems items) ++ "]"
  | .object members => "\x7b" ++ ",".intercalate (compactMembers members) ++ "\x7d"
  | d => leaf d

def compactItems : List Document → List String
  | [] => []
  | d :: rest => compact d :: compactItems rest

def compactMembers : List (String × Document) → List String
  | [] => []
  | (key, d) :: rest => (quote key ++ ":" ++ compact d) :: compactMembers rest

end

/-- Two spaces for each level. -/
def indent (depth : Nat) : String := String.ofList (List.replicate (2 * depth) ' ')

/-- Lines between brackets, one level deeper than the brackets. -/
def block (depth : Nat) (opening closing : String) (lines : List String) : String :=
  if lines.isEmpty then opening ++ closing
  else
    opening ++ "\n" ++ ",\n".intercalate (lines.map (indent (depth + 1) ++ ·)) ++
      "\n" ++ indent depth ++ closing

mutual

/-- With one element or member on a line. -/
def pretty (depth : Nat) : Document → String
  | .array items => block depth "[" "]" (prettyItems (depth + 1) items)
  | .object members => block depth "\x7b" "\x7d" (prettyMembers (depth + 1) members)
  | d => leaf d

def prettyItems (depth : Nat) : List Document → List String
  | [] => []
  | d :: rest => pretty depth d :: prettyItems depth rest

def prettyMembers (depth : Nat) : List (String × Document) → List String
  | [] => []
  | (key, d) :: rest => (quote key ++ ": " ++ pretty depth d) :: prettyMembers depth rest

end

end Document

end SqliteSchema
