import SqliteSchema.Report.Encode

/-!
The command line: a schema file and any number of query files, and two settings from the
environment.
-/
namespace SqliteSchema

inductive CommandError
  | setting (field key value : String)
  | unreadable (reason : String)
  | parse (error : ParseError)
  | deniedWarnings (count : Nat)
  deriving DecidableEq, Repr

def CommandError.message : CommandError → String
  | setting field key value =>
    s!"Configuration error: failed to deserialize value \x60Config::{field}\x60 from " ++
      s!"environment variable \x60{key}\x60: invalid value for bool: '{value}'"
  | unreadable reason => s!"I/O error: {reason}"
  | parse error => s!"Parse error: {error.text}"
  | deniedWarnings count => s!"{count} warning(s) reported while warnings are denied"

namespace Command

/-- The query files behind the schema file. -/
def queryFiles : List String → Option (List String)
  | [] => some []
  | "--query" :: file :: rest => (queryFiles rest).map (file :: ·)
  | "-q" :: file :: rest => (queryFiles rest).map (file :: ·)
  | _ => none

/-- The schema file and the query files of a command line. -/
def arguments : List String → Option (String × List String)
  | [] => none
  | "--query" :: file :: rest => (arguments rest).map fun (schema, files) => (schema, file :: files)
  | "-q" :: file :: rest => (arguments rest).map fun (schema, files) => (schema, file :: files)
  | schema :: rest => (queryFiles rest).map fun files => (schema, files)

structure Settings where
  denyWarnings : Bool
  pretty : Bool
  deriving DecidableEq, Repr

def trim (s : String) : String :=
  String.ofList ((s.toList.dropWhile Text.isWhiteSpace).reverse.dropWhile Text.isWhiteSpace).reverse

/-- A truth value in a word, without regard to ASCII case. -/
def truth? (word : String) : Option Bool :=
  if ["1", "true", "yes"].any (sameName word) then some true
  else if ["0", "false", "no"].any (sameName word) then some false
  else none

/-- A setting that is unset or empty has its default value. -/
def setting (env : String → Option String) (field key : String) (default : Bool) :
    Except CommandError Bool :=
  match (env key).filter (!·.isEmpty) with
  | none => .ok default
  | some value =>
    match truth? (trim value) with
    | some b => .ok b
    | none => .error (.setting field key (trim value))

def settings (env : String → Option String) : Except CommandError Settings := do
  let denyWarnings ← setting env "deny_warnings" "QSCHEMA_DENY_WARNINGS" false
  let pretty ← setting env "pretty" "QSCHEMA_PRETTY" true
  return { denyWarnings, pretty }

/-- What is said of a file that does not exist. -/
def missingFile : String := "No such file or directory (os error 2)"

/-- The contents of a file, or why there are none. -/
abbrev Files := String → Except String String

def read (files : Files) (file : String) : Except CommandError String :=
  (files file).mapError .unreadable

def parsed {α : Type} (result : Except Failure α) : Except CommandError α :=
  result.mapError fun failure => .parse failure.error

/-- The queries of these files with their names, and all their warnings in order. -/
def queries (files : Files) (registry : Registry) :
    List String → Except CommandError (List (String × Query) × List Warning)
  | [] => .ok ([], [])
  | file :: rest => do
    let text ← read files file
    let (query, warnings) ← parsed (Query.ofText registry text)
    let (others, more) ← queries files registry rest
    return ((file, query) :: others, warnings ++ more)

/-- The text that is written for a schema file and query files. -/
def run (env : String → Option String) (files : Files) (schema : String)
    (queryFiles : List String) : Except CommandError String := do
  let settings ← settings env
  let text ← read files schema
  let (registry, warnings) ← parsed (Registry.ofText text)
  let (queries, more) ← queries files registry queryFiles
  let warnings := warnings ++ more
  if settings.denyWarnings && !warnings.isEmpty then .error (.deniedWarnings warnings.length)
  else
    let report := Report.report registry queries warnings
    return (if settings.pretty then report.pretty 0 else report.compact) ++ "\n"

end Command

end SqliteSchema
