import SqliteSchema.Command

/-!
Reads the environment and the files, writes the report, and says on the error stream what went
wrong.
-/
namespace SqliteSchema.Command

def readFile (file : String) : IO (Except String String) := do
  try
    return .ok (← IO.FS.readFile file)
  catch
    | .noFileOrDirectory _ _ _ => return .error missingFile
    | e => return .error (toString e)

end SqliteSchema.Command

open SqliteSchema in
def main (args : List String) : IO UInt32 := do
  match Command.arguments args with
  | none =>
    IO.eprintln "usage: qschema SCHEMA [--query FILE]..."
    return 2
  | some (schema, queries) =>
    let settings := ["QSCHEMA_DENY_WARNINGS", "QSCHEMA_PRETTY"]
    let env ← settings.filterMapM fun name => return (← IO.getEnv name).map ((name, ·))
    let texts ← (schema :: queries).mapM fun file => return (file, ← Command.readFile file)
    let files (file : String) : Except String String :=
      (texts.lookup file).getD (.error Command.missingFile)
    match Command.run (env.lookup ·) files schema queries with
    | .ok text =>
      IO.print text
      return 0
    | .error e =>
      IO.eprintln e.message
      return 1
