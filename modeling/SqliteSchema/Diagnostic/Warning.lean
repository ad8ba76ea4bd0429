import SqliteSchema.Diagnostic.Code
import SqliteSchema.Token

namespace SqliteSchema

/-- A remark on a text that is accepted. -/
structure Warning where
  code : WarningCode
  message : String
  position : Option Position
  deriving DecidableEq, Repr

namespace Warning

def atToken (code : WarningCode) (message : String) (token : Token) : Warning :=
  ⟨code, message, some token.position⟩

def text (w : Warning) : String :=
  s!"{w.code.text}: {w.message}" ++ (w.position.map (" at " ++ ·.text)).getD ""

end Warning

end SqliteSchema
