namespace SqliteSchema

/-- The kinds of fatal errors. -/
inductive ErrorCode
  | unexpectedCharacter | unterminatedString | unterminatedIdentifier | unterminatedComment
  | invalidBlobLiteral | invalidNumericLiteral
  | unexpectedEndOfInput | unexpectedToken | unsupportedSyntax | duplicateClause
  | duplicateTable | duplicateColumn | unknownTable | unknownColumn
  | duplicatePrimaryKey | duplicateUniqueConstraint | invalidAutoIncrement
  | foreignKeyMismatch | constraintOrder | invalidTableOption
  | invalidParameter | parameterNameCollision | ambiguousColumn | unsupportedResultColumn
  deriving DecidableEq, Repr

/-- The stable name that tools filter by. -/
def ErrorCode.text : ErrorCode → String
  | unexpectedCharacter => "QS-E001"
  | unterminatedString => "QS-E002"
  | unterminatedIdentifier => "QS-E003"
  | unterminatedComment => "QS-E004"
  | invalidBlobLiteral => "QS-E005"
  | invalidNumericLiteral => "QS-E006"
  | unexpectedEndOfInput => "QS-E010"
  | unexpectedToken => "QS-E011"
  | unsupportedSyntax => "QS-E012"
  | duplicateClause => "QS-E013"
  | duplicateTable => "QS-E020"
  | duplicateColumn => "QS-E021"
  | unknownTable => "QS-E022"
  | unknownColumn => "QS-E023"
  | duplicatePrimaryKey => "QS-E024"
  | duplicateUniqueConstraint => "QS-E025"
  | invalidAutoIncrement => "QS-E026"
  | foreignKeyMismatch => "QS-E027"
  | constraintOrder => "QS-E028"
  | invalidTableOption => "QS-E029"
  | invalidParameter => "QS-E030"
  | parameterNameCollision => "QS-E031"
  | ambiguousColumn => "QS-E032"
  | unsupportedResultColumn => "QS-E033"

/-- The kinds of warnings. The last one is for users of the model; no parser reports it. -/
inductive WarningCode
  | unknownCollation | collateOnNonText | matchNotEnforced | generatedRecordTypeMismatch
  deriving DecidableEq, Repr

namespace WarningCode

/-- The stable name that tools filter by. -/
def text : WarningCode → String
  | unknownCollation => "QS-W001"
  | collateOnNonText => "QS-W002"
  | matchNotEnforced => "QS-W003"
  | generatedRecordTypeMismatch => "QS-W004"

/-- The name in reports. -/
def name : WarningCode → String
  | unknownCollation => "UnknownCollation"
  | collateOnNonText => "CollateOnNonText"
  | matchNotEnforced => "MatchNotEnforced"
  | generatedRecordTypeMismatch => "GeneratedRecordTypeMismatch"

end WarningCode

end SqliteSchema
