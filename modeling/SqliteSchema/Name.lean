import SqliteSchema.Text.CaseMapping
import SqliteSchema.Text.Lowercase
import SqliteSchema.Text.Numeric

/-!
Names for generated code. The output name of `email_address` is `EmailAddress`, that of
`[first name]` is `FirstName` and that of `ID` is `Id`.
-/
namespace SqliteSchema.Name

/-- The longest runs of alphanumeric characters. -/
def parts (cs : List Char) : List (List Char) :=
  match _h : cs.dropWhile (!Text.isAlphanumeric ·) with
  | [] => []
  | c :: rest =>
    (c :: rest.takeWhile Text.isAlphanumeric) :: parts (rest.dropWhile Text.isAlphanumeric)
termination_by cs.length
decreasing_by
  have h₁ := congrArg List.length _h
  have h₂ := (List.dropWhile_suffix (!Text.isAlphanumeric ·) (l := cs)).length_le
  have h₃ := (List.dropWhile_suffix Text.isAlphanumeric (l := rest)).length_le
  simp only [List.length_cons] at h₁
  omega

/-- A part of several characters without a small letter is written small, and then the first
character becomes a capital. -/
def capitalize (part : List Char) : List Char :=
  match if part.length > 1 && !part.any Text.isLowercase then Text.lowercase part else part with
  | [] => []
  | c :: rest => Text.upper c ++ rest

/-- An identifier in capitalized words. An underscore goes in front of a name that would be
empty or start with a digit. -/
def output (name : String) : String :=
  let text := ((parts name.toList).map capitalize).flatten
  String.ofList (if text.head?.all Char.isDigit then '_' :: text else text)

/-- The output name with a small first letter. -/
def parameter (name : String) : String :=
  match (output name).toList with
  | [] => ""
  | c :: rest => String.ofList (Text.lower c ++ rest)

end SqliteSchema.Name
