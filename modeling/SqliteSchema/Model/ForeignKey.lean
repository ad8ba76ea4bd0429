namespace SqliteSchema

/-- What happens to a row whose referenced row goes away or changes. -/
inductive ReferentialAction
  | noAction | restrict | setNull | setDefault | cascade
  deriving DecidableEq, Repr

/-- Columns of a table that refer to columns of the table with index `foreignTable`; columns are
given by their indices. -/
structure ForeignKey where
  columns : List Nat
  foreignTable : Nat
  foreignColumns : List Nat
  onDelete : ReferentialAction
  onUpdate : ReferentialAction
  deriving DecidableEq, Repr

end SqliteSchema
