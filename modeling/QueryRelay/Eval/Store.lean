import QueryRelay.Error
import QueryRelay.Expr.Ty

/-!
# Stores

A data source answers the elements of a type. A store is the data source that holds the rows of
records by name.
-/

namespace QueryRelay

/-- What answers the elements of a type. -/
abbrev DataSource := Ty → Except Error (List Value)

/-- Rows by the name of their record. -/
structure Store where
  /-- The tables. -/
  tables : Fields (List Value)
deriving Inhabited

namespace Store

/-- The store without tables. -/
def empty : Store := ⟨[]⟩

/-- Set the rows of a record. -/
def insert (s : Store) (record : String) (rows : List Value) : Store :=
  ⟨Fields.insert s.tables record rows⟩

/-- The rows of a record type; other types have no table. -/
def elements (s : Store) : DataSource
  | .record name =>
    match Fields.get? s.tables name with
    | some rows => .ok rows
    | none => .error (.execution (.noData name))
  | t => .error (.execution (.notQueryable t.render))

end Store
end QueryRelay
