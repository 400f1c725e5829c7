import DocScan.Value

/-!
# Projections

A projection says which fields of a document are returned.  Without requested
fields there is none, and every field is returned.
-/

namespace DocScan

/-- The fields of a projection, each included or left out, in order. -/
abbrev Projection := List (String × Bool)

namespace Projection

/-- The projection onto the requested fields: each of them once, in the order
of first mention, and last the identifier, which is left out unless it is
requested. -/
def ofFields (idField : String) (fields : List String) : Projection :=
  if fields.isEmpty then []
  else
    ((fields.filter (· ≠ idField)).eraseDups.map fun field => (field, true))
      ++ [(idField, fields.contains idField)]

/-- The projection onto the requested fields, unless it is empty. -/
def ofFields? (idField : String) (fields : List String) : Option Projection :=
  match ofFields idField fields with
  | [] => none
  | projection => some projection

/-- A projection as a document, with 1 for a field that is included. -/
def toValue (p : Projection) : Value :=
  .dict (p.map fun (field, included) => (.text field, .int (if included then 1 else 0)))

end Projection

end DocScan
