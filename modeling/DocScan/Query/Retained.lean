import DocScan.Query.Compilation

/-!
# Filters after a compilation

An equality on `$and` with a list hands that very list to the query, when it
is the first to put something under `$and`.  Clauses that join it there later
are then part of the filter's list as well, and the next compilation of the
same filters starts from the longer list.  No other filter is changed by a
compilation.
-/

namespace DocScan

/-- The filter with another list, if it is an equality on `$and` with one. -/
def Filter.withConjunction (clauses : Value) : Filter → Filter
  | .test .equal field (.list items) =>
    .test .equal field (if field = "$and" then clauses else .list items)
  | .extension operator field (.list items) =>
    .extension operator field
      (if operator = Test.equal.text ∧ field = "$and" then clauses else .list items)
  | f => f

namespace Query

/-- The filters with a conjunction in the one that began it, given the query
that the filters before them make. -/
def retainFrom (idField : String) (clauses : Value) (before : Query) : List Filter → List Filter
  | [] => []
  | f :: rest =>
    if (before.find? "$and").isSome then f :: rest
    else
      match Clause.ofFilter idField f, restrict idField before f with
      | .ok clause, .ok after =>
        if clause.key = "$and" then f.withConjunction clauses :: rest
        else f :: retainFrom idField clauses after rest
      | _, _ => f :: rest

/-- The filters as the compilation into a query leaves them. -/
def retained (idField : String) (q : Query) (filters : List Filter) : List Filter :=
  match q.find? "$and" with
  | some clauses => retainFrom idField clauses empty filters
  | none => filters

end Query

end DocScan
