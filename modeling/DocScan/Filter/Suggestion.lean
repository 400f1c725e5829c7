import DocScan.Text.Similarity

/-!
# Suggestions for a misspelt operator

A report of an operator that is not known ends with the close matches among
the known ones, if there are any.
-/

namespace DocScan

/-- The operators to suggest in place of one that may be misspelt. -/
def suggestions (operator : Option String) (known : List String) : List String :=
  match operator with
  | some word => Similarity.closeMatches word known
  | none => []

def withSuggestions (message : String) (suggestions : List String) : String :=
  if suggestions.isEmpty then message
  else message ++ " Did you mean: " ++ String.intercalate ", " suggestions ++ "?"

end DocScan
