import DocScan.Value.Elements

/-!
# Filter trees

A filter constrains the documents of a scan.  A leaf constrains one
attribute: by a test against a value, by membership, or by the presence of a
null.  Conjunction and disjunction join two filters, and negation can be
expressed although no query carries it.

Three further kinds of node can stand in a tree without a query to express them:
a leaf of an extension, which brings the text of its own operator, a filter
of an unknown variant, and a plain value that is no filter at all.
-/

namespace DocScan

/-- The tests of an attribute against one value. -/
inductive Test where
  | equal
  | greater
  | greaterOrEqual
  | less
  | lessOrEqual
  | startsWith
  | endsWith
  | contains
  deriving DecidableEq, Repr

/-- The connectives that operators name. -/
inductive Connective where
  | and
  | or
  | not
  deriving DecidableEq, Repr

/-- The operators of leaves. -/
inductive LeafOperator where
  | test (t : Test)
  | member
  | isNull
  | isNotNull
  deriving DecidableEq, Repr

/-- The operators of filter nodes. -/
inductive Operator where
  | leaf (op : LeafOperator)
  | connective (c : Connective)
  deriving DecidableEq, Repr

/-- A filter tree. -/
inductive Filter where
  | test (t : Test) (field : String) (value : Value)
  | member (field : String) (values : List Value)
  | isNull (field : String)
  | isNotNull (field : String)
  | and (left right : Filter)
  | or (left right : Filter)
  | not (child : Filter)
  | extension (operator field : String) (value : Value)
  | unknown
  | plain (value : Value)
  deriving DecidableEq

def Test.text : Test → String
  | .equal => "="
  | .greater => ">"
  | .greaterOrEqual => ">="
  | .less => "<"
  | .lessOrEqual => "<="
  | .startsWith => "startswith"
  | .endsWith => "endswith"
  | .contains => "contains"

def Connective.text : Connective → String
  | .and => "and"
  | .or => "or"
  | .not => "not"

/-- The text that names the operator of a leaf. -/
def LeafOperator.text : LeafOperator → String
  | .test t => t.text
  | .member => "in"
  | .isNull => "is_null"
  | .isNotNull => "is_not_null"

namespace Operator

def text : Operator → String
  | .leaf op => op.text
  | .connective c => c.text

/-- The fourteen operators: comparisons, membership, null checks, text
matches, connectives. -/
def all : List Operator :=
  [.leaf (.test .equal), .leaf (.test .greater), .leaf (.test .greaterOrEqual),
    .leaf (.test .less), .leaf (.test .lessOrEqual), .leaf .member, .leaf .isNull,
    .leaf .isNotNull, .leaf (.test .startsWith), .leaf (.test .endsWith),
    .leaf (.test .contains), .connective .and, .connective .or, .connective .not]

def ofText? (name : String) : Option Operator := all.find? fun op => op.text = name

/-- The operator with the given name in any case. -/
def ofAnyCase? (name : String) : Option Operator :=
  ofText? (String.ofList (name.toList.map Char.toLower))

theorem ofText?_text (op : Operator) : ofText? op.text = some op := by
  rcases op with (t | _ | _ | _) | c
  · cases t <;> decide
  · decide
  · decide
  · decide
  · cases c <;> decide

theorem ofText?_eq_some_iff {name : String} {op : Operator} :
    ofText? name = some op ↔ op.text = name := by
  constructor
  · intro h
    unfold ofText? at h
    simpa using List.find?_some h
  · rintro rfl
    exact ofText?_text op

end Operator

/-- How a filter is refused: as one that queries do not support, with the
operator at fault if there is one, or as one that is malformed. -/
inductive Refusal where
  | unsupported (operator : Option String)
  | malformed
  deriving DecidableEq, Repr

namespace Filter

/-- The membership filter over the members of a value. -/
def memberOf (field : String) (values : Value) : Filter := .member field values.members

/-- The text of a node's operator.  A plain value has none. -/
def operatorText? : Filter → Option String
  | .test t _ _ => some t.text
  | .member _ _ => some LeafOperator.member.text
  | .isNull _ => some LeafOperator.isNull.text
  | .isNotNull _ => some LeafOperator.isNotNull.text
  | .and _ _ => some Connective.and.text
  | .or _ _ => some Connective.or.text
  | .not _ => some Connective.not.text
  | .extension operator _ _ => some operator
  | .unknown => some "opaque"
  | .plain _ => none

end Filter

end DocScan
