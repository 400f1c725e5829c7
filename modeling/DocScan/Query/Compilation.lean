import DocScan.Filter.Display
import DocScan.Query
import DocScan.Query.Identifier

/-!
# Queries from filters

Every leaf becomes a clause under its field, a conjunction a clause under
`$and` and a disjunction one under `$or`.  The clauses of several filters are
merged into one query document.  Literals of identifiers are recognised where
the identifier field is compared with a text, and nowhere else.  The first
node, from left to right, that no query expresses is reported.
-/

namespace DocScan

/-- The field that identifies a document unless another one is configured. -/
def defaultIdField : String := "_id"

/-- Why filters have no query. -/
inductive CompileError where
  | notFilter (value : Value)
  | negation (node : Filter)
  | unknownNode
  | noOperator (name : String)
  | notText (t : Test)
  | invalidIdentifier (field literal : String)
  | merge (e : MergeError)
  deriving DecidableEq

namespace CompileError

/-- What is shown behind some words, unless it cannot be. -/
def showing (words : String) (shown : Option String) : String :=
  match shown with
  | some text => words ++ text
  | none => Decimal.limitMessage

def message : CompileError → String
  | .notFilter value => showing "Not a filter: " value.display?
  | .negation node => showing "Negation cannot be pushed down to MongoDB: " node.display?
  | .unknownNode => showing "Unsupported filter node: " Filter.unknown.display?
  | .noOperator name => "No MongoDB translation for operator '" ++ name ++ "'"
  | .notText t => "String operator " ++ t.text ++ " requires string value"
  | .invalidIdentifier field literal =>
    "Invalid ObjectId literal for " ++ field ++ ": " ++ literal
  | .merge e => e.message

/-- The operator at fault, for a filter that no query can express. -/
def operator? : CompileError → Option String
  | .negation _ => some Connective.not.text
  | .noOperator name => some name
  | _ => none

/-- How a filter is refused.  A clause that cannot be merged is not a refusal of
its filter, nor is a node that cannot be shown. -/
def refusal? (e : CompileError) : Option Refusal :=
  match e with
  | .notText _ | .invalidIdentifier _ _ => some .malformed
  | .merge _ => none
  | .notFilter value => value.display?.map fun _ => .unsupported e.operator?
  | .negation node => node.display?.map fun _ => .unsupported e.operator?
  | .unknownNode | .noOperator _ => some (.unsupported e.operator?)

end CompileError

/-- The value that a field is compared with: on the identifier field, a
literal of an identifier stands for that identifier. -/
def coerceIdentifier (idField field : String) (value : Value) :
    Except CompileError Value :=
  if field = idField then
    match value with
    | .text s =>
      match Identifier.read s with
      | .noLiteral => .ok value
      | .valid id => .ok (.objectId id)
      | .invalid => .error (.invalidIdentifier field s)
    | _ => .ok value
  else .ok value

/-- The families of leaf operators, by the queries they give. -/
inductive OperatorFamily where
  | comparison
  | membership
  | nullCheck
  | textMatch
  deriving DecidableEq, Repr

def Test.family : Test → OperatorFamily
  | .equal | .greater | .greaterOrEqual | .less | .lessOrEqual => .comparison
  | .startsWith | .endsWith | .contains => .textMatch

def LeafOperator.family : LeafOperator → OperatorFamily
  | .test t => t.family
  | .member => .membership
  | .isNull | .isNotNull => .nullCheck

namespace Clause

def operation (field operator : String) (operand : Value) : Clause :=
  ⟨field, .dict [(.text operator, operand)]⟩

/-- A comparison of a field, whose value may be an identifier literal. -/
def comparison (idField field operator : String) (value : Value) :
    Except CompileError Clause := do
  return operation field operator (← coerceIdentifier idField field value)

/-- A pattern that a field matches, built around a text as it stands. -/
def pattern (field : String) (t : Test) (before after : String) (value : Value) :
    Except CompileError Clause :=
  match value with
  | .text s => .ok (operation field "$regex" (.text (before ++ s ++ after)))
  | _ => .error (.notText t)

/-- The clause of a test of a field. -/
def ofTest (idField field : String) (t : Test) (value : Value) :
    Except CompileError Clause :=
  match t with
  | .equal => do return ⟨field, ← coerceIdentifier idField field value⟩
  | .greater => comparison idField field "$gt" value
  | .greaterOrEqual => comparison idField field "$gte" value
  | .less => comparison idField field "$lt" value
  | .lessOrEqual => comparison idField field "$lte" value
  | .startsWith => pattern field .startsWith "^" ".*$" value
  | .endsWith => pattern field .endsWith "^.*" "$" value
  | .contains => pattern field .contains ".*" ".*" value

/-- The clause of a leaf, from its operator, field and value. -/
def ofLeaf (idField field : String) (op : LeafOperator) (value : Value) :
    Except CompileError Clause :=
  match op with
  | .test t => ofTest idField field t value
  | .member => .ok (operation field "$in" (.list (value.items?.getD [value])))
  | .isNull => .ok ⟨field, .null⟩
  | .isNotNull => .ok (operation field "$ne" .null)

/-- The clause of a leaf whose operator is given by its text, if that names an
operator of the family. -/
def inFamily? (family : OperatorFamily) (idField field operator : String) (value : Value) :
    Except CompileError (Option Clause) :=
  match Operator.ofText? operator with
  | some (.leaf op) =>
    if op.family = family then do return some (← ofLeaf idField field op value)
    else .ok none
  | _ => .ok none

def ofFilter (idField : String) : Filter → Except CompileError Clause
  | .test t field value => ofTest idField field t value
  | .member field values => ofLeaf idField field .member (.list values)
  | .isNull field => ofLeaf idField field .isNull .null
  | .isNotNull field => ofLeaf idField field .isNotNull .null
  | .and l r => do
    let left ← ofFilter idField l
    let right ← ofFilter idField r
    return ⟨"$and", .list [left.toValue, right.toValue]⟩
  | .or l r => do
    let left ← ofFilter idField l
    let right ← ofFilter idField r
    return ⟨"$or", .list [left.toValue, right.toValue]⟩
  | .not child => .error (.negation (.not child))
  | .extension operator field value =>
    match Operator.ofText? operator with
    | some (.leaf op) => ofLeaf idField field op value
    | _ => .error (.noOperator operator)
  | .unknown => .error .unknownNode
  | .plain value => .error (.notFilter value)

end Clause

namespace Query

def restrict (idField : String) (q : Query) (f : Filter) : Except CompileError Query := do
  let clause ← Clause.ofFilter idField f
  match q.merge clause with
  | .ok merged => .ok merged
  | .error e => .error (.merge e)

/-- The query of the documents that satisfy all filters. -/
def ofFilters (idField : String) (filters : List Filter) : Except CompileError Query :=
  filters.foldlM (restrict idField) empty

end Query

end DocScan
