import DocScan.Query.Compilation
import Mathlib.Tactic

/-!
# Atomic constraints

A leaf of a filter tree constrains one field in one way.  The constraint is
read off the leaf here without going through queries.  Compiling a leaf writes
down exactly its constraint, so every compiled filter has one of three shapes:
the clause of a leaf's constraint, a conjunction of two compiled filters, or a
disjunction of two.
-/

namespace DocScan

/-- How an atomic constraint compares its field: by plain equality, or by an
operator that is named in the query. -/
inductive Comparison where
  | equality
  | operator (name : String)
  deriving DecidableEq

/-- A constraint of one field by one comparison. -/
structure Atom where
  field : String
  comparison : Comparison
  operand : Value
  deriving DecidableEq

def Atom.clause (a : Atom) : Clause :=
  match a.comparison with
  | .equality => ⟨a.field, a.operand⟩
  | .operator name => .operation a.field name a.operand

@[simp] theorem Atom.clause_key (a : Atom) : a.clause.key = a.field := by
  unfold Atom.clause
  split <;> rfl

/-- The constraint of a leaf.  A value on the identifier field may be a
literal, members stay as they are, and a text test needs a text; where a
leaf's value does not fit its operator there is none. -/
def Atom.ofLeaf? (idField field : String) (op : LeafOperator) (value : Value) :
    Option Atom :=
  let coerced := (coerceIdentifier idField field value).toOption
  let compared := fun name => coerced.map fun v => Atom.mk field (.operator name) v
  let matched := fun (before after : String) =>
    match value with
    | .text s => some (Atom.mk field (.operator "$regex") (.text (before ++ s ++ after)))
    | _ => none
  match op with
  | .test .equal => coerced.map fun v => ⟨field, .equality, v⟩
  | .test .greater => compared "$gt"
  | .test .greaterOrEqual => compared "$gte"
  | .test .less => compared "$lt"
  | .test .lessOrEqual => compared "$lte"
  | .test .startsWith => matched "^" ".*$"
  | .test .endsWith => matched "^.*" "$"
  | .test .contains => matched ".*" ".*"
  | .member => some ⟨field, .operator "$in", .list (value.items?.getD [value])⟩
  | .isNull => some ⟨field, .equality, .null⟩
  | .isNotNull => some ⟨field, .operator "$ne", .null⟩

namespace Filter

def atom? (idField : String) : Filter → Option Atom
  | .test t field value => Atom.ofLeaf? idField field (.test t) value
  | .member field values => Atom.ofLeaf? idField field .member (.list values)
  | .isNull field => Atom.ofLeaf? idField field .isNull .null
  | .isNotNull field => Atom.ofLeaf? idField field .isNotNull .null
  | .extension operator field value =>
    match Operator.ofText? operator with
    | some (.leaf op) => Atom.ofLeaf? idField field op value
    | _ => none
  | .and _ _ | .or _ _ | .not _ | .unknown | .plain _ => none

def attributes : Filter → List String
  | .test _ field _ | .member field _ | .isNull field | .isNotNull field => [field]
  | .extension _ field _ => [field]
  | .and left right | .or left right => attributes left ++ attributes right
  | .not child => attributes child
  | .unknown | .plain _ => []

/-- The values that the leaves ask a field to be equal to. -/
def equated : Filter → List Value
  | .test .equal _ value => [value]
  | .extension operator _ value => if operator = Test.equal.text then [value] else []
  | .and left right | .or left right => equated left ++ equated right
  | .not child => equated child
  | .test _ _ _ | .member _ _ | .isNull _ | .isNotNull _ | .unknown | .plain _ => []

/-- No leaf of the filter has the name of a connective of queries as its
attribute. -/
def NamesFields (f : Filter) : Prop :=
  ∀ name ∈ f.attributes, name ≠ "$and" ∧ name ≠ "$or"

/-- No leaf of the filter asks a field to be equal to a dictionary that reads
as operators. -/
def EquatesValues (f : Filter) : Prop :=
  ∀ value ∈ f.equated, value.operators? = none

end Filter

/-! ## Coercion and leaves -/

theorem coerceIdentifier_eq_or_objectId {idField field : String} {value coerced : Value}
    (h : coerceIdentifier idField field value = .ok coerced) :
    coerced = value ∨ ∃ id, coerced = .objectId id := by
  unfold coerceIdentifier at h
  split at h
  · split at h
    · split at h
      · left
        exact (Except.ok.inj h).symm
      · right
        exact ⟨_, (Except.ok.inj h).symm⟩
      · contradiction
    · left
      exact (Except.ok.inj h).symm
  · left
    exact (Except.ok.inj h).symm

theorem Clause.comparison_eq_ok_iff {idField field operator : String} {value : Value}
    {c : Clause} :
    Clause.comparison idField field operator value = .ok c ↔
      ∃ v, coerceIdentifier idField field value = .ok v ∧
        Clause.operation field operator v = c := by
  unfold Clause.comparison
  cases coerceIdentifier idField field value with
  | error e => simp [bind, Except.bind]
  | ok v => simp [bind, Except.bind, pure, Except.pure]

/-- Compiling a leaf succeeds exactly when it has a constraint, and writes
that constraint down. -/
theorem Clause.ofLeaf_eq_ok_iff {idField field : String} {op : LeafOperator} {value : Value}
    {c : Clause} :
    Clause.ofLeaf idField field op value = .ok c ↔
      ∃ a, Atom.ofLeaf? idField field op value = some a ∧ a.clause = c := by
  have hcoerced : ∀ v, (coerceIdentifier idField field value).toOption = some v ↔
      coerceIdentifier idField field value = .ok v := by
    intro v
    cases coerceIdentifier idField field value <;> simp [Except.toOption]
  cases op with
  | test t =>
    cases t with
    | equal =>
      cases hvalue : coerceIdentifier idField field value with
      | error e => simp [ofLeaf, ofTest, Atom.ofLeaf?, hvalue, bind, Except.bind, Except.toOption]
      | ok v =>
        simp [ofLeaf, ofTest, Atom.ofLeaf?, Atom.clause, hvalue, bind, Except.bind, pure,
          Except.pure, Except.toOption]
    | greater | greaterOrEqual | less | lessOrEqual =>
      simp only [ofLeaf, ofTest, Atom.ofLeaf?, comparison_eq_ok_iff, Option.map_eq_some_iff,
        hcoerced]
      constructor
      · rintro ⟨v, hv, rfl⟩
        exact ⟨_, ⟨v, hv, rfl⟩, rfl⟩
      · rintro ⟨_, ⟨v, hv, rfl⟩, rfl⟩
        exact ⟨v, hv, rfl⟩
    | startsWith | endsWith | contains =>
      cases value <;> simp [ofLeaf, ofTest, pattern, Atom.ofLeaf?, Atom.clause]
  | member | isNull | isNotNull => simp [ofLeaf, Atom.ofLeaf?, Atom.clause]

/-! ## What leaves can ask for -/

def Comparison.operatorNames : List String :=
  ["$gt", "$gte", "$lt", "$lte", "$in", "$ne", "$regex"]

/-- The constraint of a leaf is on its field, and it is either an operator of
queries, or an equality with the coerced value or with null. -/
theorem Atom.ofLeaf?_cases {idField field : String} {op : LeafOperator} {value : Value}
    {a : Atom} (h : Atom.ofLeaf? idField field op value = some a) :
    a.field = field ∧
      ((∃ name ∈ Comparison.operatorNames, a.comparison = .operator name) ∨
        (a.comparison = .equality ∧ op = .test .equal ∧
          coerceIdentifier idField field value = .ok a.operand) ∨
        (a.comparison = .equality ∧ op = .isNull ∧ a.operand = .null)) := by
  cases op with
  | test t =>
    cases t with
    | equal =>
      cases hvalue : coerceIdentifier idField field value with
      | error e => simp [ofLeaf?, hvalue, Except.toOption] at h
      | ok v =>
        simp only [ofLeaf?, hvalue, Except.toOption, Option.map_some, Option.some.injEq] at h
        subst h
        exact ⟨rfl, .inr (.inl ⟨rfl, rfl, rfl⟩)⟩
    | greater | greaterOrEqual | less | lessOrEqual =>
      simp only [ofLeaf?, Option.map_eq_some_iff] at h
      obtain ⟨v, -, rfl⟩ := h
      exact ⟨rfl, .inl ⟨_, by decide, rfl⟩⟩
    | startsWith | endsWith | contains =>
      cases value with
      | text s =>
        simp only [ofLeaf?, Option.some.injEq] at h
        subst h
        exact ⟨rfl, .inl ⟨_, by decide, rfl⟩⟩
      | _ => simp [ofLeaf?] at h
  | member | isNotNull =>
    simp only [ofLeaf?, Option.some.injEq] at h
    subst h
    exact ⟨rfl, .inl ⟨_, by decide, rfl⟩⟩
  | isNull =>
    simp only [ofLeaf?, Option.some.injEq] at h
    subst h
    exact ⟨rfl, .inr (.inr ⟨rfl, rfl, rfl⟩)⟩

namespace Filter

variable {idField : String} {f : Filter} {a : Atom}

theorem leaf_of_atom? (h : f.atom? idField = some a) :
    ∃ field op value, Atom.ofLeaf? idField field op value = some a ∧
      f.attributes = [field] ∧ (op = .test .equal → f.equated = [value]) := by
  cases f with
  | test t field value =>
    refine ⟨field, .test t, value, h, rfl, ?_⟩
    rintro ⟨⟩
    rfl
  | member field values => exact ⟨field, .member, .list values, h, rfl, by simp⟩
  | isNull field => exact ⟨field, .isNull, .null, h, rfl, by simp⟩
  | isNotNull field => exact ⟨field, .isNotNull, .null, h, rfl, by simp⟩
  | extension operator field value =>
    simp only [atom?] at h
    split at h
    · rename_i op hop
      refine ⟨field, op, value, h, rfl, ?_⟩
      rintro rfl
      have htext : Test.equal.text = operator := Operator.ofText?_eq_some_iff.mp hop
      simp [equated, htext]
    · contradiction
  | and | or | not | unknown | plain => simp [atom?] at h

theorem field_mem_attributes (h : f.atom? idField = some a) : a.field ∈ f.attributes := by
  obtain ⟨field, op, value, hleaf, hattributes, -⟩ := leaf_of_atom? h
  rw [hattributes, (Atom.ofLeaf?_cases hleaf).1]
  exact List.mem_singleton.mpr rfl

theorem operator_mem_operatorNames {name : String} (h : f.atom? idField = some a)
    (hname : a.comparison = .operator name) : name ∈ Comparison.operatorNames := by
  obtain ⟨field, op, value, hleaf, -, -⟩ := leaf_of_atom? h
  obtain ⟨-, ⟨other, hmem, hother⟩ | ⟨hequal, -⟩ | ⟨hequal, -⟩⟩ := Atom.ofLeaf?_cases hleaf
  · rw [hother] at hname
    cases hname
    exact hmem
  · rw [hequal] at hname
    contradiction
  · rw [hequal] at hname
    contradiction

/-- Coercion turns no plain value into a dictionary of operators. -/
theorem operators?_operand (h : f.atom? idField = some a) (hf : f.EquatesValues)
    (hequality : a.comparison = .equality) : a.operand.operators? = none := by
  obtain ⟨field, op, value, hleaf, -, hequated⟩ := leaf_of_atom? h
  obtain ⟨-, ⟨name, -, hname⟩ | ⟨-, hop, hcoerced⟩ | ⟨-, -, hnull⟩⟩ := Atom.ofLeaf?_cases hleaf
  · rw [hname] at hequality
    contradiction
  · have hvalue : value.operators? = none := by
      apply hf
      rw [hequated hop]
      exact List.mem_singleton.mpr rfl
    rcases coerceIdentifier_eq_or_objectId hcoerced with heq | ⟨id, heq⟩
    · rw [heq]
      exact hvalue
    · rw [heq]
      rfl
  · rw [hnull]
    rfl

end Filter

/-! ## The shapes of compiled filters -/

namespace Clause

def pair (connective : String) (left right : Clause) : Clause :=
  ⟨connective, .list [left.toValue, right.toValue]⟩

/-- The filters that have a clause, with their clauses: leaves with their
constraints, and conjunctions and disjunctions of two such filters. -/
inductive Expresses (idField : String) : Clause → Filter → Prop where
  | leaf {f : Filter} {a : Atom} (h : f.atom? idField = some a) :
      Expresses idField a.clause f
  | and {l r : Filter} {left right : Clause} (hl : Expresses idField left l)
      (hr : Expresses idField right r) : Expresses idField (pair "$and" left right) (.and l r)
  | or {l r : Filter} {left right : Clause} (hl : Expresses idField left l)
      (hr : Expresses idField right r) : Expresses idField (pair "$or" left right) (.or l r)

variable {idField : String}

theorem ofFilter_of_atom? {f : Filter} {a : Atom} (h : f.atom? idField = some a) :
    ofFilter idField f = .ok a.clause := by
  cases f with
  | test | member | isNull | isNotNull =>
    simp only [Filter.atom?] at h
    simp only [ofFilter]
    exact ofLeaf_eq_ok_iff.mpr ⟨a, h, rfl⟩
  | extension operator field value =>
    cases hop : Operator.ofText? operator with
    | none =>
      simp only [Filter.atom?, hop] at h
      contradiction
    | some op =>
      simp only [Filter.atom?, hop] at h
      simp only [ofFilter, hop]
      cases op with
      | leaf op => exact ofLeaf_eq_ok_iff.mpr ⟨a, h, rfl⟩
      | connective c => contradiction
  | and | or | not | unknown | plain => simp [Filter.atom?] at h

theorem ofFilter_of_expresses {f : Filter} {c : Clause} (h : Expresses idField c f) :
    ofFilter idField f = .ok c := by
  induction h with
  | leaf ha => exact ofFilter_of_atom? ha
  | and _ _ hleft hright =>
    rw [ofFilter, hleft, hright]
    rfl
  | or _ _ hleft hright =>
    rw [ofFilter, hleft, hright]
    rfl

theorem expresses_of_ofFilter {f : Filter} {c : Clause} (h : ofFilter idField f = .ok c) :
    Expresses idField c f := by
  induction f generalizing c with
  | test t field value =>
    have hleaf : ofLeaf idField field (.test t) value = .ok c := h
    rcases ofLeaf_eq_ok_iff.mp hleaf with ⟨a, ha, rfl⟩
    exact .leaf ha
  | member field values | isNull field | isNotNull field =>
    obtain ⟨a, ha, rfl⟩ := ofLeaf_eq_ok_iff.mp h
    exact .leaf ha
  | extension operator field value =>
    simp only [ofFilter] at h
    split at h
    · rename_i op hop
      obtain ⟨a, ha, rfl⟩ := ofLeaf_eq_ok_iff.mp h
      apply Expresses.leaf
      simp [Filter.atom?, hop, ha]
    · contradiction
  | and l r hleft hright | or l r hleft hright =>
    rw [ofFilter] at h
    cases hl : ofFilter idField l with
    | error e => simp [hl, bind, Except.bind] at h
    | ok left =>
      cases hr : ofFilter idField r with
      | error e => simp [hl, hr, bind, Except.bind] at h
      | ok right =>
        simp only [hl, hr, bind, Except.bind, pure, Except.pure, Except.ok.injEq] at h
        subst h
        constructor
        · exact hleft hl
        · exact hright hr
  | not child => simp [ofFilter] at h
  | unknown => simp [ofFilter] at h
  | plain value => simp [ofFilter] at h

/-- A filter compiles exactly to the clause that expresses it. -/
theorem ofFilter_eq_ok_iff {f : Filter} {c : Clause} :
    ofFilter idField f = .ok c ↔ Expresses idField c f :=
  ⟨expresses_of_ofFilter, ofFilter_of_expresses⟩

end Clause

theorem Query.restrict_eq_ok {idField : String} {q q' : Query} {f : Filter}
    (h : restrict idField q f = .ok q') :
    ∃ c, Clause.Expresses idField c f ∧ q.merge c = .ok q' := by
  unfold restrict at h
  cases hc : Clause.ofFilter idField f with
  | error e => simp [hc, bind, Except.bind] at h
  | ok c =>
    refine ⟨c, Clause.ofFilter_eq_ok_iff.mp hc, ?_⟩
    simp only [hc, bind, Except.bind] at h
    split at h
    · rename_i merged hmerged
      rw [hmerged, Except.ok.inj h]
    · contradiction

theorem Query.foldlM_append_eq_ok {idField : String} {q q' : Query} {before rest : List Filter}
    (h : (before ++ rest).foldlM (restrict idField) q = .ok q') :
    ∃ next, before.foldlM (restrict idField) q = .ok next ∧
      rest.foldlM (restrict idField) next = .ok q' := by
  rw [List.foldlM_append] at h
  cases hnext : before.foldlM (restrict idField) q with
  | error e => simp [hnext, bind, Except.bind] at h
  | ok next =>
    rw [hnext] at h
    exact ⟨next, rfl, h⟩

theorem Query.foldlM_cons_eq_ok {idField : String} {q q' : Query} {f : Filter}
    {rest : List Filter} (h : (f :: rest).foldlM (restrict idField) q = .ok q') :
    ∃ next, restrict idField q f = .ok next ∧ rest.foldlM (restrict idField) next = .ok q' := by
  rw [List.foldlM_cons] at h
  cases hnext : restrict idField q f with
  | error e => simp [hnext, bind, Except.bind] at h
  | ok next =>
    rw [hnext] at h
    exact ⟨next, rfl, h⟩

/-- What holds of the query after some filters holds after all of them, if merging the
clause of the next filter carries it on. -/
theorem Query.foldlM_restrict_induction {idField : String} {filters : List Filter} {q q' : Query}
    {P : List Filter → Query → Prop}
    (hstep : ∀ {before f c p p'}, f ∈ filters → Clause.Expresses idField c f → P before p →
      merge p c = .ok p' → P (before ++ [f]) p')
    (hstart : P [] q) (h : filters.foldlM (restrict idField) q = .ok q') : P filters q' := by
  induction filters using List.reverseRecOn generalizing q' with
  | nil =>
    cases h
    exact hstart
  | append_singleton before f ih =>
    rcases foldlM_append_eq_ok h with ⟨next, hnext, hlast⟩
    rcases foldlM_cons_eq_ok hlast with ⟨last, hrestrict, hnil⟩
    rcases restrict_eq_ok hrestrict with ⟨c, hc, hmerge⟩
    cases hnil
    have hbefore : P before next := ih (fun hf => hstep (List.mem_append_left [f] hf)) hnext
    exact hstep (List.mem_append_right before List.mem_cons_self) hc hbefore hmerge

end DocScan
