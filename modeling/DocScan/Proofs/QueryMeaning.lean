import DocScan.Proofs.QueryMerging

/-!
# Queries mean what their filters mean

Which atomic constraints hold of a document is left open.  A query document
holds when all of its entries do, and a filter tree has its own reading, which
never looks at queries.  A query holds exactly when all of its parts do, so
the invariant of a merge is that it keeps the parts.  It follows that a
compiled query holds of a document exactly when every filter does, whatever
the order and repetition of the attributes.
-/

namespace DocScan

/-! ## The reading of query documents -/

/-- An operator of a field, as it stands in a dictionary of operators. -/
def OperatorSatisfied (truth : Atom → Prop) (field : String) (op : Value × Value) : Prop :=
  ∃ name, op.1 = .text name ∧ truth ⟨field, .operator name, op.2⟩

/-- A field under a condition: every operator of a dictionary of operators
holds, and any other value is one to be equal to. -/
def FieldSatisfied (truth : Atom → Prop) (key condition : Value) : Prop :=
  ∃ field, key = .text field ∧
    match condition.operators? with
    | some ops => ∀ op ∈ ops, OperatorSatisfied truth field op
    | none => truth ⟨field, .equality, condition⟩

mutual

/-- A query document holds when all of its entries do. -/
def Value.Satisfied (truth : Atom → Prop) : Value → Prop
  | .dict entries => EntriesSatisfied truth entries
  | _ => False

def EntriesSatisfied (truth : Atom → Prop) : List (Value × Value) → Prop
  | [] => True
  | (key, condition) :: rest =>
    EntrySatisfied truth key condition ∧ EntriesSatisfied truth rest

/-- Under `$and` every clause holds, under `$or` some clause does, and any
other key is a field. -/
def EntrySatisfied (truth : Atom → Prop) (key : Value) : Value → Prop
  | .list clauses =>
    if key = .text "$and" then AllSatisfied truth clauses
    else if key = .text "$or" then SomeSatisfied truth clauses
    else FieldSatisfied truth key (.list clauses)
  | condition =>
    key ≠ .text "$and" ∧ key ≠ .text "$or" ∧ FieldSatisfied truth key condition

def AllSatisfied (truth : Atom → Prop) : List Value → Prop
  | [] => True
  | clause :: rest => clause.Satisfied truth ∧ AllSatisfied truth rest

def SomeSatisfied (truth : Atom → Prop) : List Value → Prop
  | [] => False
  | clause :: rest => clause.Satisfied truth ∨ SomeSatisfied truth rest

end

/-- Whether a query holds, given which constraints do. -/
def Query.Holds (truth : Atom → Prop) (q : Query) : Prop := q.toValue.Satisfied truth

/-- Whether a filter holds, given which constraints do. -/
def Filter.Holds (idField : String) (truth : Atom → Prop) : Filter → Prop
  | .and left right => left.Holds idField truth ∧ right.Holds idField truth
  | .or left right => left.Holds idField truth ∨ right.Holds idField truth
  | .not child => ¬ child.Holds idField truth
  | leaf => ∃ a, leaf.atom? idField = some a ∧ truth a

variable {truth : Atom → Prop}

theorem allSatisfied_iff {clauses : List Value} :
    AllSatisfied truth clauses ↔ ∀ clause ∈ clauses, clause.Satisfied truth := by
  induction clauses with
  | nil => simp [AllSatisfied]
  | cons clause rest ih => simp [AllSatisfied, ih]

theorem someSatisfied_iff {clauses : List Value} :
    SomeSatisfied truth clauses ↔ ∃ clause ∈ clauses, clause.Satisfied truth := by
  induction clauses with
  | nil => simp [SomeSatisfied]
  | cons clause rest ih => simp [SomeSatisfied, ih]

theorem entriesSatisfied_iff {entries : List (Value × Value)} :
    EntriesSatisfied truth entries ↔
      ∀ entry ∈ entries, EntrySatisfied truth entry.1 entry.2 := by
  induction entries with
  | nil => simp [EntriesSatisfied]
  | cons entry rest ih => simp [EntriesSatisfied, ih]

theorem satisfied_singleton {key condition : Value} :
    (Value.dict [(key, condition)]).Satisfied truth ↔ EntrySatisfied truth key condition := by
  simp [Value.Satisfied, EntriesSatisfied]

/-! ## Queries and their parts -/

theorem fieldSatisfied_operators {key condition : Value} {ops : List (Value × Value)}
    (h : condition.operators? = some ops) :
    FieldSatisfied truth key condition ↔ ∀ op ∈ ops, FieldSatisfied truth key (.dict [op]) := by
  obtain ⟨rfl, hne, hkeys⟩ := Value.operators?_eq_some_iff.mp h
  have hsingle : ∀ op ∈ ops, (Value.dict [op]).operators? = some [op] := by
    intro op hop
    exact Value.operators?_eq_some_iff.mpr
      ⟨rfl, List.cons_ne_nil _ _, by simpa using hkeys op hop⟩
  constructor
  · rintro ⟨field, hfield, hops⟩ op hop
    rw [h] at hops
    refine ⟨field, hfield, ?_⟩
    rw [hsingle op hop]
    simpa using hops op hop
  · intro heach
    -- the field comes from the first operator, since there is at least one
    obtain ⟨first, hfirst⟩ := List.exists_mem_of_ne_nil ops hne
    obtain ⟨field, hfield, -⟩ := heach first hfirst
    refine ⟨field, hfield, ?_⟩
    rw [h]
    intro op hop
    obtain ⟨other, hother, hsatisfied⟩ := heach op hop
    rw [hsingle op hop] at hsatisfied
    rw [hfield] at hother
    cases hother
    simpa using hsatisfied

theorem entrySatisfied_operators {key condition : Value} {ops : List (Value × Value)}
    (h : condition.operators? = some ops) :
    EntrySatisfied truth key condition ↔ ∀ op ∈ ops, EntrySatisfied truth key (.dict [op]) := by
  obtain ⟨rfl, hne, -⟩ := Value.operators?_eq_some_iff.mp h
  obtain ⟨first, hfirst⟩ := List.exists_mem_of_ne_nil ops hne
  simp only [EntrySatisfied]
  rw [fieldSatisfied_operators h]
  constructor
  · rintro ⟨hand, hor, heach⟩ op hop
    exact ⟨hand, hor, heach op hop⟩
  · intro heach
    obtain ⟨hand, hor, -⟩ := heach first hfirst
    exact ⟨hand, hor, fun op hop => (heach op hop).2.2⟩

theorem satisfied_split (v : Value) :
    v.Satisfied truth ↔ ∀ part ∈ v.split, part.Satisfied truth := by
  unfold Value.split
  split
  · rename_i key condition
    split
    · rename_i ops hops
      rw [satisfied_singleton, entrySatisfied_operators hops, List.forall_mem_map]
      simp only [satisfied_singleton]
    · simp
  · simp

theorem satisfied_parts (c : Clause) :
    c.toValue.Satisfied truth ↔ ∀ part ∈ c.parts, part.Satisfied truth := by
  obtain ⟨key, condition⟩ := c
  unfold Clause.parts
  split
  · rename_i clauses hclauses
    simp only at hclauses
    subst hclauses
    split
    · rename_i hkey
      simp only at hkey
      subst hkey
      rw [Clause.toValue, satisfied_singleton]
      simp only [EntrySatisfied, if_true, allSatisfied_iff, List.mem_flatMap]
      constructor
      · rintro hall part ⟨clause, hclause, hpart⟩
        exact (satisfied_split clause).mp (hall clause hclause) part hpart
      · intro hparts clause hclause
        exact (satisfied_split clause).mpr fun part hpart => hparts part ⟨clause, hclause, hpart⟩
    · exact satisfied_split _
  · exact satisfied_split _

theorem Query.holds_iff_parts (q : Query) :
    q.Holds truth ↔ ∀ part ∈ q.parts, part.Satisfied truth := by
  have hentry : ∀ entry : String × Value, EntrySatisfied truth (.text entry.1) entry.2 ↔
      ∀ part ∈ (Clause.mk entry.1 entry.2).parts, part.Satisfied truth := by
    intro entry
    rw [← satisfied_parts, Clause.toValue, satisfied_singleton]
  simp only [Holds, toValue, Value.Satisfied, entriesSatisfied_iff, List.forall_mem_map, hentry,
    parts, List.mem_flatMap]
  constructor
  · rintro hall part ⟨entry, hmem, hpart⟩
    exact hall entry hmem part hpart
  · intro hparts entry hmem part hpart
    exact hparts part ⟨entry, hmem, hpart⟩

/-- A merge holds when the query and the clause do. -/
theorem Query.holds_of_parts_perm {q q' : Query} {c : Clause}
    (h : q'.parts.Perm (q.parts ++ c.parts)) :
    q'.Holds truth ↔ q.Holds truth ∧ c.toValue.Satisfied truth := by
  rw [Query.holds_iff_parts, Query.holds_iff_parts, satisfied_parts]
  simp only [h.mem_iff, List.mem_append, or_imp, forall_and]

/-! ## Compiled filters -/

theorem entrySatisfied_field {field : String} {condition : Value}
    (hfield : field ≠ "$and" ∧ field ≠ "$or") :
    EntrySatisfied truth (.text field) condition ↔
      FieldSatisfied truth (.text field) condition := by
  obtain ⟨hand, hor⟩ := hfield
  cases condition <;> simp [EntrySatisfied, hand, hor]

theorem isOperatorKey_of_mem_operatorNames {name : String}
    (h : name ∈ Comparison.operatorNames) : (Value.text name).isOperatorKey = true := by
  have hall : ∀ name ∈ Comparison.operatorNames, (Value.text name).isOperatorKey = true := by
    decide
  exact hall name h

/-- The clause of a constraint holds when the constraint does, provided that
the clause cannot be read in another way. -/
theorem Atom.satisfied_clause_iff {a : Atom} (hfield : a.field ≠ "$and" ∧ a.field ≠ "$or")
    (hname : ∀ name, a.comparison = .operator name → name ∈ Comparison.operatorNames)
    (hoperand : a.comparison = .equality → a.operand.operators? = none) :
    a.clause.toValue.Satisfied truth ↔ truth a := by
  obtain ⟨field, comparison, operand⟩ := a
  cases comparison with
  | equality =>
    have hplain := hoperand rfl
    simp only [clause, Clause.toValue]
    rw [satisfied_singleton, entrySatisfied_field hfield]
    simp only at hplain
    simp [FieldSatisfied, hplain]
  | operator name =>
    have hkey := isOperatorKey_of_mem_operatorNames (hname name rfl)
    have hops : (Value.dict [(.text name, operand)]).operators? =
        some [(.text name, operand)] :=
      Value.operators?_eq_some_iff.mpr ⟨rfl, List.cons_ne_nil _ _, by simpa using hkey⟩
    simp only [clause, Clause.operation, Clause.toValue]
    rw [satisfied_singleton, entrySatisfied_field hfield]
    simp [FieldSatisfied, OperatorSatisfied, hops]

variable {idField : String}

theorem Filter.holds_of_atom? {f : Filter} {a : Atom} (h : f.atom? idField = some a) :
    f.Holds idField truth ↔ truth a := by
  cases f with
  | and | or | not => simp [atom?] at h
  | _ => simp [Holds, h]

theorem Clause.satisfied_pair_and (left right : Clause) :
    (pair "$and" left right).toValue.Satisfied truth ↔
      left.toValue.Satisfied truth ∧ right.toValue.Satisfied truth := by
  rw [pair, toValue, satisfied_singleton]
  simp [EntrySatisfied, allSatisfied_iff]

theorem Clause.satisfied_pair_or (left right : Clause) :
    (pair "$or" left right).toValue.Satisfied truth ↔
      left.toValue.Satisfied truth ∨ right.toValue.Satisfied truth := by
  rw [pair, toValue, satisfied_singleton]
  simp [EntrySatisfied, someSatisfied_iff]

theorem Filter.namesFields_branches {l r : Filter}
    (h : ∀ name ∈ l.attributes ++ r.attributes, name ≠ "$and" ∧ name ≠ "$or") :
    l.NamesFields ∧ r.NamesFields :=
  List.forall_mem_append.mp h

theorem Filter.equatesValues_branches {l r : Filter}
    (h : ∀ value ∈ l.equated ++ r.equated, value.operators? = none) :
    l.EquatesValues ∧ r.EquatesValues :=
  List.forall_mem_append.mp h

namespace Clause.Expresses

theorem regular {f : Filter} {c : Clause} (h : Expresses idField c f) (hnames : f.NamesFields) :
    c.Regular := by
  cases h with
  | @leaf _ a ha =>
    intro hconnective
    have hfield := hnames a.field (Filter.field_mem_attributes ha)
    rw [Atom.clause_key] at hconnective
    rcases hconnective with hand | hor
    · exact absurd hand hfield.1
    · exact absurd hor hfield.2
  | and | or => exact fun _ => ⟨_, rfl⟩

theorem satisfied_iff {f : Filter} {c : Clause} (h : Expresses idField c f)
    (hnames : f.NamesFields) (hvalues : f.EquatesValues) :
    c.toValue.Satisfied truth ↔ f.Holds idField truth := by
  induction h with
  | leaf ha =>
    rw [Filter.holds_of_atom? ha]
    apply Atom.satisfied_clause_iff
    · exact hnames _ (Filter.field_mem_attributes ha)
    · exact fun name hname => Filter.operator_mem_operatorNames ha hname
    · exact Filter.operators?_operand ha hvalues
  | and _ _ hleft hright =>
    obtain ⟨hlnames, hrnames⟩ := Filter.namesFields_branches hnames
    obtain ⟨hlvalues, hrvalues⟩ := Filter.equatesValues_branches hvalues
    rw [satisfied_pair_and, hleft hlnames hlvalues, hright hrnames hrvalues, Filter.Holds]
  | or _ _ hleft hright =>
    obtain ⟨hlnames, hrnames⟩ := Filter.namesFields_branches hnames
    obtain ⟨hlvalues, hrvalues⟩ := Filter.equatesValues_branches hvalues
    rw [satisfied_pair_or, hleft hlnames hlvalues, hright hrnames hrvalues, Filter.Holds]

end Clause.Expresses

namespace Query

/-- A whole run of filters, from any regular query on. -/
theorem Regular.holds_foldlM {filters : List Filter} {q q' : Query} (hq : q.Regular)
    (hnames : ∀ f ∈ filters, f.NamesFields) (hvalues : ∀ f ∈ filters, f.EquatesValues)
    (h : filters.foldlM (Query.restrict idField) q = .ok q') :
    q'.Holds truth ↔ q.Holds truth ∧ ∀ f ∈ filters, f.Holds idField truth := by
  refine And.right (foldlM_restrict_induction
    (P := fun before p => p.Regular ∧
      (p.Holds truth ↔ q.Holds truth ∧ ∀ f ∈ before, f.Holds idField truth))
    ?_ ⟨hq, by simp⟩ h)
  intro before f c p p' hf hc hp hmerge
  rcases hp.1.merge (hc.regular (hnames f hf)) hmerge with ⟨hregular, hparts⟩
  refine ⟨hregular, ?_⟩
  rw [holds_of_parts_perm hparts, hp.2, hc.satisfied_iff (hnames f hf) (hvalues f hf),
    List.forall_mem_append, List.forall_mem_singleton, and_assoc]

/-- The compiled query holds of a document exactly when every filter does,
whatever the documents and whichever constraints hold of them. -/
theorem holds_ofFilters_iff {Document : Type} {filters : List Filter} {q : Query}
    (h : ofFilters idField filters = .ok q)
    (hnames : ∀ f ∈ filters, f.NamesFields) (hvalues : ∀ f ∈ filters, f.EquatesValues)
    (valuation : Document → Atom → Prop) (document : Document) :
    q.Holds (valuation document) ↔ ∀ f ∈ filters, f.Holds idField (valuation document) := by
  have hempty : empty.Holds (valuation document) := trivial
  rw [Regular.empty.holds_foldlM hnames hvalues h]
  simp [hempty]

/-- A range that has been united and is then moved under `$and`, next to a
disjunction with the same field inside. -/
theorem holds_ofFilters_iff_moved_range :
    ∃ q, ofFilters "_id"
        [.test .greater "age" (.int 17), .test .less "age" (.int 66),
          .or (.isNull "city") (.and (.test .equal "age" (.int 40)) (.member "city" [.null])),
          .test .greater "age" (.int 20)] = .ok q ∧
      (q.Holds (fun a => a.comparison ≠ .operator "$in") ↔
        ∀ f ∈ [Filter.test .greater "age" (.int 17), .test .less "age" (.int 66),
          .or (.isNull "city") (.and (.test .equal "age" (.int 40)) (.member "city" [.null])),
          .test .greater "age" (.int 20)],
          f.Holds "_id" (fun a => a.comparison ≠ .operator "$in")) :=
  ⟨_, rfl, holds_ofFilters_iff rfl (by simp [Filter.NamesFields, Filter.attributes])
    (by simp [Filter.EquatesValues, Filter.equated, Value.operators?])
    (fun (_ : Unit) a => a.comparison ≠ .operator "$in") ()⟩

end Query

end DocScan
