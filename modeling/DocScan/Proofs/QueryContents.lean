import DocScan.Proofs.QueryMeaning

/-!
# Queries contain the constraints of their filters, each as often

Everything that a query document contains is read off it here: the atomic
constraints, the lists under `$or`, and whatever cannot be read as either.  A
query contains what its parts contain, and a merge keeps the parts, so the
contents of a compiled query are those of the clauses of its filters.  A clause
contains the constraints of the leaves of its filter, and each disjunction of
two filters as the list of their own queries.
-/

namespace DocScan

open scoped List

/-! ## The contents of query documents -/

/-- Something that a query document contains, at any depth. -/
inductive Constituent where
  | constraint (a : Atom)
  | disjunction (clauses : List Value)
  | unreadable (v : Value)

namespace Constituent

def atom? : Constituent → Option Atom
  | constraint a => some a
  | disjunction _ | unreadable _ => none

def clauses? : Constituent → Option (List Value)
  | disjunction clauses => some clauses
  | constraint _ | unreadable _ => none

def IsReadable : Constituent → Prop
  | constraint _ | disjunction _ => True
  | unreadable _ => False

def ofOperator (key : Value) (op : Value × Value) : Constituent :=
  match key, op.1 with
  | .text field, .text name => constraint ⟨field, .operator name, op.2⟩
  | _, _ => unreadable (.dict [(key, .dict [op])])

/-- A field under a condition: one constraint for each operator of a dictionary
of operators, and a plain equality with any other value. -/
def ofField (key condition : Value) : List Constituent :=
  match condition.operators?, key with
  | some ops, _ => ops.map (ofOperator key)
  | none, .text field => [constraint ⟨field, .equality, condition⟩]
  | none, _ => [unreadable (.dict [(key, condition)])]

end Constituent

mutual

def Value.constituents : Value → List Constituent
  | .dict entries => entriesConstituents entries
  | other => [.unreadable other]

def entriesConstituents : List (Value × Value) → List Constituent
  | [] => []
  | (key, condition) :: rest => entryConstituents key condition ++ entriesConstituents rest

/-- A list under `$or` is contained itself, next to what its clauses contain. -/
def entryConstituents (key : Value) : Value → List Constituent
  | .list clauses =>
    if key = .text "$and" then clausesConstituents clauses
    else if key = .text "$or" then .disjunction clauses :: clausesConstituents clauses
    else Constituent.ofField key (.list clauses)
  | condition => Constituent.ofField key condition

def clausesConstituents : List Value → List Constituent
  | [] => []
  | clause :: rest => clause.constituents ++ clausesConstituents rest

end

namespace Query

def constituents (q : Query) : List Constituent := q.toValue.constituents

def atoms (q : Query) : List Atom := q.constituents.filterMap Constituent.atom?

/-- The lists under `$or`, wherever they stand in a query. -/
def disjunctions (q : Query) : List (List Value) := q.constituents.filterMap Constituent.clauses?

end Query

namespace Filter

/-- The constraints of the leaves of a filter, from left to right. -/
def atoms (idField : String) : Filter → List Atom
  | .and left right | .or left right => left.atoms idField ++ right.atoms idField
  | .not child => child.atoms idField
  | leaf => (leaf.atom? idField).toList

/-- The disjunctions in a filter, each as its two branches. -/
def disjunctions : Filter → List (Filter × Filter)
  | .or left right => (left, right) :: (left.disjunctions ++ right.disjunctions)
  | .and left right => left.disjunctions ++ right.disjunctions
  | .not child => child.disjunctions
  | _ => []

end Filter

/-! ## Contents and parts -/

theorem clausesConstituents_eq_flatMap (clauses : List Value) :
    clausesConstituents clauses = clauses.flatMap Value.constituents := by
  induction clauses with
  | nil => rfl
  | cons clause rest ih => rw [clausesConstituents, ih, List.flatMap_cons]

theorem entriesConstituents_eq_flatMap (entries : List (Value × Value)) :
    entriesConstituents entries =
      entries.flatMap fun entry => entryConstituents entry.1 entry.2 := by
  induction entries with
  | nil => rfl
  | cons entry rest ih => rw [entriesConstituents, ih, List.flatMap_cons]

theorem constituents_singleton (key condition : Value) :
    (Value.dict [(key, condition)]).constituents = entryConstituents key condition := by
  rw [Value.constituents, entriesConstituents_eq_flatMap, List.flatMap_singleton]

theorem ofField_operators {key condition : Value} {ops : List (Value × Value)}
    (h : condition.operators? = some ops) :
    Constituent.ofField key condition = ops.map (Constituent.ofOperator key) := by
  unfold Constituent.ofField
  rw [h]

theorem entryConstituents_operators {key condition : Value} {ops : List (Value × Value)}
    (h : condition.operators? = some ops) :
    entryConstituents key condition = ops.map (Constituent.ofOperator key) := by
  obtain ⟨rfl, -, -⟩ := Value.operators?_eq_some_iff.mp h
  rw [entryConstituents]
  · exact ofField_operators h
  · intro clauses hclauses
    contradiction

theorem constituents_split (v : Value) :
    v.constituents = v.split.flatMap Value.constituents := by
  unfold Value.split
  split
  · rename_i key condition
    split
    · rename_i ops hops
      -- An operator by itself is a dictionary of operators again.
      obtain ⟨-, -, hkeys⟩ := Value.operators?_eq_some_iff.mp hops
      have hsingle : ∀ op ∈ ops, (Value.dict [(key, .dict [op])]).constituents =
          [Constituent.ofOperator key op] := by
        intro op hop
        have hone : (Value.dict [op]).operators? = some [op] :=
          Value.operators?_eq_some_iff.mpr
            ⟨rfl, List.cons_ne_nil _ _, by simpa using hkeys op hop⟩
        rw [constituents_singleton, entryConstituents_operators hone, List.map_singleton]
      rw [constituents_singleton, entryConstituents_operators hops, List.flatMap_map,
        List.map_eq_flatMap]
      exact (List.flatMap_congr hsingle).symm
    · rw [List.flatMap_singleton]
  · rw [List.flatMap_singleton]

theorem Clause.constituents_parts (c : Clause) :
    c.toValue.constituents = c.parts.flatMap Value.constituents := by
  obtain ⟨key, condition⟩ := c
  unfold Clause.parts
  split
  · rename_i clauses hclauses
    simp only at hclauses
    subst hclauses
    split
    · rename_i hkey
      simp only at hkey
      subst hkey
      have hsplit : clauses.flatMap Value.constituents =
          clauses.flatMap fun clause => clause.split.flatMap Value.constituents :=
        List.flatMap_congr fun clause _ => constituents_split clause
      rw [toValue, constituents_singleton, entryConstituents, if_pos rfl,
        clausesConstituents_eq_flatMap, hsplit, List.flatMap_assoc]
    · exact constituents_split _
  · exact constituents_split _

theorem Query.constituents_parts (q : Query) :
    q.constituents = q.parts.flatMap Value.constituents := by
  have hentry : ∀ entry ∈ q.entries, entryConstituents (.text entry.1) entry.2 =
      (Clause.mk entry.1 entry.2).parts.flatMap Value.constituents := by
    intro entry _
    rw [← Clause.constituents_parts, Clause.toValue, constituents_singleton]
  rw [constituents, toValue, Value.constituents, entriesConstituents_eq_flatMap, List.flatMap_map,
    List.flatMap_congr hentry, parts, List.flatMap_assoc]

theorem Query.constituents_perm {q q' : Query} {c : Clause} (h : q'.parts ~ q.parts ++ c.parts) :
    q'.constituents ~ q.constituents ++ c.toValue.constituents := by
  rw [constituents_parts, constituents_parts, Clause.constituents_parts, ← List.flatMap_append]
  exact h.flatMap_right _

/-! ## The contents of clauses -/

variable {idField : String}

theorem entryConstituents_field {field : String} (condition : Value)
    (hfield : field ≠ "$and" ∧ field ≠ "$or") :
    entryConstituents (.text field) condition =
      Constituent.ofField (.text field) condition := by
  obtain ⟨hand, hor⟩ := hfield
  cases condition <;> simp [entryConstituents, hand, hor]

/-- The clause of a constraint contains that constraint alone, provided that
the clause cannot be read in another way. -/
theorem Atom.constituents_clause {a : Atom} (hfield : a.field ≠ "$and" ∧ a.field ≠ "$or")
    (hname : ∀ name, a.comparison = .operator name → name ∈ Comparison.operatorNames)
    (hoperand : a.comparison = .equality → a.operand.operators? = none) :
    a.clause.toValue.constituents = [.constraint a] := by
  obtain ⟨field, comparison, operand⟩ := a
  cases comparison with
  | equality =>
    have hplain : operand.operators? = none := hoperand rfl
    simp only [clause, Clause.toValue]
    rw [constituents_singleton, entryConstituents_field _ hfield]
    unfold Constituent.ofField
    rw [hplain]
  | operator name =>
    have hkey := isOperatorKey_of_mem_operatorNames (hname name rfl)
    have hops : (Value.dict [(.text name, operand)]).operators? =
        some [(.text name, operand)] :=
      Value.operators?_eq_some_iff.mpr ⟨rfl, List.cons_ne_nil _ _, by simpa using hkey⟩
    simp only [clause, Clause.operation, Clause.toValue]
    rw [constituents_singleton, entryConstituents_operators hops]
    rfl

theorem Clause.constituents_pair_and (left right : Clause) :
    (pair "$and" left right).toValue.constituents =
      left.toValue.constituents ++ right.toValue.constituents := by
  rw [pair, toValue, constituents_singleton, entryConstituents, if_pos rfl]
  simp [clausesConstituents]

theorem Clause.constituents_pair_or (left right : Clause) :
    (pair "$or" left right).toValue.constituents =
      .disjunction [left.toValue, right.toValue] ::
        (left.toValue.constituents ++ right.toValue.constituents) := by
  have hne : Value.text "$or" ≠ .text "$and" := by decide
  rw [pair, toValue, constituents_singleton, entryConstituents, if_neg hne, if_pos rfl]
  simp [clausesConstituents]

/-- A list under `$or` consists of the queries of two filters, and these contain
the constraints of their filters and no others. -/
def Disjoins (idField : String) (branches : Filter × Filter) (clauses : List Value) : Prop :=
  ∃ left right, Query.ofFilters idField [branches.1] = .ok left ∧
    Query.ofFilters idField [branches.2] = .ok right ∧
    clauses = [left.toValue, right.toValue] ∧
    left.atoms = branches.1.atoms idField ∧ right.atoms = branches.2.atoms idField

namespace Clause

/-- What is contained in a clause is what its filter says, in the same order. -/
structure Contains (idField : String) (c : Clause) (f : Filter) : Prop where
  atoms : c.toValue.constituents.filterMap Constituent.atom? = f.atoms idField
  disjunctions : List.Forall₂ (Disjoins idField) f.disjunctions
    (c.toValue.constituents.filterMap Constituent.clauses?)
  readable : ∀ constituent ∈ c.toValue.constituents, constituent.IsReadable

namespace Expresses

variable {f : Filter} {c : Clause}

theorem ofFilters_singleton (h : Expresses idField c f) :
    Query.ofFilters idField [f] = .ok ⟨[(c.key, c.condition)]⟩ := by
  have hclause : ofFilter idField f = .ok c := ofFilter_of_expresses h
  have hrestrict : Query.restrict idField .empty f = .ok ⟨[(c.key, c.condition)]⟩ := by
    unfold Query.restrict
    rw [hclause]
    rfl
  unfold Query.ofFilters
  rw [List.foldlM_cons, hrestrict]
  rfl

theorem contains (h : Expresses idField c f) (hnames : f.NamesFields)
    (hvalues : f.EquatesValues) : c.Contains idField f := by
  induction h with
  | @leaf f a ha =>
    have hconstituents : a.clause.toValue.constituents = [.constraint a] :=
      Atom.constituents_clause (hnames _ (Filter.field_mem_attributes ha))
        (fun name hname => Filter.operator_mem_operatorNames ha hname)
        (Filter.operators?_operand ha hvalues)
    have hatoms : f.atoms idField = [a] := by
      cases f with
      | and | or | not => simp [Filter.atom?] at ha
      | _ => simp [Filter.atoms, ha]
    have hdisjunctions : f.disjunctions = [] := by
      cases f with
      | and | or | not => simp [Filter.atom?] at ha
      | _ => rfl
    constructor
    · rw [hconstituents, hatoms]
      rfl
    · rw [hconstituents, hdisjunctions]
      exact .nil
    · rw [hconstituents]
      simp [Constituent.IsReadable]
  | and _ _ hleft hright =>
    obtain ⟨hlnames, hrnames⟩ := Filter.namesFields_branches hnames
    obtain ⟨hlvalues, hrvalues⟩ := Filter.equatesValues_branches hvalues
    have hl := hleft hlnames hlvalues
    have hr := hright hrnames hrvalues
    constructor
    · rw [constituents_pair_and, List.filterMap_append, hl.atoms, hr.atoms, Filter.atoms]
    · rw [constituents_pair_and, List.filterMap_append, Filter.disjunctions]
      exact List.rel_append hl.disjunctions hr.disjunctions
    · rw [constituents_pair_and, List.forall_mem_append]
      exact ⟨hl.readable, hr.readable⟩
  | or hlexpresses hrexpresses hleft hright =>
    obtain ⟨hlnames, hrnames⟩ := Filter.namesFields_branches hnames
    obtain ⟨hlvalues, hrvalues⟩ := Filter.equatesValues_branches hvalues
    have hl := hleft hlnames hlvalues
    have hr := hright hrnames hrvalues
    constructor
    · rw [constituents_pair_or, List.filterMap_cons, List.filterMap_append, hl.atoms, hr.atoms,
        Filter.atoms]
      rfl
    · rw [constituents_pair_or, List.filterMap_cons, List.filterMap_append, Filter.disjunctions]
      refine .cons ?_ (List.rel_append hl.disjunctions hr.disjunctions)
      exact ⟨_, _, hlexpresses.ofFilters_singleton, hrexpresses.ofFilters_singleton, rfl,
        hl.atoms, hr.atoms⟩
    · rw [constituents_pair_or, List.forall_mem_cons, List.forall_mem_append]
      exact ⟨trivial, hl.readable, hr.readable⟩

end Expresses

end Clause

/-! ## The contents of compiled queries -/

namespace Query

/-- The constituents of a query are the constraints and disjunctions of
filters, each as often and in some order, and nothing else. -/
structure Contains (idField : String) (q : Query) (filters : List Filter) : Prop where
  atoms : q.atoms ~ filters.flatMap (Filter.atoms idField)
  disjunctions : ∃ lists, q.disjunctions ~ lists ∧
    List.Forall₂ (Disjoins idField) (filters.flatMap Filter.disjunctions) lists
  readable : ∀ constituent ∈ q.constituents, constituent.IsReadable

theorem Contains.empty : Contains idField Query.empty [] := by
  constructor
  · exact .nil
  · exact ⟨[], .nil, .nil⟩
  · exact List.forall_mem_nil _

theorem Contains.append {q q' : Query} {c : Clause} {filters : List Filter} {f : Filter}
    (hq : q.Contains idField filters) (hc : c.Contains idField f)
    (h : q'.parts ~ q.parts ++ c.parts) : q'.Contains idField (filters ++ [f]) := by
  have hconstituents := constituents_perm h
  obtain ⟨lists, hlists, hdisjoins⟩ := hq.disjunctions
  constructor
  · have hatoms := hconstituents.filterMap Constituent.atom?
    rw [List.filterMap_append, hc.atoms] at hatoms
    rw [List.flatMap_append, List.flatMap_singleton]
    exact hatoms.trans (hq.atoms.append_right _)
  · have hclauses := hconstituents.filterMap Constituent.clauses?
    rw [List.filterMap_append] at hclauses
    refine ⟨_, hclauses.trans (hlists.append_right _), ?_⟩
    rw [List.flatMap_append, List.flatMap_singleton]
    exact List.rel_append hdisjoins hc.disjunctions
  · intro constituent hmem
    rcases List.mem_append.mp (hconstituents.subset hmem) with hbefore | hadded
    · exact hq.readable constituent hbefore
    · exact hc.readable constituent hadded

theorem Regular.contains_foldlM {filters : List Filter} {q q' : Query} (hq : q.Regular)
    (hcontains : q.Contains idField []) (hnames : ∀ f ∈ filters, f.NamesFields)
    (hvalues : ∀ f ∈ filters, f.EquatesValues)
    (h : filters.foldlM (Query.restrict idField) q = .ok q') : q'.Contains idField filters := by
  refine And.right (foldlM_restrict_induction
    (P := fun before p => p.Regular ∧ p.Contains idField before) ?_ ⟨hq, hcontains⟩ h)
  intro before f c p p' hf hc hp hmerge
  rcases hp.1.merge (hc.regular (hnames f hf)) hmerge with ⟨hregular, hparts⟩
  exact ⟨hregular, hp.2.append (hc.contains (hnames f hf) (hvalues f hf)) hparts⟩

/-- A compiled query contains every constraint of its filters as often as they
say it, and one list under `$or` for each of their disjunctions. -/
theorem contains_ofFilters {filters : List Filter} {q : Query}
    (h : ofFilters idField filters = .ok q) (hnames : ∀ f ∈ filters, f.NamesFields)
    (hvalues : ∀ f ∈ filters, f.EquatesValues) :
    q.Contains idField filters ∧
      q.disjunctions.length = (filters.flatMap Filter.disjunctions).length := by
  have hcontains : q.Contains idField filters :=
    Regular.empty.contains_foldlM .empty hnames hvalues h
  obtain ⟨lists, hlists, hdisjoins⟩ := hcontains.disjunctions
  exact ⟨hcontains, hlists.length_eq.trans hdisjoins.length_eq.symm⟩

/-- A condition that is asked for twice is moved under `$and` twice over, next
to two disjunctions of which one stands in the other. -/
theorem contains_ofFilters_repeated :
    let filters : List Filter :=
      [.test .equal "city" (.text "Bern"), .test .greater "age" (.int 17),
        .or (.isNull "city") (.or (.test .equal "age" (.int 40)) (.member "city" [.null])),
        .test .equal "city" (.text "Bern"), .or (.isNotNull "age") (.test .less "age" (.int 3)),
        .test .equal "city" (.text "Bern")]
    ∃ q, ofFilters "_id" filters = .ok q ∧ q.atoms.length = 9 ∧ q.disjunctions.length = 3 ∧
      q.Contains "_id" filters ∧
      q.disjunctions.length = (filters.flatMap Filter.disjunctions).length := by
  intro filters
  have hnames : ∀ f ∈ filters, f.NamesFields := by
    simp [filters, Filter.NamesFields, Filter.attributes]
  have hvalues : ∀ f ∈ filters, f.EquatesValues := by
    simp [filters, Filter.EquatesValues, Filter.equated, Value.operators?]
  refine ⟨_, rfl, ?_, ?_, contains_ofFilters rfl hnames hvalues⟩
  · decide +kernel
  · decide +kernel

end Query

end DocScan
