import DocScan.Proofs.EqualityEntries

/-!
# Equalities are kept apart

The constraints that can be read off a query are those that were written for its
filters, each as often, also where a value that reads as operators is taken for
them.  When one leaf is replaced by another and the query stays as it was, the two
have therefore been written in the same way.  For an equality and any other
operator this happens only if its value is that operator with its operand.
-/

namespace DocScan

open scoped List

/-! ## The constraints that are written -/

namespace Clause

variable {idField : String} {c : Clause} {f : Filter} {b : Atom}

/-- The constraints that can be read off a clause. -/
def atoms (c : Clause) : List Atom := c.toValue.constituents.filterMap Constituent.atom?

theorem Expresses.atoms_and {l r : Filter} (h : Expresses idField c (.and l r)) :
    ∃ left right, Expresses idField left l ∧ Expresses idField right r ∧
      c.atoms = left.atoms ++ right.atoms := by
  cases h with
  | leaf ha => simp [Filter.atom?] at ha
  | and hl hr =>
    refine ⟨_, _, hl, hr, ?_⟩
    rw [atoms, constituents_pair_and, List.filterMap_append]
    rfl

theorem Expresses.atoms_or {l r : Filter} (h : Expresses idField c (.or l r)) :
    ∃ left right, Expresses idField left l ∧ Expresses idField right r ∧
      c.atoms = left.atoms ++ right.atoms := by
  cases h with
  | leaf ha => simp [Filter.atom?] at ha
  | or hl hr =>
    refine ⟨_, _, hl, hr, ?_⟩
    rw [atoms, constituents_pair_or, List.filterMap_cons, List.filterMap_append]
    rfl

theorem constituents_field (hkey : c.key ≠ "$and" ∧ c.key ≠ "$or") :
    c.toValue.constituents = Constituent.ofField (.text c.key) c.condition := by
  rw [toValue, constituents_singleton, entryConstituents_field _ hkey]

/-- Operators are named by texts, so that each of them is a constraint. -/
theorem atoms_of_operators? {ops : List (Value × Value)} (hkey : c.key ≠ "$and" ∧ c.key ≠ "$or")
    (hops : c.condition.operators? = some ops) :
    ∃ names : List (String × Value), ops = names.map (fun op => (.text op.1, op.2)) ∧
      c.atoms = names.map fun op => ⟨c.key, .operator op.1, op.2⟩ := by
  rw [atoms, constituents_field hkey, ofField_operators hops]
  rcases Value.operators?_eq_some_iff.mp hops with ⟨-, -, hkeys⟩
  clear hops
  induction ops with
  | nil => exact ⟨[], rfl, rfl⟩
  | cons op rest ih =>
    rw [List.forall_mem_cons] at hkeys
    rcases ih hkeys.2 with ⟨names, rfl, hatoms⟩
    rcases op with ⟨name, operand⟩
    cases name with
    | text name =>
      refine ⟨(name, operand) :: names, rfl, ?_⟩
      rw [List.map_cons, List.filterMap_cons, hatoms]
      rfl
    | _ => simp [Value.isOperatorKey] at hkeys

theorem atoms_of_plain (hkey : c.key ≠ "$and" ∧ c.key ≠ "$or")
    (hplain : c.condition.operators? = none) : c.atoms = [⟨c.key, .equality, c.condition⟩] := by
  rw [atoms, constituents_field hkey]
  unfold Constituent.ofField
  rw [hplain]
  rfl

/-- A clause of a field from which one constraint is read is the clause of that
constraint. -/
theorem eq_of_atoms (hkey : c.key ≠ "$and" ∧ c.key ≠ "$or") (h : c.atoms = [b]) :
    c = b.clause := by
  cases hops : c.condition.operators? with
  | none =>
    rw [atoms_of_plain hkey hops, List.singleton_inj] at h
    rw [← h]
    rfl
  | some ops =>
    rcases atoms_of_operators? hkey hops with ⟨names, rfl, hatoms⟩
    rw [h] at hatoms
    cases names with
    | nil => simp at hatoms
    | cons op rest =>
      have hb : b = ⟨c.key, .operator op.1, op.2⟩ ∧ rest = [] := by simpa using hatoms
      have hcondition := (Value.operators?_eq_some_iff.mp hops).1
      rcases c with ⟨key, condition⟩
      simp only [hb.2, List.map_cons, List.map_nil] at hcondition
      rw [hb.1, hcondition]
      rfl

end Clause

namespace Filter

variable {idField : String} {c : Clause} {f : Filter}

/-- The constraints that are written for a filter. -/
def written (idField : String) (f : Filter) : List Atom :=
  match Clause.ofFilter idField f with
  | .ok c => c.atoms
  | .error _ => []

theorem written_of_expresses (h : Clause.Expresses idField c f) : f.written idField = c.atoms := by
  rw [written, Clause.ofFilter_of_expresses h]

end Filter

namespace Query

variable {idField : String} {filters : List Filter} {q q' : Query}

theorem Regular.atoms_foldlM (hq : q.Regular) (hnames : ∀ f ∈ filters, f.NamesFields)
    (h : filters.foldlM (Query.restrict idField) q = .ok q') :
    q'.atoms ~ q.atoms ++ filters.flatMap (Filter.written idField) := by
  refine And.right (foldlM_restrict_induction
    (P := fun before p => p.Regular ∧
      p.atoms ~ q.atoms ++ before.flatMap (Filter.written idField)) ?_ ⟨hq, by simp⟩ h)
  intro before f c p p' hf hc hp hmerge
  rcases hp.1.merge (hc.regular (hnames f hf)) hmerge with ⟨hregular, hparts⟩
  have hstep : p'.atoms ~ p.atoms ++ f.written idField := by
    have hatoms := (constituents_perm hparts).filterMap Constituent.atom?
    rw [List.filterMap_append] at hatoms
    rw [Filter.written_of_expresses hc]
    exact hatoms
  refine ⟨hregular, ?_⟩
  rw [List.flatMap_append, List.flatMap_singleton, ← List.append_assoc]
  exact hstep.trans (hp.2.append_right _)

/-- A query has the constraints that are written for its filters, each as often. -/
theorem atoms_ofFilters (hnames : ∀ f ∈ filters, f.NamesFields)
    (h : ofFilters idField filters = .ok q) :
    q.atoms ~ filters.flatMap (Filter.written idField) :=
  Regular.empty.atoms_foldlM hnames h

end Query

/-! ## Replacing a leaf -/

namespace Filter

variable {idField : String} {old new f f' : Filter}

/-- One node of a filter is replaced by another. -/
inductive Replaces (old new : Filter) : Filter → Filter → Prop where
  | here : Replaces old new old new
  | andLeft {l l' : Filter} (r : Filter) (h : Replaces old new l l') :
      Replaces old new (.and l r) (.and l' r)
  | andRight {r r' : Filter} (l : Filter) (h : Replaces old new r r') :
      Replaces old new (.and l r) (.and l r')
  | orLeft {l l' : Filter} (r : Filter) (h : Replaces old new l l') :
      Replaces old new (.or l r) (.or l' r)
  | orRight {r r' : Filter} (l : Filter) (h : Replaces old new r r') :
      Replaces old new (.or l r) (.or l r')

namespace Replaces

theorem attributes (h : Replaces old new f f') (hsame : new.attributes = old.attributes) :
    f'.attributes = f.attributes := by
  induction h with
  | here => exact hsame
  | andLeft _ _ ih | andRight _ _ ih | orLeft _ _ ih | orRight _ _ ih =>
    simp only [Filter.attributes, ih]

theorem ofFilter (h : Replaces old new f f')
    (hsame : Clause.ofFilter idField new = Clause.ofFilter idField old) :
    Clause.ofFilter idField f' = Clause.ofFilter idField f := by
  induction h with
  | here => exact hsame
  | andLeft _ _ ih | andRight _ _ ih | orLeft _ _ ih | orRight _ _ ih =>
    simp only [Clause.ofFilter, ih]

/-- If the same constraints are written before and after, they are written for the
two nodes themselves. -/
theorem written_perm (h : Replaces old new f f') {c c' : Clause}
    (hc : Clause.Expresses idField c f) (hc' : Clause.Expresses idField c' f')
    (hperm : c.atoms ~ c'.atoms) :
    ∃ d d', Clause.Expresses idField d old ∧ Clause.Expresses idField d' new ∧
      d.atoms ~ d'.atoms := by
  induction h generalizing c c' with
  | here => exact ⟨c, c', hc, hc', hperm⟩
  -- in the other cases the constraints of the branch that stays cancel
  | andLeft r _ ih =>
    rcases hc.atoms_and with ⟨left, right, hl, hr, hatoms⟩
    rcases hc'.atoms_and with ⟨left', right', hl', hr', hatoms'⟩
    rw [hatoms, hatoms', hr.unique hr', List.perm_append_right_iff] at hperm
    exact ih hl hl' hperm
  | andRight l _ ih =>
    rcases hc.atoms_and with ⟨left, right, hl, hr, hatoms⟩
    rcases hc'.atoms_and with ⟨left', right', hl', hr', hatoms'⟩
    rw [hatoms, hatoms', hl.unique hl', List.perm_append_left_iff] at hperm
    exact ih hr hr' hperm
  | orLeft r _ ih =>
    rcases hc.atoms_or with ⟨left, right, hl, hr, hatoms⟩
    rcases hc'.atoms_or with ⟨left', right', hl', hr', hatoms'⟩
    rw [hatoms, hatoms', hr.unique hr', List.perm_append_right_iff] at hperm
    exact ih hl hl' hperm
  | orRight l _ ih =>
    rcases hc.atoms_or with ⟨left, right, hl, hr, hatoms⟩
    rcases hc'.atoms_or with ⟨left', right', hl', hr', hatoms'⟩
    rw [hatoms, hatoms', hl.unique hl', List.perm_append_left_iff] at hperm
    exact ih hr hr' hperm

end Replaces

end Filter

/-! ## Equalities and operators -/

namespace Filter

variable {idField field : String} {f leaf : Filter}

/-- A leaf with an operator, by its kind or by the text that an extension brings. -/
inductive HasOperator : Filter → LeafOperator → String → Prop where
  | test (t : Test) (field : String) (value : Value) :
      HasOperator (.test t field value) (.test t) field
  | member (field : String) (values : List Value) :
      HasOperator (.member field values) .member field
  | isNull (field : String) : HasOperator (.isNull field) .isNull field
  | isNotNull (field : String) : HasOperator (.isNotNull field) .isNotNull field
  | extension (op : LeafOperator) (field : String) (value : Value) :
      HasOperator (.extension op.text field value) op field

theorem HasOperator.attributes {op : LeafOperator} (h : leaf.HasOperator op field) :
    leaf.attributes = [field] := by
  cases h <;> rfl

theorem HasOperator.atom? {op : LeafOperator} (h : leaf.HasOperator op field) :
    ∃ value, leaf.atom? idField = Atom.ofLeaf? idField field op value := by
  cases h with
  | extension op field value =>
    have hop : Operator.ofText? op.text = some (.leaf op) := Operator.ofText?_text (.leaf op)
    exact ⟨value, by simp only [Filter.atom?, hop]⟩
  | test t field value => exact ⟨value, rfl⟩
  | member field values => exact ⟨.list values, rfl⟩
  | isNull | isNotNull => exact ⟨.null, rfl⟩

/-- A leaf with any operator but equality and the check for null writes an operator
under its field, and nothing else. -/
theorem HasOperator.clause {op : LeafOperator} (h : leaf.HasOperator op field)
    (hop : op ≠ .test .equal ∧ op ≠ .isNull) (hfield : field ≠ "$and" ∧ field ≠ "$or") {d : Clause}
    (hd : Clause.Expresses idField d leaf) :
    ∃ b : Atom, d = b.clause ∧ d.atoms = [b] ∧ b.comparison ≠ .equality := by
  cases hd with
  | and | or => cases h
  | @leaf _ b hb =>
    rcases h.atom? with ⟨value, hvalue⟩
    rw [hvalue] at hb
    have hcomparison : b.comparison ≠ .equality := by
      rcases (Atom.ofLeaf?_cases hb).2 with ⟨name, -, hname⟩ | ⟨-, hequal, -⟩ | ⟨-, hnull, -⟩
      · simp [hname]
      · exact absurd hequal hop.1
      · exact absurd hnull hop.2
    rw [← hvalue] at hb
    have hname : b.field = field := by
      simpa [h.attributes] using field_mem_attributes hb
    have hconstituents : b.clause.toValue.constituents = [.constraint b] :=
      Atom.constituents_clause (hname ▸ hfield)
        (fun name hname => operator_mem_operatorNames hb hname)
        (fun hequal => absurd hequal hcomparison)
    refine ⟨b, rfl, ?_, hcomparison⟩
    rw [Clause.atoms, hconstituents]
    rfl

theorem Compares.clause {value : Value} (h : leaf.Compares .equal field value) {d : Clause}
    (hd : Clause.Expresses idField d leaf) :
    ∃ w, coerceIdentifier idField field value = .ok w ∧ d = ⟨field, w⟩ := by
  have hclause := Clause.ofFilter_of_expresses hd
  rw [ofFilter_of_compares h, Clause.ofTest] at hclause
  cases hw : coerceIdentifier idField field value with
  | error e => simp [hw, bind, Except.bind] at hclause
  | ok w =>
    simp only [hw, bind, Except.bind, pure, Except.pure, Except.ok.injEq] at hclause
    exact ⟨w, rfl, hclause.symm⟩

end Filter

namespace Query

variable {idField : String} {before after filters : List Filter} {q q' : Query} {d : Clause}
  {f f' old new : Filter}

theorem exists_expresses (h : ofFilters idField (before ++ f :: after) = .ok q) :
    ∃ c, Clause.Expresses idField c f := by
  rcases foldlM_append_eq_ok h with ⟨start, -, hrest⟩
  rcases foldlM_cons_eq_ok hrest with ⟨next, hnext, -⟩
  rcases restrict_eq_ok hnext with ⟨c, hc, -⟩
  exact ⟨c, hc⟩

theorem ofFilters_congr (h : Clause.ofFilter idField f' = Clause.ofFilter idField f) :
    ofFilters idField (before ++ f' :: after) = ofFilters idField (before ++ f :: after) := by
  have hrestrict : ∀ q, restrict idField q f' = restrict idField q f := by
    intro q
    rw [restrict, restrict, h]
  simp only [ofFilters, List.foldlM_append, List.foldlM_cons, hrestrict]

theorem written_perm_of_ofFilters (hnames : ∀ g ∈ before ++ f :: after, g.NamesFields)
    (hnames' : ∀ g ∈ before ++ f' :: after, g.NamesFields)
    (h : ofFilters idField (before ++ f :: after) = .ok q)
    (h' : ofFilters idField (before ++ f' :: after) = .ok q') (hatoms : q.atoms ~ q'.atoms) :
    f.written idField ~ f'.written idField := by
  have hwritten := (atoms_ofFilters hnames h).symm.trans (hatoms.trans (atoms_ofFilters hnames' h'))
  rw [List.flatMap_append, List.flatMap_append, List.flatMap_cons, List.flatMap_cons,
    List.perm_append_left_iff, List.perm_append_right_iff] at hwritten
  exact hwritten

/-- A leaf with an operator can take the place of another one without a change to
the constraints of the query only if the two are written alike. -/
theorem clause_eq_of_replaced {op : LeafOperator} {field : String}
    (hnames : ∀ g ∈ before ++ f :: after, g.NamesFields)
    (h : ofFilters idField (before ++ f :: after) = .ok q)
    (hreplaces : Filter.Replaces old new f f') (hold : old.attributes = [field])
    (hnew : new.HasOperator op field) (hop : op ≠ .test .equal ∧ op ≠ .isNull)
    (hd : Clause.Expresses idField d old) (hkey : d.key ≠ "$and" ∧ d.key ≠ "$or")
    (hfield : field ≠ "$and" ∧ field ≠ "$or")
    (h' : ofFilters idField (before ++ f' :: after) = .ok q') (hatoms : q.atoms ~ q'.atoms) :
    Clause.Expresses idField d new := by
  have hattributes : f'.attributes = f.attributes :=
    hreplaces.attributes (hnew.attributes.trans hold.symm)
  have hnames' : ∀ g ∈ before ++ f' :: after, g.NamesFields := by
    simp only [List.forall_mem_append, List.forall_mem_cons] at hnames ⊢
    refine ⟨hnames.1, ?_, hnames.2.2⟩
    rw [Filter.NamesFields, hattributes]
    exact hnames.2.1
  rcases exists_expresses h with ⟨c, hc⟩
  rcases exists_expresses h' with ⟨c', hc'⟩
  have hperm : c.atoms ~ c'.atoms := by
    rw [← Filter.written_of_expresses hc, ← Filter.written_of_expresses hc']
    exact written_perm_of_ofFilters hnames hnames' h h' hatoms
  rcases hreplaces.written_perm hc hc' hperm with ⟨same, d', hsame, hd', hwritten⟩
  rcases hnew.clause hop hfield hd' with ⟨b, rfl, hb, -⟩
  rw [hsame.unique hd, hb, List.perm_singleton] at hwritten
  rw [Clause.eq_of_atoms hkey hwritten]
  exact hd'

/-- The value of an equality stands in an entry under its field, alone unless it
reads as operators.  With a range, a membership, a text test or a check against
null in its place the query is the same only if that writes the value itself;
otherwise a query of other constraints results. -/
theorem equality_stays {leaf : Filter} {field : String} {value : Value}
    (hnames : ∀ g ∈ before ++ f :: after, g.NamesFields)
    (h : ofFilters idField (before ++ f :: after) = .ok q) (hleaf : leaf ∈ f.visited)
    (hequal : leaf.Compares .equal field value) :
    ∃ w, coerceIdentifier idField field value = .ok w ∧
      (∃ whole, q.toValue.HasEntry field whole ∧ w.StandsIn whole ∧
        (w.operators? = none ∨ leaf ≠ f → whole = w)) ∧
      ∀ other op f', other.HasOperator op field → op ≠ .test .equal ∧ op ≠ .isNull →
        Filter.Replaces leaf other f f' →
        (ofFilters idField (before ++ f' :: after) = .ok q ↔
            Clause.ofFilter idField other = .ok ⟨field, w⟩) ∧
          (w.operators? = none → ∀ q', ofFilters idField (before ++ f' :: after) = .ok q' →
            q' ≠ q ∧ ¬ q.atoms ~ q'.atoms) := by
  have hattributes : leaf.attributes = [field] := by cases hequal <;> rfl
  have hfield : field ≠ "$and" ∧ field ≠ "$or" := by
    have hf : f.NamesFields := hnames f (by simp)
    apply Filter.namesFields_of_mem_visited hf hleaf
    rw [hattributes, List.mem_singleton]
  rcases exists_expresses h with ⟨c, hc⟩
  rcases hc.reaches hleaf with ⟨d, hd, -⟩
  rcases hequal.clause hd with ⟨w, hw, rfl⟩
  refine ⟨w, hw, ?entry, ?replaced⟩
  case entry =>
    rcases entry_of_node h hleaf hd hfield with ⟨whole, hentry, hstands, hbelow⟩
    refine ⟨whole, hentry, hstands, ?_⟩
    rintro (hplain | hne)
    · exact hstands.eq_of_operators? hplain
    · exact hbelow hne
  case replaced =>
    intro other op f' hother hop hreplaces
    have hwritten : ∀ {q'}, ofFilters idField (before ++ f' :: after) = .ok q' →
        q.atoms ~ q'.atoms → Clause.Expresses idField ⟨field, w⟩ other :=
      clause_eq_of_replaced hnames h hreplaces hattributes hother hop hd hfield hfield
    constructor
    · constructor
      · intro h'
        exact Clause.ofFilter_of_expresses (hwritten h' (.refl _))
      · intro hclause
        have hsame := hclause.trans (Clause.ofFilter_of_expresses hd).symm
        rw [ofFilters_congr (hreplaces.ofFilter hsame)]
        exact h
    · intro hplain q' h'
      have hother' : ¬ q.atoms ~ q'.atoms := by
        intro hperm
        rcases hother.clause hop hfield (hwritten h' hperm) with ⟨b, hb, hatoms, hcomparison⟩
        rw [Clause.atoms_of_plain hfield hplain, List.singleton_inj] at hatoms
        rw [← hatoms] at hcomparison
        contradiction
      refine ⟨?_, hother'⟩
      rintro rfl
      exact hother' (.refl _)

/-- A reference to a document reads as operators, and stays whole in a disjunction
beside operators on the same field. -/
theorem equality_stays_in_disjunction :
    let reference : Value := .dict [(.text "$ref", .text "people"), (.text "$id", .int 7)]
    let leaf : Filter := .test .equal "owner" reference
    let before : List Filter := [.isNotNull "owner"]
    let after : List Filter := [.test .greater "owner" (.int 1)]
    let q : Query := ⟨[("owner", .dict [(.text "$ne", .null), (.text "$gt", .int 1)]),
      ("$or", .list [Clause.toValue ⟨"owner", reference⟩, Clause.toValue ⟨"owner", .null⟩])]⟩
    ofFilters "_id" (before ++ .or leaf (.isNull "owner") :: after) = .ok q ∧
      q.toValue.HasEntry "owner" reference ∧
      ofFilters "_id" (before ++ .or (.isNotNull "owner") (.isNull "owner") :: after) ≠ .ok q := by
  intro reference leaf before after q
  have h : ofFilters "_id" (before ++ .or leaf (.isNull "owner") :: after) = .ok q := rfl
  have hnames : ∀ g ∈ before ++ Filter.or leaf (.isNull "owner") :: after, g.NamesFields := by
    simp [before, after, leaf, Filter.NamesFields, Filter.attributes]
  have hleaf : leaf ∈ (Filter.or leaf (.isNull "owner")).visited := by
    simp [leaf, Filter.visited]
  rcases equality_stays hnames h hleaf (.test _ _ _) with
    ⟨w, hw, ⟨whole, hentry, -, hwhole⟩, hreplaced⟩
  cases hw
  refine ⟨h, ?_, ?_⟩
  · rw [← hwhole (.inr (by simp [leaf]))]
    exact hentry
  · have hiff := (hreplaced _ _ _ (.isNotNull "owner") (by simp) (.orLeft _ .here)).1
    rw [ne_eq, hiff]
    decide +kernel

/-- A reference to a document loses its place to a check against null on the same
field, and a range is taken for an equality with the operator that it writes. -/
theorem equality_merges :
    let reference : Value := .dict [(.text "$ref", .text "people"), (.text "$id", .int 7)]
    let q : Query := ⟨[("owner", .dict [(.text "$ref", .text "people"), (.text "$id", .int 7),
      (.text "$ne", .null)])]⟩
    ofFilters "_id" [.test .equal "owner" reference, .isNotNull "owner"] = .ok q ∧
      ¬ q.toValue.HasEntry "owner" reference ∧
      ofFilters "_id" [.test .equal "age" (.dict [(.text "$gt", .int 5)])] =
        ofFilters "_id" [.test .greater "age" (.int 5)] := by
  refine ⟨rfl, ?_, rfl⟩
  rintro ⟨entries, hreaches, hentry⟩
  cases hreaches with
  | here => simp at hentry
  | clause _ hlist => simp at hlist

end Query

end DocScan
