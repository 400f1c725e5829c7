import DocScan.Proofs.QueryContents
import DocScan.Proofs.QueryRefusals

/-!
# The logical structure of queries

The documents of a query are the query itself and the clauses under its
connectives, at any depth.  As long as no field has the name of a connective, each
of these documents is itself the query of some filters: a clause under `$and` is
the query of a branch of a conjunction or of one side of a clash, and under `$or`
stand the queries of the two branches of a disjunction.
-/

namespace DocScan

/-! ## Documents and nodes -/

/-- The documents that are reached through the lists under connectives. -/
inductive Value.Reaches : Value → Value → Prop where
  | here (document : Value) : Reaches document document
  | clause {entries : List (Value × Value)} {connective : String} {clauses : List Value}
      {clause document : Value} (hconnective : connective = "$and" ∨ connective = "$or")
      (hentry : (.text connective, .list clauses) ∈ entries) (hclause : clause ∈ clauses)
      (h : Reaches clause document) : Reaches (.dict entries) document

theorem Query.mem_entries_of_toValue {q : Query} {entries : List (Value × Value)} {key : String}
    {condition : Value} (hentries : q.toValue = .dict entries)
    (h : (.text key, condition) ∈ entries) : (key, condition) ∈ q.entries := by
  cases hentries
  simpa using h

namespace Filter

theorem mem_visited_self (f : Filter) : f ∈ f.visited := by
  cases f <;> simp [visited]

theorem mem_visited_branch {l r branch : Filter} (hbranch : branch ∈ [l, r]) :
    branch ∈ (Filter.and l r).visited ∧ branch ∈ (Filter.or l r).visited := by
  have hself := mem_visited_self branch
  simp only [List.mem_cons, List.not_mem_nil, or_false] at hbranch
  rcases hbranch with rfl | rfl <;> simp [visited, hself]

theorem mem_visited_trans {f g node : Filter} (hnode : node ∈ g.visited) (hg : g ∈ f.visited) :
    node ∈ f.visited := by
  induction f with
  | and l r hl hr | or l r hl hr =>
    simp only [visited, List.mem_cons, List.mem_append] at hg
    rcases hg with rfl | hg | hg
    · exact hnode
    · simp [visited, hl hg]
    · simp [visited, hr hg]
  | _ =>
    simp only [visited, List.mem_singleton] at hg
    exact hg ▸ hnode

theorem namesFields_of_mem_visited {f node : Filter} (hf : f.NamesFields)
    (hnode : node ∈ f.visited) : node.NamesFields := by
  induction f with
  | and l r hl hr | or l r hl hr =>
    have hbranches := namesFields_branches hf
    simp only [visited, List.mem_cons, List.mem_append] at hnode
    rcases hnode with rfl | hnode | hnode
    · exact hf
    · exact hl hbranches.1 hnode
    · exact hr hbranches.2 hnode
  | _ =>
    simp only [visited, List.mem_singleton] at hnode
    exact hnode ▸ hf

end Filter

/-! ## What stands under connectives -/

namespace Query

variable {idField : String} {filters more : List Filter} {q q' : Query} {c : Clause} {f : Filter}

/-- What may stand under `$and`: the query of a branch of a conjunction, and either
side of a clash, where a filter cannot be united with earlier ones. -/
inductive Conjunct (idField : String) (filters : List Filter) : Query → Prop where
  | branch {l r branch : Filter} {q : Query} (hnode : .and l r ∈ filters)
      (hbranch : branch ∈ [l, r]) (h : ofFilters idField [branch] = .ok q) :
      Conjunct idField filters q
  | clash {group : List Filter} {f : Filter} {key : String} {earlier later side : Value}
      (horder : (group ++ [f]).Sublist filters) (hkey : key ≠ "$and")
      (hearlier : ofFilters idField group = .ok ⟨[(key, earlier)]⟩)
      (hlater : ofFilters idField [f] = .ok ⟨[(key, later)]⟩)
      (hapart : earlier.unite? later = none) (hside : side ∈ [earlier, later]) :
      Conjunct idField filters ⟨[(key, side)]⟩

/-- The entries of a query by their keys: conjuncts under `$and`, the branches of
a disjunction under `$or`, and under any key but `$and` filters that unite. -/
structure Structured (idField : String) (filters : List Filter) (q : Query) : Prop where
  conjunction : ∀ condition, ("$and", condition) ∈ q.entries →
    ∃ items : List Query, condition = .list (items.map toValue) ∧
      ∀ item ∈ items, Conjunct idField filters item
  disjunction : ∀ condition, ("$or", condition) ∈ q.entries →
    ∃ l r left right, .or l r ∈ filters ∧ ofFilters idField [l] = .ok left ∧
      ofFilters idField [r] = .ok right ∧ condition = .list [left.toValue, right.toValue]
  groups : ∀ key condition, (key, condition) ∈ q.entries → key ≠ "$and" →
    ∃ group : List Filter, group.Sublist filters ∧
      ofFilters idField group = .ok ⟨[(key, condition)]⟩

theorem Conjunct.mono (h : Conjunct idField filters q) (hmore : filters.Sublist more) :
    Conjunct idField more q := by
  cases h with
  | branch hnode hbranch h => exact .branch (hmore.subset hnode) hbranch h
  | clash horder hkey hearlier hlater hapart hside =>
    exact .clash (horder.trans hmore) hkey hearlier hlater hapart hside

namespace Structured

theorem mono (hq : q.Structured idField filters) (hmore : filters.Sublist more) :
    q.Structured idField more := by
  constructor
  · intro condition hentry
    rcases hq.conjunction condition hentry with ⟨items, hcondition, hitems⟩
    exact ⟨items, hcondition, fun item hitem => (hitems item hitem).mono hmore⟩
  · intro condition hentry
    rcases hq.disjunction condition hentry with ⟨l, r, left, right, hnode, hbranches⟩
    exact ⟨l, r, left, right, hmore.subset hnode, hbranches⟩
  · intro key condition hentry hkey
    rcases hq.groups key condition hentry hkey with ⟨group, hgroup, hcompiled⟩
    exact ⟨group, hgroup.trans hmore, hcompiled⟩

theorem of_entries (hq : q.Structured idField filters) (h : q'.entries ⊆ q.entries) :
    q'.Structured idField filters :=
  ⟨fun condition hentry => hq.conjunction condition (h hentry),
    fun condition hentry => hq.disjunction condition (h hentry),
    fun key condition hentry => hq.groups key condition (h hentry)⟩

theorem append (hq : q.Structured idField filters) (hq' : q'.Structured idField filters) :
    (Query.mk (q.entries ++ q'.entries)).Structured idField filters := by
  constructor
  · intro condition hentry
    rcases List.mem_append.mp hentry with hentry | hentry
    · exact hq.conjunction condition hentry
    · exact hq'.conjunction condition hentry
  · intro condition hentry
    rcases List.mem_append.mp hentry with hentry | hentry
    · exact hq.disjunction condition hentry
    · exact hq'.disjunction condition hentry
  · intro key condition hentry
    rcases List.mem_append.mp hentry with hentry | hentry
    · exact hq.groups key condition hentry
    · exact hq'.groups key condition hentry

theorem empty : Structured idField filters .empty := ⟨nofun, nofun, nofun⟩

theorem conjuncts {items : List Query} (hitems : ∀ item ∈ items, Conjunct idField filters item) :
    (Query.mk [("$and", .list (items.map toValue))]).Structured idField filters := by
  constructor
  · intro condition hentry
    have hcondition : condition = .list (items.map toValue) := by simpa using hentry
    exact ⟨items, hcondition, hitems⟩
  · intro condition hentry
    simp at hentry
  · intro key condition hentry hkey
    simp [hkey] at hentry

theorem field {key : String} {condition : Value} {group : List Filter}
    (hkey : key ≠ "$and" ∧ key ≠ "$or") (hgroup : group.Sublist filters)
    (hcompiled : ofFilters idField group = .ok ⟨[(key, condition)]⟩) :
    (Query.mk [(key, condition)]).Structured idField filters := by
  constructor
  · intro other hentry
    simp [hkey.1.symm] at hentry
  · intro other hentry
    simp [hkey.2.symm] at hentry
  · intro name other hentry _
    rw [List.mem_singleton] at hentry
    cases hentry
    exact ⟨group, hgroup, hcompiled⟩

theorem replace {key : String} {condition : Value} (hq : q.Structured idField filters)
    (hnew : (Query.mk [(key, condition)]).Structured idField filters) :
    (q.replace key condition).Structured idField filters := by
  apply (hq.append hnew).of_entries
  intro entry hentry
  rcases List.mem_map.mp hentry with ⟨old, hold, rfl⟩
  by_cases hkey : old.1 = key <;> simp [hkey, hold]

theorem conjoin {items : List Query} (hq : q.Structured idField filters)
    (hitems : ∀ item ∈ items, Conjunct idField filters item)
    (h : q.conjoin (items.map toValue) = .ok q') : q'.Structured idField filters := by
  rcases conjoin_eq_ok h with ⟨-, rfl⟩ | ⟨clauses, hfind, rfl⟩
  · exact hq.append (.conjuncts hitems)
  · rcases hq.conjunction _ (mem_entries_of_find? hfind) with ⟨earlier, hclauses, hearlier⟩
    cases hclauses
    rw [← List.map_append]
    apply hq.replace (.conjuncts _)
    exact List.forall_mem_append.mpr ⟨hearlier, hitems⟩

end Structured

/-! ## One more filter -/

theorem structured_of_expresses (hc : Clause.Expresses idField c f) (hnames : f.NamesFields) :
    (Query.mk [(c.key, c.condition)]).Structured idField [f] := by
  have hcompiled := hc.ofFilters_singleton
  cases hc with
  | @leaf _ a ha =>
    have hfield := hnames a.field (Filter.field_mem_attributes ha)
    rw [← Atom.clause_key] at hfield
    exact .field hfield (List.Sublist.refl _) hcompiled
  | @and l r left right hl hr =>
    have hnode : Filter.and l r ∈ [Filter.and l r] := List.mem_singleton.mpr rfl
    have hleft := Conjunct.branch hnode (by simp) hl.ofFilters_singleton
    have hright := Conjunct.branch hnode (by simp) hr.ofFilters_singleton
    have hitems : ∀ item ∈ [Query.mk [(left.key, left.condition)],
        Query.mk [(right.key, right.condition)]], Conjunct idField [.and l r] item := by
      simpa using ⟨hleft, hright⟩
    exact Structured.conjuncts hitems
  | @or l r left right hl hr =>
    constructor
    · intro condition hentry
      simp [Clause.pair] at hentry
    · intro condition hentry
      have hcondition : condition = .list [left.toValue, right.toValue] := by
        simpa [Clause.pair] using hentry
      exact ⟨l, r, _, _, List.mem_singleton.mpr rfl, hl.ofFilters_singleton,
        hr.ofFilters_singleton, hcondition⟩
    · intro key condition hentry _
      rw [List.mem_singleton] at hentry
      cases hentry
      exact ⟨_, List.Sublist.refl _, hcompiled⟩

theorem restrict_of_merge (hc : Clause.Expresses idField c f) (h : q.merge c = .ok q') :
    restrict idField q f = .ok q' := by
  rw [restrict, Clause.ofFilter_of_expresses hc]
  simp [bind, Except.bind, h]

/-- Filters that are united under a key take in one more. -/
theorem ofFilters_group {group : List Filter} {existing united : Value}
    (hgroup : ofFilters idField group = .ok ⟨[(c.key, existing)]⟩)
    (hc : Clause.Expresses idField c f) (hkey : c.key ≠ "$and")
    (hunite : existing.unite? c.condition = some united) :
    ofFilters idField (group ++ [f]) = .ok ⟨[(c.key, united)]⟩ := by
  have hmerge : (Query.mk [(c.key, existing)]).merge c = .ok ⟨[(c.key, united)]⟩ := by
    simp [merge, find?, hkey, hunite, replace]
  have hrestrict := restrict_of_merge hc hmerge
  unfold ofFilters at hgroup ⊢
  simp [List.foldlM_append, hgroup, hrestrict, bind, Except.bind, pure, Except.pure]

namespace Structured

theorem conjoin_sides {earlier : Value} (sides : List Value) (hq : q.Structured idField filters)
    {group : List Filter} (horder : (group ++ [f]).Sublist filters) (hkey : c.key ≠ "$and")
    (hearlier : ofFilters idField group = .ok ⟨[(c.key, earlier)]⟩)
    (hc : Clause.Expresses idField c f) (hapart : earlier.unite? c.condition = none)
    (hsides : sides ⊆ [earlier, c.condition])
    (h : q.conjoin (sides.map fun side => (Clause.mk c.key side).toValue) = .ok q') :
    q'.Structured idField filters := by
  have hitems : ∀ item ∈ sides.map fun side => Query.mk [(c.key, side)],
      Conjunct idField filters item := by
    rw [List.forall_mem_map]
    intro side hside
    exact .clash horder hkey hearlier hc.ofFilters_singleton hapart (hsides hside)
  apply hq.conjoin hitems
  rw [List.map_map]
  exact h

/-- A filter that joins a structured query leaves it structured. -/
theorem merge (hq : q.Structured idField filters) (hc : Clause.Expresses idField c f)
    (hnames : f.NamesFields) (h : q.merge c = .ok q') :
    q'.Structured idField (filters ++ [f]) := by
  have hbefore : q.Structured idField (filters ++ [f]) := hq.mono (List.sublist_append_left _ _)
  have hclause : (Query.mk [(c.key, c.condition)]).Structured idField (filters ++ [f]) :=
    (structured_of_expresses hc hnames).mono (List.sublist_append_right _ _)
  have hgroup : ∀ existing, q.find? c.key = some existing → c.key ≠ "$and" →
      ∃ group : List Filter, (group ++ [f]).Sublist (filters ++ [f]) ∧
        ofFilters idField group = .ok ⟨[(c.key, existing)]⟩ := by
    intro existing hfind hkey
    rcases hq.groups _ _ (mem_entries_of_find? hfind) hkey with ⟨group, hgroup, hcompiled⟩
    exact ⟨group, hgroup.append_right [f], hcompiled⟩
  cases merges_of_merge h with
  | added => exact hbefore.append hclause
  | @extended _ clauses hkey hclauses hconjoin =>
    rcases hclause.conjunction c.condition (by simp [hkey]) with ⟨items, hitems, hconjuncts⟩
    rw [hitems, Value.elements?] at hclauses
    cases hclauses
    exact hbefore.conjoin hconjuncts hconjoin
  | @united existing united hkey hfind hunite =>
    rcases hgroup existing hfind hkey with ⟨group, horder, hexisting⟩
    -- what stands under `$or` is a list, and lists do not unite
    have hor : c.key ≠ "$or" := by
      intro hor
      rcases hq.disjunction existing (hor ▸ mem_entries_of_find? hfind) with
        ⟨l, r, left, right, -, -, -, hlist⟩
      simp [hlist, Value.unite?, Value.operators?] at hunite
    exact hbefore.replace (.field ⟨hkey, hor⟩ horder (ofFilters_group hexisting hc hkey hunite))
  | @repeated _ existing hkey hfind hunite hconjoin =>
    have hand : c.key ≠ "$and" := by simp [hkey]
    rcases hgroup existing hfind hand with ⟨group, horder, hexisting⟩
    exact hbefore.conjoin_sides [c.condition] horder hand hexisting hc hunite (by simp) hconjoin
  | @moved _ existing hkey hfind hunite hconjoin =>
    rcases hgroup existing hfind hkey.1 with ⟨group, horder, hexisting⟩
    have herase : (q.erase c.key).Structured idField (filters ++ [f]) :=
      hbefore.of_entries (List.filter_subset_self _)
    exact herase.conjoin_sides [existing, c.condition] horder hkey.1 hexisting hc hunite (by simp)
      hconjoin

end Structured

/-! ## All filters -/

theorem structured_ofFilters (hnames : ∀ f ∈ filters, f.NamesFields)
    (h : ofFilters idField filters = .ok q) : q.Structured idField filters :=
  foldlM_restrict_induction (P := Structured idField)
    (fun hf hc hp hmerge => hp.merge hc (hnames _ hf) hmerge) .empty h

/-- A query of nodes that are visited in some filters. -/
structure OfNodes (idField : String) (filters nodes : List Filter) (q : Query) : Prop where
  visited : ∀ node ∈ nodes, node ∈ filters.flatMap Filter.visited
  compiled : ofFilters idField nodes = .ok q

namespace OfNodes

variable {nodes : List Filter}

theorem of_subset (h : ofFilters idField nodes = .ok q) (hnodes : nodes ⊆ filters) :
    OfNodes idField filters nodes q :=
  ⟨fun node hnode => List.mem_flatMap.mpr ⟨node, hnodes hnode, node.mem_visited_self⟩, h⟩

theorem of_branch {node branch : Filter} (h : ofFilters idField [branch] = .ok q)
    (hnode : node ∈ filters) (hbranch : branch ∈ node.visited) :
    OfNodes idField filters [branch] q := by
  refine ⟨?_, h⟩
  rw [List.forall_mem_singleton, List.mem_flatMap]
  exact ⟨node, hnode, hbranch⟩

theorem trans {inner : List Filter} (h : OfNodes idField filters nodes q)
    (hinner : OfNodes idField nodes inner q') : OfNodes idField filters inner q' := by
  refine ⟨?_, hinner.compiled⟩
  intro node hnode
  rcases List.mem_flatMap.mp (hinner.visited node hnode) with ⟨g, hg, hnode⟩
  rcases List.mem_flatMap.mp (h.visited g hg) with ⟨f, hf, hgf⟩
  exact List.mem_flatMap.mpr ⟨f, hf, Filter.mem_visited_trans hnode hgf⟩

theorem namesFields (h : OfNodes idField filters nodes q) (hnames : ∀ f ∈ filters, f.NamesFields) :
    ∀ node ∈ nodes, node.NamesFields := by
  intro node hnode
  rcases List.mem_flatMap.mp (h.visited node hnode) with ⟨f, hf, hnode⟩
  exact Filter.namesFields_of_mem_visited (hnames f hf) hnode

end OfNodes

theorem Conjunct.ofNodes (h : Conjunct idField filters q) :
    ∃ nodes, OfNodes idField filters nodes q := by
  cases h with
  | branch hnode hbranch h =>
    exact ⟨_, .of_branch h hnode (Filter.mem_visited_branch hbranch).1⟩
  | clash horder hkey hearlier hlater hapart hside =>
    have hsubset := List.append_subset.mp horder.subset
    simp only [List.mem_cons, List.not_mem_nil, or_false] at hside
    rcases hside with rfl | rfl
    · exact ⟨_, .of_subset hearlier hsubset.1⟩
    · exact ⟨_, .of_subset hlater hsubset.2⟩

theorem Structured.clause {connective : String} {clauses : List Value} {clause : Value}
    (hq : q.Structured idField filters) (hconnective : connective = "$and" ∨ connective = "$or")
    (hentry : (connective, .list clauses) ∈ q.entries) (hclause : clause ∈ clauses) :
    ∃ nodes part, OfNodes idField filters nodes part ∧ clause = part.toValue := by
  rcases hconnective with rfl | rfl
  · rcases hq.conjunction _ hentry with ⟨items, hitems, hconjuncts⟩
    cases hitems
    rcases List.mem_map.mp hclause with ⟨item, hitem, rfl⟩
    rcases (hconjuncts item hitem).ofNodes with ⟨nodes, hnodes⟩
    exact ⟨nodes, item, hnodes, rfl⟩
  · rcases hq.disjunction _ hentry with ⟨l, r, left, right, hnode, hleft, hright, hlist⟩
    cases hlist
    simp only [List.mem_cons, List.not_mem_nil, or_false] at hclause
    rcases hclause with rfl | rfl
    · exact ⟨_, left, .of_branch hleft hnode (Filter.mem_visited_branch (by simp)).2, rfl⟩
    · exact ⟨_, right, .of_branch hright hnode (Filter.mem_visited_branch (by simp)).2, rfl⟩

theorem structured_of_reaches {document : Value} (hnames : ∀ f ∈ filters, f.NamesFields)
    (h : ofFilters idField filters = .ok q) (hreaches : q.toValue.Reaches document) :
    ∃ nodes part, OfNodes idField filters nodes part ∧ document = part.toValue ∧
      part.Structured idField nodes := by
  generalize hroot : q.toValue = root at hreaches
  induction hreaches generalizing q filters with
  | here =>
    exact ⟨filters, q, .of_subset h (List.Subset.refl _), hroot.symm, structured_ofFilters hnames h⟩
  | clause hconnective hentry hclause _ ih =>
    -- the clause is the query of nodes of the filters, to which the hypothesis applies
    have hentry := mem_entries_of_toValue hroot hentry
    rcases (structured_ofFilters hnames h).clause hconnective hentry hclause with
      ⟨nodes, part, hnodes, hvalue⟩
    rcases ih (hnodes.namesFields hnames) hnodes.compiled hvalue.symm with
      ⟨inner, result, hinner, hresult⟩
    exact ⟨inner, result, hnodes.trans hinner, hresult⟩

/-- Filters without a field `$and` come to a query or are refused, unless a node of them
is to be shown and cannot be.  In a query without a field `$and` or `$or` the lists
under connectives are made from the connectives of filters and from clashes between
filters alone, at any depth. -/
theorem connectives_keep_structure (idField : String) (filters : List Filter) :
    ((∀ f ∈ filters, "$and" ∉ f.attributes) →
      (∃ q, ofFilters idField filters = .ok q) ∨
        ∃ e, ofFilters idField filters = .error e ∧
          ((∃ r, e.refusal? = some r) ∨ e.refusal? = none ∧
            e.message = Decimal.limitMessage ∧
            ∃ node ∈ filters.flatMap Filter.visited, node.Unshown)) ∧
    ((∀ f ∈ filters, f.NamesFields) →
      ∀ q, ofFilters idField filters = .ok q → ∀ document, q.toValue.Reaches document →
        ∃ nodes part, OfNodes idField filters nodes part ∧ document = part.toValue ∧
          part.Structured idField nodes) := by
  constructor
  · intro hnames
    have hsettles : Settles ((filters.flatMap Filter.visited).findSome? (Filter.offence? idField))
        (ofFilters idField filters) := Extensible.empty.settles_foldlM hnames
    cases hfound : (filters.flatMap Filter.visited).findSome? (Filter.offence? idField) with
    | none =>
      rw [hfound] at hsettles
      exact .inl hsettles
    | some e =>
      rw [hfound] at hsettles
      rcases List.exists_of_findSome?_eq_some hfound with ⟨node, hvisited, hnode⟩
      rcases Filter.offence?_eq_some_iff.mp hnode with ⟨r, hoffends⟩
      refine .inr ⟨e, hsettles, ?_⟩
      by_cases hshown : node.Unshown
      · rcases hshown.unrefused hoffends with ⟨hnone, hlimit⟩
        exact .inr ⟨hnone, hlimit, node, hvisited, hshown⟩
      · exact .inl ⟨r, Filter.refusal?_of_offends hoffends hshown⟩
  · intro hnames q h document hreaches
    exact structured_of_reaches hnames h hreaches

/-- Two bounds that were united clash with a third one inside a list that an
earlier conjunction has begun. -/
theorem connectives_keep_structure_clashing :
    let filters : List Filter :=
      [.and (.isNull "a") (.or (.isNull "b") (.test .equal "b" (.int 1))),
        .test .greater "age" (.int 17), .test .less "age" (.int 66), .test .greater "age" (.int 20)]
    let united : Value :=
      .dict [(.text "age", .dict [(.text "$gt", .int 17), (.text "$lt", .int 66)])]
    (∀ f ∈ filters, f.NamesFields) ∧
      ((∃ q, ofFilters "_id" filters = .ok q) ∨
        ∃ e, ofFilters "_id" filters = .error e ∧
          ((∃ r, e.refusal? = some r) ∨ e.refusal? = none ∧
            e.message = Decimal.limitMessage ∧
            ∃ node ∈ filters.flatMap Filter.visited, node.Unshown)) ∧
      ∃ q, ofFilters "_id" filters = .ok q ∧ q.toValue.Reaches united ∧
        ∃ nodes part, OfNodes "_id" filters nodes part ∧ united = part.toValue ∧
          part.Structured "_id" nodes := by
  intro filters united
  have hnames : ∀ f ∈ filters, f.NamesFields := by
    simp [filters, Filter.NamesFields, Filter.attributes]
  have hand : ∀ f ∈ filters, "$and" ∉ f.attributes := by decide +kernel
  have hreaches : (Query.mk [("$and", .list [Clause.toValue ⟨"a", .null⟩,
      Clause.toValue ⟨"$or", .list [Clause.toValue ⟨"b", .null⟩, Clause.toValue ⟨"b", .int 1⟩]⟩,
      united, Clause.toValue ⟨"age", .dict [(.text "$gt", .int 20)]⟩])]).toValue.Reaches united :=
    .clause (.inl rfl) (List.mem_singleton.mpr rfl) (by simp) (.here united)
  have hstructure := connectives_keep_structure "_id" filters
  exact ⟨hnames, hstructure.1 hand, _, rfl, hreaches, hstructure.2 hnames _ rfl united hreaches⟩

/-- A field `$and` takes the place of the list of clauses, so that a conjunction
cannot be added: the filters come to no query and are not refused.  By themselves,
fields with the names of connectives put any value under these. -/
theorem fields_break_structure :
    ofFilters "_id" [.isNull "$and", .and (.test .equal "a" (.int 1)) (.test .equal "b" (.int 2))] =
        .error (.merge (.notExtensible .null)) ∧
      (CompileError.merge (.notExtensible .null)).refusal? = none ∧
      ofFilters "_id" [.test .equal "$and" (.int 5), .isNull "$or"] =
        .ok ⟨[("$and", .int 5), ("$or", .null)]⟩ :=
  ⟨rfl, rfl, rfl⟩

end Query

end DocScan
