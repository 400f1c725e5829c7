import DocScan.Proofs.QueryStructure

/-!
# What becomes of an equality

An equality is written as the bare value under its field.  A dictionary of
operators under the same field can later be united with it when that value reads
as operators itself.  No other value is touched once it stands in a query, and none
can be taken for the constraint of another leaf.
-/

namespace DocScan

open scoped List

/-! ## Conditions within conditions -/

namespace Value

/-- A condition is the whole of another one, or its operators stand in a row among
those of the other. -/
def StandsIn (v whole : Value) : Prop :=
  whole = v ∨ ∃ ops all, v.operators? = some ops ∧ whole.operators? = some all ∧ ops <:+: all

variable {v w whole : Value}

theorem StandsIn.refl (v : Value) : v.StandsIn v := .inl rfl

theorem StandsIn.trans (h : v.StandsIn w) (hw : w.StandsIn whole) : v.StandsIn whole := by
  rcases h with rfl | ⟨ops, some, hops, hsome, hinfix⟩
  · exact hw
  rcases hw with rfl | ⟨same, all, hsame, hall, hinfix'⟩
  · exact .inr ⟨ops, some, hops, hsome, hinfix⟩
  · rw [hsome] at hsame
    cases hsame
    exact .inr ⟨ops, all, hops, hall, hinfix.trans hinfix'⟩

theorem StandsIn.eq_of_operators? (h : v.StandsIn whole) (hv : v.operators? = none) :
    whole = v := by
  rcases h with heq | ⟨ops, all, hops, -⟩
  · exact heq
  · rw [hv] at hops
    contradiction

theorem standsIn_unite {existing added united : Value} (h : existing.unite? added = some united) :
    existing.StandsIn united ∧ added.StandsIn united := by
  rcases unite?_eq_some h with ⟨es, fs, hes, hfs, hunited⟩
  constructor
  · exact .inr ⟨es, es ++ fs, hes, hunited, (List.prefix_append es fs).isInfix⟩
  · exact .inr ⟨fs, es ++ fs, hfs, hunited, (List.suffix_append es fs).isInfix⟩

/-- An entry of a document that is reached through connectives. -/
def HasEntry (root : Value) (field : String) (condition : Value) : Prop :=
  ∃ entries, root.Reaches (.dict entries) ∧ (.text field, condition) ∈ entries

end Value

theorem Clause.hasEntry (c : Clause) : c.toValue.HasEntry c.key c.condition :=
  ⟨_, .here _, List.mem_singleton.mpr rfl⟩

/-! ## Entries while clauses are merged -/

namespace Query

variable {idField field : String} {q q' : Query} {c : Clause} {condition : Value}
  {filters : List Filter}

/-- An entry in one of the clauses under a connective. -/
def Encloses (q : Query) (field : String) (condition : Value) : Prop :=
  ∃ connective clauses clause, (connective = "$and" ∨ connective = "$or") ∧
    q.find? connective = some (.list clauses) ∧ clause ∈ clauses ∧
    clause.HasEntry field condition

/-- A condition stands in one under its field, at the top of a query or in a clause
under a connective. -/
def Keeps (q : Query) (field : String) (condition : Value) : Prop :=
  ∃ whole, condition.StandsIn whole ∧ (q.find? field = some whole ∨ q.Encloses field whole)

theorem Encloses.hasEntry (h : q.Encloses field condition) :
    q.toValue.HasEntry field condition := by
  rcases h with ⟨connective, clauses, clause, hconnective, hfind, hclause, entries, hreaches,
    hentry⟩
  have hlist : (Value.text connective, Value.list clauses) ∈
      q.entries.map fun entry => (Value.text entry.1, entry.2) :=
    List.mem_map.mpr ⟨_, mem_entries_of_find? hfind, rfl⟩
  exact ⟨entries, .clause hconnective hlist hclause hreaches, hentry⟩

theorem Keeps.hasEntry (h : q.Keeps field condition) :
    ∃ whole, q.toValue.HasEntry field whole ∧ condition.StandsIn whole := by
  rcases h with ⟨whole, hstands, hfind | hencloses⟩
  · have hentry : (Value.text field, whole) ∈
        q.entries.map fun entry => (Value.text entry.1, entry.2) :=
      List.mem_map.mpr ⟨_, mem_entries_of_find? hfind, rfl⟩
    exact ⟨whole, ⟨_, .here _, hentry⟩, hstands⟩
  · exact ⟨whole, hencloses.hasEntry, hstands⟩

theorem encloses_conjoin {clauses : List Value} {clause : Value}
    (h : q.conjoin clauses = .ok q') (hclause : clause ∈ clauses)
    (hentry : clause.HasEntry field condition) : q'.Encloses field condition := by
  rcases (find?_conjoin h).1 with ⟨items, hfind, -⟩
  exact ⟨_, _, clause, .inl rfl, hfind, List.mem_append_right _ hclause, hentry⟩

theorem Encloses.conjoin {clauses : List Value} (hq : q.Encloses field condition)
    (h : q.conjoin clauses = .ok q') : q'.Encloses field condition := by
  rcases hq with ⟨connective, earlier, clause, hconnective, hfind, hclause, hentry⟩
  have hconjoin := find?_conjoin h
  by_cases hand : connective = "$and"
  · subst hand
    rcases hconjoin.1 with ⟨items, hitems, hearlier⟩
    rw [hearlier earlier hfind] at hitems
    exact ⟨_, _, clause, hconnective, hitems, List.mem_append_left _ hclause, hentry⟩
  · exact ⟨_, _, clause, hconnective, (hconjoin.2 connective hand).trans hfind, hclause, hentry⟩

/-- What is in a clause under a connective stays as it is. -/
theorem Encloses.merge (hq : q.Encloses field condition) (h : q.merge c = .ok q') :
    q'.Encloses field condition := by
  have hplace := hq
  rcases hplace with ⟨connective, clauses, clause, hconnective, hfind, hclause, hentry⟩
  cases merges_of_merge h with
  | added => exact ⟨_, _, clause, hconnective, by simp [find?_add, hfind], hclause, hentry⟩
  | extended _ _ hconjoin => exact hq.conjoin hconjoin
  | @united existing united hkey hexisting hunite =>
    -- lists do not unite, so that this happens under another key
    have hne : connective ≠ c.key := by
      rintro rfl
      rw [hfind] at hexisting
      cases hexisting
      simp [Value.unite?, Value.operators?] at hunite
    exact ⟨_, _, clause, hconnective, by simp [find?_replace, hne, hfind], hclause, hentry⟩
  | repeated _ _ _ hconjoin => exact hq.conjoin hconjoin
  | @moved _ existing hkey hexisting hunite hconjoin =>
    have hne : connective ≠ c.key := by
      rintro rfl
      rcases hconnective with hand | hor
      · exact hkey.1 hand
      · exact hkey.2 hor
    have herase : (q.erase c.key).Encloses field condition :=
      ⟨_, _, clause, hconnective, by simp [find?_erase, hne, hfind], hclause, hentry⟩
    exact herase.conjoin hconjoin

theorem keeps_merge_of_find? (hfind : q.find? field = some condition)
    (hfield : field ≠ "$and" ∧ field ≠ "$or") (h : q.merge c = .ok q') :
    q'.Keeps field condition := by
  by_cases hname : field = c.key
  · subst hname
    cases merges_of_merge h with
    | added hnone => simp [hfind] at hnone
    | extended hand => exact absurd hand hfield.1
    | @united existing united _ hexisting hunite =>
      rw [hfind] at hexisting
      cases hexisting
      exact ⟨united, (Value.standsIn_unite hunite).1, .inl (by simp [find?_replace, hfind])⟩
    | repeated hor => exact absurd hor hfield.2
    | @moved _ existing _ hexisting _ hconjoin =>
      rw [hfind] at hexisting
      cases hexisting
      have hentry := (Clause.mk c.key condition).hasEntry
      exact ⟨condition, .refl _, .inr (encloses_conjoin hconjoin (by simp) hentry)⟩
  · have hsame := (find?_merge_of_ne hname hfield.1 h).trans hfind
    exact ⟨condition, .refl _, .inl hsame⟩

theorem Keeps.merge (hq : q.Keeps field condition) (hfield : field ≠ "$and" ∧ field ≠ "$or")
    (h : q.merge c = .ok q') : q'.Keeps field condition := by
  rcases hq with ⟨whole, hstands, hfind | hencloses⟩
  · rcases keeps_merge_of_find? hfind hfield h with ⟨larger, hwhole, hplace⟩
    exact ⟨larger, hstands.trans hwhole, hplace⟩
  · exact ⟨whole, hstands, .inr (hencloses.merge h)⟩

/-- A clause that joins a query is kept there. -/
theorem keeps_merge_clause (hkey : c.key ≠ "$and" ∧ c.key ≠ "$or") (h : q.merge c = .ok q') :
    q'.Keeps c.key c.condition := by
  cases merges_of_merge h with
  | added hfind => exact ⟨c.condition, .refl _, .inl (by simp [find?_add, hfind])⟩
  | extended hand => exact absurd hand hkey.1
  | @united existing united _ hfind hunite =>
    exact ⟨united, (Value.standsIn_unite hunite).2, .inl (by simp [find?_replace, hfind])⟩
  | repeated hor => exact absurd hor hkey.2
  | moved _ _ _ hconjoin =>
    exact ⟨c.condition, .refl _, .inr (encloses_conjoin hconjoin (by simp) c.hasEntry)⟩

/-- So is whatever stands in a clause under a connective. -/
theorem encloses_merge_clause {clauses : List Value} {clause : Value}
    (hkey : c.key = "$and" ∨ c.key = "$or") (hlist : c.condition = .list clauses)
    (hclause : clause ∈ clauses) (hentry : clause.HasEntry field condition)
    (h : q.merge c = .ok q') : q'.Encloses field condition := by
  cases merges_of_merge h with
  | added hfind =>
    exact ⟨_, clauses, clause, hkey, by simp [find?_add, hfind, hlist], hclause, hentry⟩
  | extended _ hclauses hconjoin =>
    rw [hlist, Value.elements?] at hclauses
    cases hclauses
    exact encloses_conjoin hconjoin hclause hentry
  | united _ _ hunite => simp [hlist, Value.unite?, Value.operators?] at hunite
  | repeated _ _ _ hconjoin =>
    rcases hentry with ⟨entries, hreaches, hentry⟩
    have hwhole : c.toValue.HasEntry field condition :=
      ⟨entries, .clause hkey (by simp [hlist]) hclause hreaches, hentry⟩
    exact encloses_conjoin hconjoin (List.mem_singleton.mpr rfl) hwhole
  | moved hfield =>
    rcases hkey with hand | hor
    · exact absurd hand hfield.1
    · exact absurd hor hfield.2

theorem Encloses.foldlM (hq : q.Encloses field condition)
    (h : filters.foldlM (restrict idField) q = .ok q') : q'.Encloses field condition :=
  foldlM_restrict_induction (P := fun _ p => p.Encloses field condition)
    (fun _ _ hp hmerge => hp.merge hmerge) hq h

theorem Keeps.foldlM (hq : q.Keeps field condition) (hfield : field ≠ "$and" ∧ field ≠ "$or")
    (h : filters.foldlM (restrict idField) q = .ok q') : q'.Keeps field condition :=
  foldlM_restrict_induction (P := fun _ p => p.Keeps field condition)
    (fun _ _ hp hmerge => hp.merge hfield hmerge) hq h

end Query

/-! ## Leaves in clauses -/

namespace Clause

variable {idField : String} {c d : Clause} {f node : Filter}

theorem Expresses.unique (hc : Expresses idField c f) (hd : Expresses idField d f) : c = d := by
  have hsame := (ofFilter_of_expresses hc).symm.trans (ofFilter_of_expresses hd)
  exact Except.ok.inj hsame

theorem reaches_pair {connective : String} {left right branch : Clause} {document : Value}
    (hconnective : connective = "$and" ∨ connective = "$or") (hbranch : branch ∈ [left, right])
    (h : branch.toValue.Reaches document) :
    (pair connective left right).toValue.Reaches document := by
  have hclause : branch.toValue ∈ [left.toValue, right.toValue] :=
    List.mem_map.mpr ⟨branch, hbranch, rfl⟩
  exact .clause hconnective (List.mem_singleton.mpr rfl) hclause h

theorem eq_of_mem_visited_leaf {leaf : Filter} {a : Atom} (ha : leaf.atom? idField = some a)
    (hnode : node ∈ leaf.visited) : node = leaf := by
  cases leaf with
  | and | or => simp [Filter.atom?] at ha
  | _ => simpa [Filter.visited] using hnode

/-- The clauses of the nodes of a filter are documents of its clause. -/
theorem Expresses.reaches (hc : Expresses idField c f) (hnode : node ∈ f.visited) :
    ∃ d, Expresses idField d node ∧ c.toValue.Reaches d.toValue := by
  induction hc with
  | @leaf f a ha =>
    have hself := eq_of_mem_visited_leaf ha hnode
    exact ⟨a.clause, hself ▸ .leaf ha, .here _⟩
  | @and l r left right hl hr hleft hright =>
    simp only [Filter.visited, List.mem_cons, List.mem_append] at hnode
    rcases hnode with rfl | hnode | hnode
    · exact ⟨_, .and hl hr, .here _⟩
    · rcases hleft hnode with ⟨d, hd, hreaches⟩
      exact ⟨d, hd, reaches_pair (.inl rfl) (by simp) hreaches⟩
    · rcases hright hnode with ⟨d, hd, hreaches⟩
      exact ⟨d, hd, reaches_pair (.inl rfl) (by simp) hreaches⟩
  | @or l r left right hl hr hleft hright =>
    simp only [Filter.visited, List.mem_cons, List.mem_append] at hnode
    rcases hnode with rfl | hnode | hnode
    · exact ⟨_, .or hl hr, .here _⟩
    · rcases hleft hnode with ⟨d, hd, hreaches⟩
      exact ⟨d, hd, reaches_pair (.inr rfl) (by simp) hreaches⟩
    · rcases hright hnode with ⟨d, hd, hreaches⟩
      exact ⟨d, hd, reaches_pair (.inr rfl) (by simp) hreaches⟩

theorem Expresses.eq_of_field (hc : Expresses idField c f)
    (hkey : c.key ≠ "$and" ∧ c.key ≠ "$or") (hnode : node ∈ f.visited) : node = f := by
  cases hc with
  | leaf ha => exact eq_of_mem_visited_leaf ha hnode
  | and => exact absurd rfl hkey.1
  | or => exact absurd rfl hkey.2

/-- Below a clause there are only the documents in its list. -/
theorem cases_of_reaches (h : c.toValue.Reaches d.toValue) :
    d = c ∨ ∃ clauses clause, (c.key = "$and" ∨ c.key = "$or") ∧ c.condition = .list clauses ∧
      clause ∈ clauses ∧ clause.Reaches d.toValue := by
  rcases c with ⟨key, condition⟩
  rcases d with ⟨name, other⟩
  generalize hroot : (Clause.mk key condition).toValue = root at h
  cases h with
  | here =>
    left
    simpa [toValue, eq_comm] using hroot
  | clause hconnective hentry hclause hbelow =>
    cases hroot
    have hsame := List.mem_singleton.mp hentry
    simp only [Prod.mk.injEq, Value.text.injEq] at hsame
    rcases hsame with ⟨rfl, rfl⟩
    exact .inr ⟨_, _, hconnective, rfl, hclause, hbelow⟩

end Clause

namespace Query

variable {idField : String} {before after : List Filter} {q q' : Query} {c d : Clause}
  {f node : Filter}

theorem keeps_merge_below (h : q.merge c = .ok q') (hreaches : c.toValue.Reaches d.toValue)
    (hkey : d.key ≠ "$and" ∧ d.key ≠ "$or") :
    (d = c ∧ q'.Keeps d.key d.condition) ∨ q'.Encloses d.key d.condition := by
  rcases Clause.cases_of_reaches hreaches with rfl | ⟨clauses, clause, hconnective, hlist, hclause,
    hbelow⟩
  · exact .inl ⟨rfl, keeps_merge_clause hkey h⟩
  · have hentry : clause.HasEntry d.key d.condition := ⟨_, hbelow, List.mem_singleton.mpr rfl⟩
    exact .inr (encloses_merge_clause hconnective hlist hclause hentry h)

/-- The condition of a leaf stands in an entry under its field, and under a
connective it stays just as it is. -/
theorem entry_of_node (h : ofFilters idField (before ++ f :: after) = .ok q)
    (hnode : node ∈ f.visited) (hd : Clause.Expresses idField d node)
    (hkey : d.key ≠ "$and" ∧ d.key ≠ "$or") :
    ∃ whole, q.toValue.HasEntry d.key whole ∧ d.condition.StandsIn whole ∧
      (node ≠ f → whole = d.condition) := by
  rcases foldlM_append_eq_ok h with ⟨start, -, hrest⟩
  rcases foldlM_cons_eq_ok hrest with ⟨next, hnext, hafter⟩
  rcases restrict_eq_ok hnext with ⟨c, hc, hmerge⟩
  rcases hc.reaches hnode with ⟨same, hsame, hreaches⟩
  rw [hsame.unique hd] at hreaches
  rcases keeps_merge_below hmerge hreaches hkey with ⟨rfl, hkeeps⟩ | hencloses
  · have hself := hc.eq_of_field hkey hnode
    rcases (hkeeps.foldlM hkey hafter).hasEntry with ⟨whole, hentry, hstands⟩
    exact ⟨whole, hentry, hstands, fun hne => absurd hself hne⟩
  · exact ⟨d.condition, (hencloses.foldlM hafter).hasEntry, .refl _, fun _ => rfl⟩

end Query

end DocScan
