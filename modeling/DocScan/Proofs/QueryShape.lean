import DocScan.Proofs.QueryStructure

/-!
# The shape of queries

Only a query itself may have several entries, and only the query of no filters has
none.  A clause below it has a single entry: under `$and` some clauses, under `$or`
two of them, and under any other key, which is the field of a leaf, a condition.  An
empty clause, which every document satisfies, and a clause with several entries are
never made, however conjunctions, disjunctions and clashes are put together.
-/

namespace DocScan

/-- A document with a single entry, and such documents under its connectives. -/
inductive Value.IsClause (fields : List String) : Value → Prop where
  | field {name : String} (condition : Value) (hname : name ∈ fields)
      (hfield : name ≠ "$and" ∧ name ≠ "$or") : IsClause fields (.dict [(.text name, condition)])
  | and {clauses : List Value} (hne : clauses ≠ [])
      (hclauses : ∀ clause ∈ clauses, IsClause fields clause) :
      IsClause fields (.dict [(.text "$and", .list clauses)])
  | or {left right : Value} (hleft : IsClause fields left) (hright : IsClause fields right) :
      IsClause fields (.dict [(.text "$or", .list [left, right])])

namespace Value.IsClause

variable {fields more : List String} {v clause : Value}

theorem mono (h : v.IsClause fields) (hmore : fields ⊆ more) : v.IsClause more := by
  induction h with
  | field condition hname hfield => exact .field condition (hmore hname) hfield
  | and hne _ ih => exact .and hne ih
  | or _ _ hleft hright => exact .or hleft hright

theorem append {left right : Value} (hleft : left.IsClause fields) (hright : right.IsClause more) :
    left.IsClause (fields ++ more) ∧ right.IsClause (fields ++ more) :=
  ⟨hleft.mono (List.subset_append_left _ _), hright.mono (List.subset_append_right _ _)⟩

theorem of_mem {connective : String} {clauses : List Value}
    (hconnective : connective = "$and" ∨ connective = "$or")
    (h : (Value.dict [(.text connective, .list clauses)]).IsClause fields)
    (hclause : clause ∈ clauses) : clause.IsClause fields := by
  cases h with
  | field _ _ hfield =>
    rcases hconnective with hand | hor
    · exact absurd hand hfield.1
    · exact absurd hor hfield.2
  | and _ hclauses => exact hclauses clause hclause
  | or hleft hright =>
    simp only [List.mem_cons, List.not_mem_nil, or_false] at hclause
    rcases hclause with rfl | rfl
    · exact hleft
    · exact hright

theorem exists_entry (h : v.IsClause fields) :
    ∃ name condition, v = .dict [(.text name, condition)] := by
  cases h <;> exact ⟨_, _, rfl⟩

theorem of_reaches {document : Value} (h : v.IsClause fields) (hreaches : v.Reaches document) :
    document.IsClause fields := by
  induction hreaches with
  | here => exact h
  | clause hconnective hentry hclause _ ih =>
    rcases h.exists_entry with ⟨name, condition, hdocument⟩
    cases hdocument
    have hsame := List.mem_singleton.mp hentry
    cases hsame
    exact ih (h.of_mem hconnective hclause)

end Value.IsClause

namespace Clause

variable {idField : String} {fields : List String} {c : Clause} {f : Filter}

theorem cases_of_isClause (h : c.toValue.IsClause fields) :
    (∃ clauses, c.key = "$and" ∧ c.condition = .list clauses ∧ clauses ≠ [] ∧
        ∀ clause ∈ clauses, clause.IsClause fields) ∨
      (∃ left right, c.key = "$or" ∧ c.condition = .list [left, right]) ∨
      (c.key ∈ fields ∧ c.key ≠ "$and" ∧ c.key ≠ "$or") := by
  rcases c with ⟨key, condition⟩
  change (Value.dict [(.text key, condition)]).IsClause fields at h
  cases h with
  | field _ hname hfield => exact .inr (.inr ⟨hname, hfield⟩)
  | and hne hclauses => exact .inl ⟨_, rfl, rfl, hne, hclauses⟩
  | or => exact .inr (.inl ⟨_, _, rfl, rfl⟩)

theorem regular_of_isClause (h : c.toValue.IsClause fields) : c.Regular := by
  intro hconnective
  rcases cases_of_isClause h with ⟨clauses, -, hlist, -⟩ | ⟨left, right, -, hlist⟩ | ⟨-, hfield⟩
  · exact ⟨_, hlist⟩
  · exact ⟨_, hlist⟩
  · rcases hconnective with hand | hor
    · exact absurd hand hfield.1
    · exact absurd hor hfield.2

/-- Of clauses, only those of leaves unite with anything. -/
theorem isClause_unite {existing united : Value} (h : c.toValue.IsClause fields)
    (hunite : existing.unite? c.condition = some united) :
    (Clause.mk c.key united).toValue.IsClause fields := by
  rcases cases_of_isClause h with ⟨clauses, -, hlist, -⟩ | ⟨left, right, -, hlist⟩ |
    ⟨hname, hfield⟩
  · simp [hlist, Value.unite?, Value.operators?] at hunite
  · simp [hlist, Value.unite?, Value.operators?] at hunite
  · exact .field united hname hfield

theorem Expresses.isClause (hc : Expresses idField c f) (hnames : f.NamesFields) :
    c.toValue.IsClause f.attributes := by
  induction hc with
  | @leaf f a ha =>
    have hname := Filter.field_mem_attributes ha
    rw [← Atom.clause_key] at hname
    exact .field a.clause.condition hname (hnames _ hname)
  | and _ _ hleft hright =>
    have hbranches := Filter.namesFields_branches hnames
    have hboth := (hleft hbranches.1).append (hright hbranches.2)
    exact .and (List.cons_ne_nil _ _) (by simpa [Filter.attributes] using hboth)
  | or _ _ hleft hright =>
    have hbranches := Filter.namesFields_branches hnames
    have hboth := (hleft hbranches.1).append (hright hbranches.2)
    exact .or hboth.1 hboth.2

end Clause

namespace Query

variable {idField : String} {fields : List String} {filters : List Filter} {q q' : Query}
  {c : Clause}

/-- Every key has one condition, and each entry by itself is a clause. -/
structure WellFormed (fields : List String) (q : Query) : Prop where
  nodup_keys : q.keys.Nodup
  isClause : ∀ entry ∈ q.entries, (Clause.mk entry.1 entry.2).toValue.IsClause fields

theorem isClause_conjoin {clauses : List Value}
    (hq : ∀ entry ∈ q.entries, (Clause.mk entry.1 entry.2).toValue.IsClause fields)
    (hne : clauses ≠ []) (hclauses : ∀ clause ∈ clauses, clause.IsClause fields)
    (h : q.conjoin clauses = .ok q') :
    ∀ entry ∈ q'.entries, (Clause.mk entry.1 entry.2).toValue.IsClause fields := by
  rcases conjoin_eq_ok h with ⟨-, rfl⟩ | ⟨items, hfind, rfl⟩
  · exact forall_entries_add hq (.and hne hclauses)
  · have hlist := hq _ (mem_entries_of_find? hfind)
    have hitems : ∀ item ∈ items, item.IsClause fields := fun _ => hlist.of_mem (.inl rfl)
    have hall : ∀ clause ∈ items ++ clauses, clause.IsClause fields :=
      List.forall_mem_append.mpr ⟨hitems, hclauses⟩
    exact forall_entries_replace hq (.and (List.append_ne_nil_of_right_ne_nil items hne) hall)

theorem isClause_merge
    (hq : ∀ entry ∈ q.entries, (Clause.mk entry.1 entry.2).toValue.IsClause fields)
    (hc : c.toValue.IsClause fields) (h : q.merge c = .ok q') :
    ∀ entry ∈ q'.entries, (Clause.mk entry.1 entry.2).toValue.IsClause fields := by
  cases merges_of_merge h with
  | added => exact forall_entries_add hq hc
  | @extended _ clauses hkey hclauses hconjoin =>
    rcases Clause.cases_of_isClause hc with ⟨items, -, hlist, hne, hitems⟩ |
      ⟨left, right, hor, -⟩ | ⟨-, hfield⟩
    · rw [hlist, Value.elements?] at hclauses
      cases hclauses
      exact isClause_conjoin hq hne hitems hconjoin
    · simp [hkey] at hor
    · exact absurd hkey hfield.1
  | united _ _ hunite => exact forall_entries_replace hq (Clause.isClause_unite hc hunite)
  | repeated _ _ _ hconjoin => exact isClause_conjoin hq (by simp) (by simpa using hc) hconjoin
  | @moved _ existing _ hfind _ hconjoin =>
    have hexisting := hq _ (mem_entries_of_find? hfind)
    have herase : ∀ entry ∈ (q.erase c.key).entries,
        (Clause.mk entry.1 entry.2).toValue.IsClause fields :=
      fun entry hentry => hq entry (List.mem_filter.mp hentry).1
    exact isClause_conjoin herase (by simp) (by simpa using ⟨hexisting, hc⟩) hconjoin

theorem entries_ne_nil_of_merge (h : q.merge c = .ok q') : q'.entries ≠ [] := by
  have hconjoin : ∀ {p : Query} {clauses : List Value}, p.conjoin clauses = .ok q' →
      q'.entries ≠ [] := by
    intro p clauses h
    rcases (find?_conjoin h).1 with ⟨items, hfind, -⟩
    exact List.ne_nil_of_mem (mem_entries_of_find? hfind)
  cases merges_of_merge h with
  | added => exact List.append_ne_nil_of_right_ne_nil _ (List.cons_ne_nil _ _)
  | extended _ _ h => exact hconjoin h
  | @united existing united _ hfind =>
    have hreplaced : (q.replace c.key united).find? c.key = some united := by
      simp [find?_replace, hfind]
    exact List.ne_nil_of_mem (mem_entries_of_find? hreplaced)
  | repeated _ _ _ h => exact hconjoin h
  | moved _ _ _ h => exact hconjoin h

namespace WellFormed

theorem empty : WellFormed fields .empty := ⟨List.nodup_nil, nofun⟩

theorem regular (hq : q.WellFormed fields) : q.Regular :=
  ⟨hq.nodup_keys, fun entry hentry => Clause.regular_of_isClause (hq.isClause entry hentry)⟩

/-- A clause that joins a well-formed query leaves it well-formed. -/
theorem merge (hq : q.WellFormed fields) (hc : c.toValue.IsClause fields)
    (h : q.merge c = .ok q') : q'.WellFormed fields := by
  rcases hq.regular.merge (Clause.regular_of_isClause hc) h with ⟨hregular, -⟩
  exact ⟨hregular.nodup_keys, isClause_merge hq.isClause hc h⟩

theorem of_reaches {document : Value} (hq : q.WellFormed fields)
    (hreaches : q.toValue.Reaches document) :
    document = q.toValue ∨ document.IsClause fields := by
  generalize hroot : q.toValue = root at hreaches
  cases hreaches with
  | here => exact .inl rfl
  | clause hconnective hentry hclause hbelow =>
    have hlist := hq.isClause _ (mem_entries_of_toValue hroot hentry)
    exact .inr ((hlist.of_mem hconnective hclause).of_reaches hbelow)

end WellFormed

theorem entries_eq_nil_iff (h : ofFilters idField filters = .ok q) :
    q.entries = [] ↔ filters = [] := by
  constructor
  · intro hempty
    cases filters with
    | nil => rfl
    | cons f rest =>
      rcases foldlM_cons_eq_ok h with ⟨next, hnext, hrest⟩
      rcases restrict_eq_ok hnext with ⟨c, -, hmerge⟩
      have hne := foldlM_restrict_induction (P := fun _ p => p.entries ≠ [])
        (fun _ _ _ hstep => entries_ne_nil_of_merge hstep) (entries_ne_nil_of_merge hmerge) hrest
      exact absurd hempty hne
  · intro hfilters
    subst hfilters
    cases h
    rfl

/-- Filters without a field `$and` or `$or` come to a query whose lists under
connectives hold clauses of one entry, at any depth: some of them under `$and` and two
under `$or`.  Any other key is a field of a filter, and the query is empty only if there
are no filters. -/
theorem wellFormed_ofFilters (hnames : ∀ f ∈ filters, f.NamesFields)
    (h : ofFilters idField filters = .ok q) :
    q.WellFormed (filters.flatMap Filter.attributes) ∧ (q.entries = [] ↔ filters = []) ∧
      ∀ document, q.toValue.Reaches document →
        document = q.toValue ∨ document.IsClause (filters.flatMap Filter.attributes) := by
  have hwell : q.WellFormed (filters.flatMap Filter.attributes) := by
    refine foldlM_restrict_induction
      (P := fun _ p => p.WellFormed (filters.flatMap Filter.attributes)) ?_ .empty h
    intro before f c p p' hf hc hp hmerge
    have hfields : f.attributes ⊆ filters.flatMap Filter.attributes :=
      fun name hname => List.mem_flatMap.mpr ⟨f, hf, hname⟩
    exact hp.merge ((hc.isClause (hnames f hf)).mono hfields) hmerge
  exact ⟨hwell, entries_eq_nil_iff h, fun document hreaches => hwell.of_reaches hreaches⟩

/-- A clash below a repeated disjunction, whose branches are connectives themselves. -/
theorem wellFormed_ofFilters_clashing :
    let filters : List Filter :=
      [.test .equal "a" (.int 1), .or (.isNull "b") (.and (.isNull "c") (.test .less "a" (.int 2))),
        .test .equal "a" (.int 2), .or (.or (.isNull "d") (.isNotNull "b")) (.isNull "a")]
    let fields : List String := ["a", "b", "c", "a", "a", "d", "b", "a"]
    let q : Query := ⟨[
      ("$or", .list [.dict [(.text "b", .null)], .dict [(.text "$and", .list [
        .dict [(.text "c", .null)], .dict [(.text "a", .dict [(.text "$lt", .int 2)])]])]]),
      ("$and", .list [.dict [(.text "a", .int 1)], .dict [(.text "a", .int 2)],
        .dict [(.text "$or", .list [.dict [(.text "$or", .list [.dict [(.text "d", .null)],
          .dict [(.text "b", .dict [(.text "$ne", .null)])]])], .dict [(.text "a", .null)]])]])]⟩
    (∀ f ∈ filters, f.NamesFields) ∧ ofFilters "_id" filters = .ok q ∧
      q.WellFormed fields ∧ (q.entries = [] ↔ filters = []) ∧
      ∀ document, q.toValue.Reaches document →
        document = q.toValue ∨ document.IsClause fields := by
  intro filters fields q
  have hnames : ∀ f ∈ filters, f.NamesFields := by
    simp [filters, Filter.NamesFields, Filter.attributes]
  have hquery : ofFilters "_id" filters = .ok q := rfl
  exact ⟨hnames, hquery, wellFormed_ofFilters hnames hquery⟩

end Query

end DocScan
