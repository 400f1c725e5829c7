import DocScan.Proofs.QueryMerging
import DocScan.Proofs.QueryRefusals
import DocScan.Proofs.WireRoundTrip

/-!
# Fields are independent of one another

All filters share one query and one list under `$and`, and a clash moves entries from
the one to the other.  Still, what a leaf does under its field follows from what is
there alone, and only conjunctions put clauses of their branches next to those of a
clash.  So the entry of a field, and its clauses under `$and`, are those that the
leaves on this field make by themselves, whatever is between them.
-/

namespace DocScan

/-- A clause on a field. -/
def Value.isUnder (field : String) : Value → Bool
  | .dict [(.text key, _)] => key = field
  | _ => false

/-- What a clause comes to where an entry may be under its key already: the entry that is
there afterwards, and the clauses that are moved under `$and`. -/
def Clause.settled (c : Clause) : Option Value → Option Value × List Value
  | none => (some c.condition, [])
  | some existing =>
    match existing.unite? c.condition with
    | some united => (some united, [])
    | none =>
      if c.key = "$or" then (some existing, [c.toValue])
      else (none, [(Clause.mk c.key existing).toValue, c.toValue])

@[simp] theorem Clause.isUnder_toValue (field : String) (c : Clause) :
    c.toValue.isUnder field = decide (c.key = field) := rfl

theorem Clause.isUnder_settled {c : Clause} {existing : Option Value} {field : String}
    {clause : Value} (hclause : clause ∈ (c.settled existing).2) :
    clause.isUnder field = decide (c.key = field) := by
  unfold settled at hclause
  split at hclause
  · contradiction
  · split at hclause
    · contradiction
    · split at hclause
      · rw [List.mem_singleton.mp hclause, isUnder_toValue]
      · simp only [List.mem_cons, List.not_mem_nil, or_false] at hclause
        rcases hclause with rfl | rfl <;> rw [isUnder_toValue]

namespace Query

variable {q q' : Query} {c : Clause}

/-! ## One merge -/

/-- The clauses under `$and`. -/
def conjuncts (q : Query) : List Value :=
  match q.find? "$and" with
  | some (.list clauses) => clauses
  | _ => []

theorem conjuncts_congr (h : q'.find? "$and" = q.find? "$and") : q'.conjuncts = q.conjuncts := by
  rw [conjuncts, conjuncts, h]

theorem conjuncts_conjoin {clauses : List Value} (h : q.conjoin clauses = .ok q') :
    q'.conjuncts = q.conjuncts ++ clauses := by
  rcases conjoin_eq_ok h with ⟨hfind, rfl⟩ | ⟨items, hfind, rfl⟩
  · simp [conjuncts, find?_add, hfind]
  · simp [conjuncts, find?_replace, hfind]

/-- What a merge does under the key of the clause, and which clauses it moves, follows
from the entry that is there. -/
theorem settled_of_merge (hkey : c.key ≠ "$and") (h : q.merge c = .ok q') :
    q'.find? c.key = (c.settled (q.find? c.key)).1 ∧
      q'.conjuncts = q.conjuncts ++ (c.settled (q.find? c.key)).2 := by
  cases merges_of_merge h with
  | added hfind =>
    rw [hfind]
    constructor
    · simp [Clause.settled, find?_add, hfind]
    · have hsame : (q.add c.key c.condition).find? "$and" = q.find? "$and" := by
        simp [find?_add, hkey]
      rw [conjuncts_congr hsame, Clause.settled, List.append_nil]
  | extended hand => exact absurd hand hkey
  | @united existing united _ hfind hunite =>
    rw [hfind, Clause.settled, hunite]
    constructor
    · simp [find?_replace, hfind]
    · have hsame : (q.replace c.key united).find? "$and" = q.find? "$and" := by
        simp [find?_replace, hkey.symm]
      rw [conjuncts_congr hsame, List.append_nil]
  | repeated hor hfind hunite hconjoin =>
    rw [hfind, Clause.settled, hunite]
    simp only [if_pos hor]
    constructor
    · rw [(find?_conjoin hconjoin).2 c.key hkey, hfind]
    · exact conjuncts_conjoin hconjoin
  | moved hfield hfind hunite hconjoin =>
    rw [hfind, Clause.settled, hunite]
    simp only [if_neg hfield.2]
    constructor
    · rw [(find?_conjoin hconjoin).2 c.key hkey, find?_erase, if_pos rfl]
    · have hsame : (q.erase c.key).find? "$and" = q.find? "$and" := by
        simp [find?_erase, hkey.symm]
      rw [conjuncts_conjoin hconjoin, conjuncts_congr hsame]

end Query

/-! ## Leaves on a field -/

namespace Filter

theorem attribute?_of_atom? {idField : String} {f : Filter} {a : Atom}
    (h : f.atom? idField = some a) : f.attribute? = some a.field := by
  cases f with
  | test | member | isNull | isNotNull =>
    simp only [atom?] at h
    rw [attribute?, (Atom.ofLeaf?_cases h).1]
  | extension operator field value =>
    simp only [atom?] at h
    split at h
    · rw [attribute?, (Atom.ofLeaf?_cases h).1]
    · contradiction
  | and | or | not | unknown | plain => simp [atom?] at h

/-- The leaves among the filters that are on a field. -/
def leavesOn (field : String) (filters : List Filter) : List Filter :=
  filters.filter fun f => f.attribute? = some field

end Filter

namespace Clause

variable {idField field : String} {f : Filter} {c : Clause}

theorem Expresses.key_eq_iff (hc : Expresses idField c f)
    (hfield : field ≠ "$and" ∧ field ≠ "$or") : c.key = field ↔ f.attribute? = some field := by
  cases hc with
  | leaf ha => rw [Atom.clause_key, Filter.attribute?_of_atom? ha, Option.some.injEq]
  | and => simp [pair, Filter.attribute?, hfield.1.symm]
  | or => simp [pair, Filter.attribute?, hfield.2.symm]

theorem Expresses.key_ne_and (hc : Expresses idField c f) (hnames : f.NamesFields)
    (hf : ∀ l r, f ≠ .and l r) : c.key ≠ "$and" := by
  cases hc with
  | leaf ha =>
    rw [Atom.clause_key]
    exact (hnames _ (Filter.field_mem_attributes ha)).1
  | and => exact absurd rfl (hf _ _)
  | or => simp [pair]

end Clause

/-! ## Runs with and without other filters -/

namespace Query

variable {idField field : String} {filters : List Filter} {q q' p p' : Query} {c : Clause}

/-- What holds between a run over all filters and one over some of them. -/
theorem foldlM_filter_induction {R : Query → Query → Prop} {keep : Filter → Bool}
    (hkept : ∀ {f c q q' p p'}, f ∈ filters → keep f = true → Clause.Expresses idField c f →
      R q p → merge q c = .ok q' → merge p c = .ok p' → R q' p')
    (hskipped : ∀ {f c q q' p}, f ∈ filters → keep f = false → Clause.Expresses idField c f →
      R q p → merge q c = .ok q' → R q' p)
    (hstart : R q p) (h : filters.foldlM (restrict idField) q = .ok q')
    (hkeep : (filters.filter keep).foldlM (restrict idField) p = .ok p') : R q' p' := by
  induction filters generalizing q p with
  | nil =>
    cases h
    cases hkeep
    exact hstart
  | cons f rest ih =>
    rcases foldlM_cons_eq_ok h with ⟨next, hnext, hrest⟩
    rcases restrict_eq_ok hnext with ⟨c, hc, hmerge⟩
    cases hf : keep f with
    | false =>
      rw [List.filter_cons_of_neg (by simp [hf])] at hkeep
      have hstep := hskipped List.mem_cons_self hf hc hstart hmerge
      exact ih (fun hg => hkept (.tail f hg)) (fun hg => hskipped (.tail f hg)) hstep hrest hkeep
    | true =>
      rw [List.filter_cons_of_pos hf] at hkeep
      rcases foldlM_cons_eq_ok hkeep with ⟨start, hsame, hkeep⟩
      rcases restrict_eq_ok hsame with ⟨d, hd, hmerge'⟩
      have hclause := (Clause.ofFilter_of_expresses hd).symm.trans (Clause.ofFilter_of_expresses hc)
      cases hclause
      have hstep := hkept List.mem_cons_self hf hc hstart hmerge hmerge'
      exact ih (fun hg => hkept (.tail f hg)) (fun hg => hskipped (.tail f hg)) hstep hrest hkeep

/-- The clauses under `$and` that are on a field. -/
def clausesOn (field : String) (q : Query) : List Value :=
  q.conjuncts.filter (Value.isUnder field)

theorem clausesOn_merge (hkey : c.key ≠ "$and") (h : q.merge c = .ok q') :
    q'.clausesOn field = q.clausesOn field ++
      if c.key = field then (c.settled (q.find? field)).2 else [] := by
  rw [clausesOn, clausesOn, (settled_of_merge hkey h).2, List.filter_append]
  by_cases hon : c.key = field
  · subst hon
    have hall : ∀ clause ∈ (c.settled (q.find? c.key)).2, clause.isUnder c.key = true := by
      intro clause hclause
      simp [Clause.isUnder_settled hclause]
    rw [if_pos rfl, List.filter_eq_self.mpr hall]
  · have hnone : ∀ clause ∈ (c.settled (q.find? c.key)).2, ¬ clause.isUnder field = true := by
      intro clause hclause
      simp [Clause.isUnder_settled hclause, hon]
    rw [if_neg hon, List.filter_eq_nil_iff.mpr hnone]

/-- The conditions on a field are the same after all filters and after the leaves on
this field alone. -/
theorem agree_foldlM (hfield : field ≠ "$and" ∧ field ≠ "$or")
    (hnames : ∀ f ∈ filters, f.NamesFields)
    (h : filters.foldlM (restrict idField) empty = .ok q)
    (halone : (Filter.leavesOn field filters).foldlM (restrict idField) empty = .ok p) :
    q.find? field = p.find? field ∧
      ((∀ l r, .and l r ∉ filters) → q.clausesOn field = p.conjuncts) := by
  refine foldlM_filter_induction
    (R := fun q p => q.find? field = p.find? field ∧
      ((∀ l r, .and l r ∉ filters) → q.clausesOn field = p.conjuncts))
    ?kept ?skipped ⟨rfl, fun _ => rfl⟩ h halone
  case kept =>
    intro f c q q' p p' hf hon hc hagree hq hp
    have hkey : c.key = field := (hc.key_eq_iff hfield).mpr (by simpa using hon)
    subst hkey
    rcases settled_of_merge hfield.1 hq with ⟨hqEntry, hqClauses⟩
    rcases settled_of_merge hfield.1 hp with ⟨hpEntry, hpClauses⟩
    constructor
    · rw [hqEntry, hpEntry, hagree.1]
    · intro hands
      rw [clausesOn_merge hfield.1 hq, if_pos rfl, hagree.2 hands, hpClauses, hagree.1]
  case skipped =>
    intro f c q q' p hf hoff hc hagree hq
    have hkey : c.key ≠ field := by
      intro heq
      simp [(hc.key_eq_iff hfield).mp heq] at hoff
    constructor
    · rw [find?_merge_of_ne hkey.symm hfield.1 hq, hagree.1]
    · intro hands
      have hand : c.key ≠ "$and" :=
        hc.key_ne_and (hnames f hf) fun l r heq => hands l r (heq ▸ hf)
      rw [clausesOn_merge hand hq, if_neg hkey, List.append_nil, hagree.2 hands]

/-- The condition that a query has under a field is that of the query of the leaves on
this field alone, and so are the clauses on it under `$and`, in their order, unless there
are conjunctions among the filters.  Other filters with the same leaves on the field
therefore come to the same conditions on it. -/
theorem fields_are_independent (hfield : field ≠ "$and" ∧ field ≠ "$or")
    (hnames : ∀ f ∈ filters, f.NamesFields) (h : ofFilters idField filters = .ok q) :
    ∃ alone, ofFilters idField (Filter.leavesOn field filters) = .ok alone ∧
      q.find? field = alone.find? field ∧
      ((∀ l r, .and l r ∉ filters) → q.clausesOn field = alone.conjuncts) ∧
      ∀ more q', (∀ f ∈ more, f.NamesFields) → ofFilters idField more = .ok q' →
        Filter.leavesOn field more = Filter.leavesOn field filters →
          q'.find? field = q.find? field ∧
            ((∀ l r, .and l r ∉ filters) → (∀ l r, .and l r ∉ more) →
              q'.clausesOn field = q.clausesOn field) := by
  have hand : ∀ f ∈ filters, "$and" ∉ f.attributes :=
    fun f hf hname => (hnames f hf _ hname).1 rfl
  have hleaves : Filter.leavesOn field filters ⊆ filters := List.filter_subset_self _
  rcases exists_ofFilters_of_subset hand h hleaves with ⟨alone, halone⟩
  rcases agree_foldlM hfield hnames h halone with ⟨hentry, hclauses⟩
  refine ⟨alone, halone, hentry, hclauses, ?_⟩
  intro more q' hmore hq' hsame
  rw [← hsame] at halone
  rcases agree_foldlM hfield hmore hq' halone with ⟨hentry', hclauses'⟩
  constructor
  · rw [hentry', hentry]
  · intro hands hands'
    rw [hclauses' hands', hclauses hands]

/-- Two bounds on a field clash across other filters, one of which clashes with an
equality itself, and a check finds no entry of the field. -/
theorem fields_are_independent_interleaved :
    let filters : List Filter :=
      [.test .greater "a" (.int 1), .test .equal "b" (.int 5), .or (.isNull "a") (.isNull "c"),
        .test .greater "a" (.int 2), .isNull "b", .or (.isNull "b") (.isNull "a"), .isNotNull "a"]
    let leaves : List Filter :=
      [.test .greater "a" (.int 1), .test .greater "a" (.int 2), .isNotNull "a"]
    let bounds : List Value := [.dict [(.text "a", .dict [(.text "$gt", .int 1)])],
      .dict [(.text "a", .dict [(.text "$gt", .int 2)])]]
    let q : Query := ⟨[
      ("$or", .list [.dict [(.text "a", .null)], .dict [(.text "c", .null)]]),
      ("$and", .list (bounds ++ [.dict [(.text "b", .int 5)], .dict [(.text "b", .null)],
        .dict [(.text "$or", .list [.dict [(.text "b", .null)], .dict [(.text "a", .null)]])]])),
      ("a", .dict [(.text "$ne", .null)])]⟩
    (∀ f ∈ filters, f.NamesFields) ∧ ofFilters "_id" filters = .ok q ∧
      ∃ alone, ofFilters "_id" leaves = .ok alone ∧ q.find? "a" = alone.find? "a" ∧
        q.clausesOn "a" = alone.conjuncts ∧ alone.conjuncts = bounds := by
  intro filters leaves bounds q
  have hfield : "a" ≠ "$and" ∧ "a" ≠ "$or" := by simp
  have hnames : ∀ f ∈ filters, f.NamesFields := by
    simp [filters, Filter.NamesFields, Filter.attributes]
  have hquery : ofFilters "_id" filters = .ok q := rfl
  rcases fields_are_independent hfield hnames hquery with ⟨alone, halone, hentry, hclauses, -⟩
  have hands : ∀ l r, .and l r ∉ filters := by simp [filters]
  refine ⟨hnames, hquery, alone, halone, hentry, hclauses hands, ?_⟩
  rw [← hclauses hands]
  rfl

end Query

end DocScan
