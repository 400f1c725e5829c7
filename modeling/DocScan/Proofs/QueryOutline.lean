import DocScan.Proofs.QueryMeaning

/-!
# The outline of a query

The outline of a query lists its keys in order, each with the operators under it
but without what they compare with.  Merging looks at values only where it asks
whether a dictionary consists of operators, so that filters of one shape lead to
queries of one outline, whatever the values in their leaves.
-/

namespace DocScan

/-! ## Filters of one shape -/

namespace Filter

/-- Two filters that differ in nothing but the values of their leaves. -/
inductive SameShape : Filter → Filter → Prop where
  | test (t : Test) (field : String) (value other : Value) :
      SameShape (.test t field value) (.test t field other)
  | member (field : String) (values others : List Value) :
      SameShape (.member field values) (.member field others)
  | isNull (field : String) : SameShape (.isNull field) (.isNull field)
  | isNotNull (field : String) : SameShape (.isNotNull field) (.isNotNull field)
  | and {l r l' r' : Filter} (hl : SameShape l l') (hr : SameShape r r') :
      SameShape (.and l r) (.and l' r')
  | or {l r l' r' : Filter} (hl : SameShape l l') (hr : SameShape r r') :
      SameShape (.or l r) (.or l' r')
  | not {child child' : Filter} (h : SameShape child child') :
      SameShape (.not child) (.not child')
  | extension (operator field : String) (value other : Value) :
      SameShape (.extension operator field value) (.extension operator field other)
  | unknown : SameShape .unknown .unknown
  | plain (value : Value) : SameShape (.plain value) (.plain value)

end Filter

theorem Atom.same_of_ofLeaf? {idField field : String} {op : LeafOperator} {value other : Value}
    {a b : Atom} (ha : Atom.ofLeaf? idField field op value = some a)
    (hb : Atom.ofLeaf? idField field op other = some b) :
    a.field = b.field ∧ a.comparison = b.comparison := by
  cases op with
  | test t =>
    cases t with
    | equal | greater | greaterOrEqual | less | lessOrEqual =>
      simp only [ofLeaf?, Option.map_eq_some_iff] at ha hb
      rcases ha with ⟨v, -, rfl⟩
      rcases hb with ⟨w, -, rfl⟩
      exact ⟨rfl, rfl⟩
    | startsWith | endsWith | contains =>
      cases value <;> simp [ofLeaf?] at ha
      cases other <;> simp [ofLeaf?] at hb
      subst ha hb
      exact ⟨rfl, rfl⟩
  | member | isNull | isNotNull =>
    simp only [ofLeaf?, Option.some.injEq] at ha hb
    subst ha hb
    exact ⟨rfl, rfl⟩

theorem Filter.SameShape.atom? {idField : String} {f f' : Filter} {a b : Atom}
    (h : f.SameShape f') (ha : f.atom? idField = some a) (hb : f'.atom? idField = some b) :
    a.field = b.field ∧ a.comparison = b.comparison := by
  cases h with
  | test | member | isNull | isNotNull =>
    simp only [Filter.atom?] at ha hb
    exact Atom.same_of_ofLeaf? ha hb
  | extension operator field value other =>
    simp only [Filter.atom?] at ha hb
    cases hop : Operator.ofText? operator with
    | none => simp [hop] at ha
    | some op =>
      cases op with
      | leaf op =>
        simp only [hop] at ha hb
        exact Atom.same_of_ofLeaf? ha hb
      | connective c => simp [hop] at ha
  | and | or | not | unknown | plain => simp [Filter.atom?] at ha

/-! ## Outlines -/

/-- The operators that a condition consists of, if it consists of operators. -/
def Value.operatorKeys? (v : Value) : Option (List Value) := v.operators?.map (List.map Prod.fst)

def Clause.outline (c : Clause) : String × Option (List Value) :=
  (c.key, c.condition.operatorKeys?)

/-- Whether two conditions unite, and to which operators, is decided by their
operators alone. -/
theorem Value.operatorKeys?_unite? (existing added : Value) :
    (existing.unite? added).map operatorKeys? =
      match existing.operatorKeys?, added.operatorKeys? with
      | some es, some fs =>
        if es.any fun e => fs.any fun f => e = f then none else some (some (es ++ fs))
      | _, _ => none := by
  cases hes : existing.operators? with
  | none => simp [unite?, operatorKeys?, hes]
  | some es =>
    cases hfs : added.operators? with
    | none => simp [unite?, operatorKeys?, hes, hfs]
    | some fs =>
      have hkeys : ((es.map Prod.fst).any fun e => (fs.map Prod.fst).any fun f => e = f) =
          es.any fun e => fs.any fun f => e.1 = f.1 := by
        simp [List.any_map, Function.comp_def]
      cases hunite : existing.unite? added with
      | none =>
        have hclash : (es.any fun e => fs.any fun f => e.1 = f.1) = true := by
          simpa [unite?, hes, hfs] using hunite
        simp only [operatorKeys?, hes, hfs, Option.map_some, Option.map_none, hkeys, hclash,
          if_true]
      | some united =>
        have hapart : (es.any fun e => fs.any fun f => e.1 = f.1) = false := by
          cases hany : es.any fun e => fs.any fun f => e.1 = f.1 with
          | true => simp [unite?, hes, hfs, hany] at hunite
          | false => rfl
        have hunited : united.operators? = some (es ++ fs) := by
          rcases unite?_eq_some hunite with ⟨es', fs', hes', hfs', hunited⟩
          rw [hes] at hes'
          rw [hfs] at hfs'
          cases hes'
          cases hfs'
          exact hunited
        simp only [operatorKeys?, hes, hfs, hunited, Option.map_some, hkeys, hapart,
          List.map_append, Bool.false_eq_true, if_false]

namespace Query

def outline (q : Query) : List (String × Option (List Value)) :=
  q.entries.map fun entry => (entry.1, entry.2.operatorKeys?)

theorem keys_eq_of_outline {q q' : Query} (h : q.outline = q'.outline) : q.keys = q'.keys := by
  have hkeys : ∀ p : Query, p.keys = p.outline.map Prod.fst := by
    intro p
    simp [keys, outline, Function.comp_def]
  rw [hkeys, hkeys, h]

variable {q q' merged merged' : Query} {key : String} {condition condition' : Value}

theorem find?_map_operatorKeys? (q : Query) (key : String) :
    (q.find? key).map Value.operatorKeys? =
      (q.outline.find? fun entry => entry.1 = key).map Prod.snd := by
  simp [find?, outline, List.find?_map, Function.comp_def]

theorem outline_add (h : q.outline = q'.outline)
    (hcondition : condition.operatorKeys? = condition'.operatorKeys?) :
    (q.add key condition).outline = (q'.add key condition').outline := by
  unfold outline at h
  simp [add, outline, h, hcondition]

theorem outline_replace (h : q.outline = q'.outline)
    (hcondition : condition.operatorKeys? = condition'.operatorKeys?) :
    (q.replace key condition).outline = (q'.replace key condition').outline := by
  have hreplace : ∀ (p : Query) (c : Value), (p.replace key c).outline =
      p.outline.map fun entry => if entry.1 = key then (key, c.operatorKeys?) else entry := by
    intro p c
    simp only [replace, outline, List.map_map]
    apply List.map_congr_left
    intro entry _
    by_cases hkey : entry.1 = key <;> simp [hkey]
  rw [hreplace, hreplace, h, hcondition]

theorem outline_erase (h : q.outline = q'.outline) :
    (q.erase key).outline = (q'.erase key).outline := by
  have herase : ∀ p : Query, (p.erase key).outline =
      p.outline.filter fun entry => entry.1 ≠ key := by
    intro p
    simp [erase, outline, List.filter_map, Function.comp_def]
  rw [herase, herase, h]

/-- Two queries of one outline have conditions under the same keys. -/
theorem find?_of_outline (h : q.outline = q'.outline) (key : String) :
    (q.find? key = none ∧ q'.find? key = none) ∨
      ∃ existing existing', q.find? key = some existing ∧ q'.find? key = some existing' ∧
        existing.operatorKeys? = existing'.operatorKeys? := by
  have hfind : (q.find? key).map Value.operatorKeys? = (q'.find? key).map Value.operatorKeys? := by
    rw [find?_map_operatorKeys?, find?_map_operatorKeys?, h]
  cases hq : q.find? key with
  | none =>
    have hq' : q'.find? key = none := by simpa [hq, eq_comm] using hfind
    exact .inl ⟨rfl, hq'⟩
  | some existing =>
    cases hq' : q'.find? key with
    | none => simp [hq, hq'] at hfind
    | some existing' =>
      have hkeys : existing.operatorKeys? = existing'.operatorKeys? := by
        simpa [hq, hq'] using hfind
      exact .inr ⟨existing, existing', rfl, rfl, hkeys⟩

theorem outline_conjoin {clauses clauses' : List Value} (h : q.outline = q'.outline)
    (hmerged : q.conjoin clauses = .ok merged) (hmerged' : q'.conjoin clauses' = .ok merged') :
    merged.outline = merged'.outline := by
  have hnone := find?_of_outline h "$and"
  rcases conjoin_eq_ok hmerged with ⟨hq, rfl⟩ | ⟨items, hq, rfl⟩
  · rcases conjoin_eq_ok hmerged' with ⟨hq', rfl⟩ | ⟨items', hq', rfl⟩
    · exact outline_add h rfl
    · simp [hq, hq'] at hnone
  · rcases conjoin_eq_ok hmerged' with ⟨hq', rfl⟩ | ⟨items', hq', rfl⟩
    · simp [hq, hq'] at hnone
    · exact outline_replace h rfl

/-- Merging clauses of one outline into queries of one outline gives queries of
one outline again. -/
theorem outline_merge {c c' : Clause} (h : q.outline = q'.outline) (hc : c.outline = c'.outline)
    (hmerged : q.merge c = .ok merged) (hmerged' : q'.merge c' = .ok merged') :
    merged.outline = merged'.outline := by
  rcases c with ⟨key, condition⟩
  rcases c' with ⟨key', condition'⟩
  have hkey : key = key' := congrArg Prod.fst hc
  have hcondition : condition.operatorKeys? = condition'.operatorKeys? := congrArg Prod.snd hc
  subst hkey
  rcases find?_of_outline h key with ⟨hq, hq'⟩ | ⟨existing, existing', hq, hq', hexisting⟩
  · simp only [merge, hq, hq', Except.ok.injEq] at hmerged hmerged'
    subst hmerged hmerged'
    exact outline_add h hcondition
  by_cases hand : key = "$and"
  · rcases merge_conjunction hq hand hmerged with ⟨clauses, -, hconjoin⟩
    rcases merge_conjunction hq' hand hmerged' with ⟨clauses', -, hconjoin'⟩
    exact outline_conjoin h hconjoin hconjoin'
  simp only [merge, hq, if_neg hand] at hmerged
  simp only [merge, hq', if_neg hand] at hmerged'
  have hunite : (existing.unite? condition).map Value.operatorKeys? =
      (existing'.unite? condition').map Value.operatorKeys? := by
    rw [Value.operatorKeys?_unite?, Value.operatorKeys?_unite?, hexisting, hcondition]
  cases hu : existing.unite? condition with
  | some united =>
    cases hu' : existing'.unite? condition' with
    | none => simp [hu, hu'] at hunite
    | some united' =>
      have hunited : united.operatorKeys? = united'.operatorKeys? := by
        simpa [hu, hu'] using hunite
      simp only [hu, hu', Except.ok.injEq] at hmerged hmerged'
      subst hmerged hmerged'
      exact outline_replace h hunited
  | none =>
    have hu' : existing'.unite? condition' = none := by simpa [hu, eq_comm] using hunite
    simp only [hu] at hmerged
    simp only [hu'] at hmerged'
    by_cases hor : key = "$or"
    · rw [if_pos hor] at hmerged hmerged'
      exact outline_conjoin h hmerged hmerged'
    · rw [if_neg hor] at hmerged hmerged'
      exact outline_conjoin (outline_erase h) hmerged hmerged'

end Query

/-! ## Filters of one shape have one outline -/

variable {idField : String}

theorem Atom.outline_clause {f : Filter} {a : Atom} (h : f.atom? idField = some a)
    (hvalues : f.EquatesValues) :
    a.clause.outline = (a.field, match a.comparison with
      | .equality => none
      | .operator name => some [.text name]) := by
  rcases a with ⟨field, comparison, operand⟩
  cases comparison with
  | equality =>
    have hplain : operand.operators? = none := Filter.operators?_operand h hvalues rfl
    simp [Atom.clause, Clause.outline, Value.operatorKeys?, hplain]
  | operator name =>
    have hname := Filter.operator_mem_operatorNames h rfl
    have hkey : (Value.text name).isOperatorKey = true := isOperatorKey_of_mem_operatorNames hname
    have hops : (Value.dict [(.text name, operand)]).operators? = some [(.text name, operand)] :=
      Value.operators?_eq_some_iff.mpr ⟨rfl, List.cons_ne_nil _ _, by simpa using hkey⟩
    simp [Atom.clause, Clause.outline, Clause.operation, Value.operatorKeys?, hops]

theorem Clause.Expresses.outline {f f' : Filter} {c c' : Clause} (h : Expresses idField c f)
    (h' : Expresses idField c' f') (hshape : f.SameShape f') (hvalues : f.EquatesValues)
    (hvalues' : f'.EquatesValues) : c.outline = c'.outline := by
  cases h with
  | leaf ha =>
    cases h' with
    | leaf hb =>
      have hsame := hshape.atom? ha hb
      rw [Atom.outline_clause ha hvalues, Atom.outline_clause hb hvalues', hsame.1, hsame.2]
    | and | or =>
      cases hshape
      simp [Filter.atom?] at ha
  | and =>
    cases hshape
    cases h' with
    | leaf hb => simp [Filter.atom?] at hb
    | and => rfl
  | or =>
    cases hshape
    cases h' with
    | leaf hb => simp [Filter.atom?] at hb
    | or => rfl

namespace Query

theorem outline_foldlM {filters filters' : List Filter} {q q' result result' : Query}
    (hshape : List.Forall₂ Filter.SameShape filters filters')
    (hvalues : ∀ f ∈ filters, f.EquatesValues) (hvalues' : ∀ f ∈ filters', f.EquatesValues)
    (hq : q.outline = q'.outline) (h : filters.foldlM (restrict idField) q = .ok result)
    (h' : filters'.foldlM (restrict idField) q' = .ok result') :
    result.outline = result'.outline := by
  induction hshape generalizing q q' with
  | nil =>
    cases h
    cases h'
    exact hq
  | @cons f f' rest rest' hf _ ih =>
    rw [List.forall_mem_cons] at hvalues hvalues'
    rcases foldlM_cons_eq_ok h with ⟨next, hnext, hrest⟩
    rcases foldlM_cons_eq_ok h' with ⟨next', hnext', hrest'⟩
    rcases restrict_eq_ok hnext with ⟨c, hc, hmerge⟩
    rcases restrict_eq_ok hnext' with ⟨c', hc', hmerge'⟩
    have hclause : c.outline = c'.outline := hc.outline hc' hf hvalues.1 hvalues'.1
    have hmerged := outline_merge hq hclause hmerge hmerge'
    exact ih hvalues.2 hvalues'.2 hmerged hrest hrest'

/-- The keys of a query depend on the attributes and operators of its filters and
not on their values, unless a value is itself a dictionary of operators. -/
theorem keys_ofFilters {filters filters' : List Filter} {q q' : Query}
    (hshape : List.Forall₂ Filter.SameShape filters filters')
    (hvalues : ∀ f ∈ filters, f.EquatesValues) (hvalues' : ∀ f ∈ filters', f.EquatesValues)
    (h : ofFilters idField filters = .ok q) (h' : ofFilters idField filters' = .ok q') :
    q.keys = q'.keys :=
  keys_eq_of_outline (outline_foldlM hshape hvalues hvalues' rfl h h')

end Query

end DocScan
