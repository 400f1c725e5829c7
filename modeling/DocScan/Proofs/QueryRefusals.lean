import DocScan.Proofs.AtomicConstraints
import DocScan.Proofs.IdentifierLiteral
import DocScan.Proofs.Legibility

/-!
# Which filters no query expresses

The nodes of a filter are visited from the root on, each before its branches,
and nothing under a negation is visited.  Six kinds of node offend, and each
for a reason of its own.  Compiling filters comes to a query exactly if no node
offends; otherwise it fails for the first one that does.  The filters are then refused,
unless the offender is to be shown and has an integer with too many digits.  Merging has
no say in this, since the clauses under `$and` can always take further ones.
-/

namespace DocScan

/-! ## The nodes that offend -/

namespace Filter

/-- The nodes of a filter in the order in which they are visited. -/
def visited : Filter → List Filter
  | .and left right => .and left right :: (left.visited ++ right.visited)
  | .or left right => .or left right :: (left.visited ++ right.visited)
  | node => [node]

/-- A leaf that tests a field against a value, by its kind or by the text that an
extension brings. -/
inductive Compares : Filter → Test → String → Value → Prop where
  | test (t : Test) (field : String) (value : Value) :
      Compares (.test t field value) t field value
  | extension (t : Test) (field : String) (value : Value) :
      Compares (.extension t.text field value) t field value

/-- The nodes that no query expresses, each with the error it gives and the way
in which that is reported. -/
inductive Offends (idField : String) : Filter → CompileError → Refusal → Prop where
  | notFilter (value : Value) :
      Offends idField (.plain value) (.notFilter value) (.unsupported none)
  | negation (child : Filter) :
      Offends idField (.not child) (.negation (.not child)) (.unsupported (some "not"))
  | unknown : Offends idField .unknown .unknownNode (.unsupported none)
  | noOperator {operator : String} (field : String) (value : Value)
      (h : ∀ op : LeafOperator, op.text ≠ operator) :
      Offends idField (.extension operator field value) (.noOperator operator)
        (.unsupported (some operator))
  | notText {leaf : Filter} {t : Test} {field : String} {value : Value}
      (hleaf : leaf.Compares t field value) (ht : t.family = .textMatch)
      (hvalue : ∀ s, value ≠ .text s) : Offends idField leaf (.notText t) .malformed
  | invalidIdentifier {leaf : Filter} {t : Test} {s : String}
      (hleaf : leaf.Compares t idField (.text s)) (ht : t.family = .comparison)
      (hliteral : Identifier.IsMalformed s) :
      Offends idField leaf (.invalidIdentifier idField s) .malformed

theorem refusal?_of_offends {idField : String} {node : Filter} {e : CompileError} {r : Refusal}
    (h : Offends idField node e r) (hshown : ¬ node.Unshown) : e.refusal? = some r := by
  cases h with
  | notFilter value =>
    rw [unshown_plain_iff, not_not] at hshown
    obtain ⟨text, htext⟩ := hshown.exists_display?
    simp [CompileError.refusal?, CompileError.operator?, htext]
  | negation child =>
    rw [unshown_not_iff, not_not, ← isLegible_not_iff] at hshown
    obtain ⟨text, htext⟩ := hshown.exists_display?
    simp [CompileError.refusal?, CompileError.operator?, htext, Connective.text]
  | unknown | noOperator | notText | invalidIdentifier => rfl

/-- An offender that is to be shown and cannot be leaves nothing but the limit to report. -/
theorem Unshown.unrefused {idField : String} {node : Filter} {e : CompileError} {r : Refusal}
    (hshown : node.Unshown) (h : Offends idField node e r) :
    e.refusal? = none ∧ e.message = Decimal.limitMessage := by
  cases hshown with
  | notFilter hvalue =>
    rw [← Value.display?_eq_none_iff] at hvalue
    cases h with
    | notFilter =>
      constructor
      · simp [CompileError.refusal?, hvalue]
      · exact CompileError.message_notFilter_of_hidden hvalue
    | notText hleaf | invalidIdentifier hleaf => cases hleaf
  | negation hchild =>
    rw [← isLegible_not_iff, ← display?_eq_none_iff] at hchild
    cases h with
    | negation =>
      constructor
      · simp [CompileError.refusal?, hchild]
      · exact CompileError.message_negation_of_hidden hchild
    | notText hleaf | invalidIdentifier hleaf => cases hleaf

/-- The error of a node by itself.  Those of its branches are their own. -/
def offence? (idField : String) : Filter → Option CompileError
  | .and _ _ | .or _ _ => none
  | node =>
    match Clause.ofFilter idField node with
    | .ok _ => none
    | .error e => some e

end Filter

/-! ## Leaves -/

variable {idField field : String} {value : Value} {e : CompileError}

theorem coerceIdentifier_eq_error_iff :
    coerceIdentifier idField field value = .error e ↔
      field = idField ∧ ∃ s, value = .text s ∧ Identifier.IsMalformed s ∧
        e = .invalidIdentifier field s := by
  unfold coerceIdentifier
  by_cases hfield : field = idField
  swap
  · simp [hfield]
  cases value with
  | text s =>
    cases hread : Identifier.read s with
    | invalid =>
      have hmalformed : Identifier.IsMalformed s := Identifier.read_eq_invalid_iff.mp hread
      simp [hfield, hread, hmalformed, eq_comm]
    | noLiteral | valid id =>
      have hwell : ¬ Identifier.IsMalformed s := by
        rw [← Identifier.read_eq_invalid_iff, hread]
        exact nofun
      simp [hfield, hread, hwell]
  | _ => simp [hfield]

namespace Clause

theorem comparison_eq_error_iff {operator : String} :
    comparison idField field operator value = .error e ↔
      coerceIdentifier idField field value = .error e := by
  unfold comparison
  cases coerceIdentifier idField field value <;> simp [bind, Except.bind, pure, Except.pure]

theorem pattern_eq_error_iff {t : Test} {before after : String} :
    pattern field t before after value = .error e ↔ (∀ s, value ≠ .text s) ∧ e = .notText t := by
  unfold pattern
  cases value <;> simp [eq_comm]

/-- A test fails only in the way of its family. -/
theorem ofTest_eq_error_iff {t : Test} :
    ofTest idField field t value = .error e ↔
      (t.family = .textMatch ∧ (∀ s, value ≠ .text s) ∧ e = .notText t) ∨
        (t.family = .comparison ∧ coerceIdentifier idField field value = .error e) := by
  cases t with
  | equal =>
    simp only [ofTest, Test.family]
    cases coerceIdentifier idField field value <;> simp [bind, Except.bind, pure, Except.pure]
  | greater | greaterOrEqual | less | lessOrEqual =>
    simp [ofTest, Test.family, comparison_eq_error_iff]
  | startsWith | endsWith | contains =>
    simp [ofTest, Test.family, pattern_eq_error_iff]

theorem ofLeaf_eq_error_iff {op : LeafOperator} :
    ofLeaf idField field op value = .error e ↔
      ∃ t, op = .test t ∧ ofTest idField field t value = .error e := by
  cases op <;> simp [ofLeaf]

end Clause

namespace Filter

theorem offends_of_compares {node : Filter} {t : Test} (hnode : node.Compares t field value)
    (h : Clause.ofTest idField field t value = .error e) : ∃ r, Offends idField node e r := by
  rcases Clause.ofTest_eq_error_iff.mp h with ⟨ht, hvalue, rfl⟩ | ⟨ht, hcoerced⟩
  · exact ⟨_, .notText hnode ht hvalue⟩
  · obtain ⟨rfl, s, rfl, hliteral, rfl⟩ := coerceIdentifier_eq_error_iff.mp hcoerced
    exact ⟨_, .invalidIdentifier hnode ht hliteral⟩

theorem ofFilter_of_compares {node : Filter} {t : Test} (hnode : node.Compares t field value) :
    Clause.ofFilter idField node = Clause.ofTest idField field t value := by
  cases hnode with
  | test => rfl
  | extension =>
    have hop : Operator.ofText? t.text = some (.leaf (.test t)) :=
      Operator.ofText?_text (.leaf (.test t))
    simp only [Clause.ofFilter, hop]
    rfl

theorem ofFilter_of_offends {node : Filter} {r : Refusal} (h : Offends idField node e r) :
    Clause.ofFilter idField node = .error e := by
  cases h with
  | notFilter | negation | unknown => rfl
  | @noOperator operator field value hoperator =>
    simp only [Clause.ofFilter]
    split
    · rename_i op hop
      exact absurd (Operator.ofText?_eq_some_iff.mp hop) (hoperator op)
    · rfl
  | notText hleaf ht hvalue =>
    rw [ofFilter_of_compares hleaf]
    exact Clause.ofTest_eq_error_iff.mpr (.inl ⟨ht, hvalue, rfl⟩)
  | invalidIdentifier hleaf ht hliteral =>
    rw [ofFilter_of_compares hleaf]
    have hcoerced : coerceIdentifier idField idField _ = .error _ :=
      coerceIdentifier_eq_error_iff.mpr ⟨rfl, _, rfl, hliteral, rfl⟩
    exact Clause.ofTest_eq_error_iff.mpr (.inr ⟨ht, hcoerced⟩)

theorem ofFilter_of_offence? {node : Filter} (h : node.offence? idField = some e) :
    Clause.ofFilter idField node = .error e := by
  unfold offence? at h
  split at h
  · contradiction
  · contradiction
  · split at h
    · contradiction
    · rename_i failure hfailure
      cases h
      exact hfailure

theorem offends_of_extension {operator : String}
    (h : Clause.ofFilter idField (.extension operator field value) = .error e) :
    ∃ r, Offends idField (.extension operator field value) e r := by
  by_cases hop : ∃ op : LeafOperator, op.text = operator
  · obtain ⟨op, rfl⟩ := hop
    have hknown : Operator.ofText? op.text = some (.leaf op) := Operator.ofText?_text (.leaf op)
    simp only [Clause.ofFilter, hknown] at h
    obtain ⟨t, rfl, htest⟩ := Clause.ofLeaf_eq_error_iff.mp h
    exact offends_of_compares (.extension t field value) htest
  · have hother := not_exists.mp hop
    rw [ofFilter_of_offends (.noOperator field value hother)] at h
    cases h
    exact ⟨_, .noOperator field value hother⟩

/-- What the nodes that offend were said to be is what they are. -/
theorem offence?_eq_some_iff {node : Filter} :
    node.offence? idField = some e ↔ ∃ r, Offends idField node e r := by
  constructor
  · intro h
    have hfailure := ofFilter_of_offence? h
    cases node with
    | and | or | member | isNull | isNotNull => contradiction
    | plain value =>
      cases hfailure
      exact ⟨_, .notFilter value⟩
    | not child =>
      cases hfailure
      exact ⟨_, .negation child⟩
    | unknown =>
      cases hfailure
      exact ⟨_, .unknown⟩
    | test t field value => exact offends_of_compares (.test t field value) hfailure
    | extension operator field value => exact offends_of_extension hfailure
  · rintro ⟨r, h⟩
    have hfailure := ofFilter_of_offends h
    cases node with
    | and | or =>
      cases h with
      | notText hnode | invalidIdentifier hnode => cases hnode
    | _ => simp only [offence?, hfailure]

theorem offence?_eq_none_iff {node : Filter} :
    node.offence? idField = none ↔ ∀ e r, ¬ Offends idField node e r := by
  simp only [Option.eq_none_iff_forall_not_mem, Option.mem_def, offence?_eq_some_iff, not_exists]

end Filter

/-! ## The first node that offends -/

/-- A computation fails with the error that was found, or comes to something if
none was. -/
def Settles {α : Type} (found : Option CompileError) (result : Except CompileError α) : Prop :=
  match found with
  | none => ∃ a, result = .ok a
  | some e => result = .error e

theorem Settles.bind {α β : Type} {first second : Option CompileError}
    {x : Except CompileError α} {f : α → Except CompileError β} (hx : Settles first x)
    (hf : ∀ a, x = .ok a → Settles second (f a)) : Settles (first.or second) (x >>= f) := by
  cases first with
  | some e =>
    have hfailure : x = .error e := hx
    rw [hfailure]
    rfl
  | none =>
    obtain ⟨a, ha⟩ := hx
    have hsecond := hf a ha
    rw [ha]
    exact hsecond

namespace Clause

theorem settles_node {node : Filter} (hand : ∀ l r, node ≠ .and l r) (hor : ∀ l r, node ≠ .or l r) :
    Settles (node.offence? idField) (ofFilter idField node) := by
  cases node with
  | and l r => exact absurd rfl (hand l r)
  | or l r => exact absurd rfl (hor l r)
  | _ =>
    simp only [Filter.offence?]
    split
    · rename_i c hc
      exact ⟨c, hc⟩
    · rename_i failure hfailure
      exact hfailure

/-- Two branches are compiled one after the other. -/
theorem settles_branches {first second : Option CompileError} {l r : Filter}
    {combine : Clause → Clause → Clause} (hl : Settles first (ofFilter idField l))
    (hr : Settles second (ofFilter idField r)) :
    Settles (first.or second) (do
      let left ← ofFilter idField l
      let right ← ofFilter idField r
      return combine left right) := by
  apply hl.bind
  intro left _
  rw [← Option.or_none (o := second)]
  apply hr.bind
  intro right _
  exact ⟨combine left right, rfl⟩

/-- A filter is refused for the first node that offends. -/
theorem settles_ofFilter (f : Filter) :
    Settles (f.visited.findSome? (Filter.offence? idField)) (ofFilter idField f) := by
  induction f with
  | and l r hl hr =>
    rw [Filter.visited, List.findSome?_cons_of_isNone rfl, List.findSome?_append]
    exact settles_branches hl hr
  | or l r hl hr =>
    rw [Filter.visited, List.findSome?_cons_of_isNone rfl, List.findSome?_append]
    exact settles_branches hl hr
  | _ =>
    simp only [Filter.visited, List.findSome?_singleton]
    exact settles_node (by simp) (by simp)

end Clause

/-! ## Merging -/

namespace Query

variable {q : Query}

/-- What stands under `$and` are clauses, so that others can join them. -/
def Extensible (q : Query) : Prop :=
  ∀ condition, q.find? "$and" = some condition → ∃ clauses, condition = .list clauses

namespace Extensible

theorem empty : Extensible .empty := nofun

theorem conjoin (hq : q.Extensible) (clauses : List Value) :
    ∃ q', q.conjoin clauses = .ok q' ∧ q'.Extensible := by
  cases hfind : q.find? "$and" with
  | none =>
    refine ⟨q.add "$and" (.list clauses), by simp [Query.conjoin, hfind], ?_⟩
    intro condition hcondition
    rw [find?_add, hfind] at hcondition
    cases hcondition
    exact ⟨clauses, rfl⟩
  | some condition =>
    obtain ⟨items, rfl⟩ := hq condition hfind
    refine ⟨q.replace "$and" (.list (items ++ clauses)), by simp [Query.conjoin, hfind], ?_⟩
    intro condition hcondition
    rw [find?_replace, if_pos rfl, hfind] at hcondition
    cases hcondition
    exact ⟨items ++ clauses, rfl⟩

theorem merge (hq : q.Extensible) {c : Clause}
    (hc : c.key = "$and" → ∃ clauses, c.condition = .list clauses) :
    ∃ q', q.merge c = .ok q' ∧ q'.Extensible := by
  cases hfind : q.find? c.key with
  | none =>
    refine ⟨q.add c.key c.condition, by simp [Query.merge, hfind], ?_⟩
    intro condition hcondition
    rw [find?_add] at hcondition
    cases hlist : q.find? "$and" with
    | some earlier =>
      rw [hlist] at hcondition
      exact hq condition (hlist.trans hcondition)
    | none =>
      rw [hlist] at hcondition
      by_cases hand : c.key = "$and"
      · rw [if_pos hand] at hcondition
        cases hcondition
        exact hc hand
      · rw [if_neg hand] at hcondition
        contradiction
  | some existing =>
    by_cases hand : c.key = "$and"
    · obtain ⟨clauses, hclauses⟩ := hc hand
      obtain ⟨items, rfl⟩ := hq existing (hand ▸ hfind)
      have hmerge : q.merge c = q.conjoin clauses := by
        simp only [Query.merge, hfind, if_pos hand, hclauses, Value.elements?]
      rw [hmerge]
      exact hq.conjoin clauses
    · cases hunite : existing.unite? c.condition with
      | some united =>
        refine ⟨q.replace c.key united, by simp [Query.merge, hfind, hand, hunite], ?_⟩
        intro condition hcondition
        rw [find?_replace, if_neg (Ne.symm hand)] at hcondition
        exact hq condition hcondition
      | none =>
        by_cases hor : c.key = "$or"
        · have hmerge : q.merge c = q.conjoin [c.toValue] := by
            simp only [Query.merge, hfind, if_neg hand, hunite, if_pos hor]
          rw [hmerge]
          exact hq.conjoin [c.toValue]
        · have hmerge : q.merge c =
              (q.erase c.key).conjoin [(Clause.mk c.key existing).toValue, c.toValue] := by
            simp only [Query.merge, hfind, if_neg hand, hunite, if_neg hor]
          have herase : (q.erase c.key).Extensible := by
            intro condition hcondition
            rw [find?_erase, if_neg (Ne.symm hand)] at hcondition
            exact hq condition hcondition
          rw [hmerge]
          exact herase.conjoin _

end Extensible

end Query

namespace Query

/-- Only a leaf on a field `$and` could put anything but clauses there. -/
theorem Extensible.merge_expresses {q : Query} (hq : q.Extensible) {f : Filter} {c : Clause}
    (hc : Clause.Expresses idField c f) (hnames : "$and" ∉ f.attributes) :
    ∃ q', q.merge c = .ok q' ∧ q'.Extensible := by
  apply hq.merge
  intro hkey
  cases hc with
  | leaf hatom =>
    have hfield := Filter.field_mem_attributes hatom
    rw [← Atom.clause_key, hkey] at hfield
    exact absurd hfield hnames
  | and | or => exact ⟨_, rfl⟩

/-- One more filter is refused for its own first offender or joins the query,
which stays extensible. -/
theorem Extensible.settles_restrict {q : Query} (hq : q.Extensible) {f : Filter}
    (hnames : "$and" ∉ f.attributes) :
    Settles (f.visited.findSome? (Filter.offence? idField)) (restrict idField q f) ∧
      ∀ q', restrict idField q f = .ok q' → q'.Extensible := by
  constructor
  · rw [← Option.or_none (o := f.visited.findSome? _)]
    apply (Clause.settles_ofFilter f).bind
    intro c hc
    obtain ⟨q', hmerge, -⟩ := hq.merge_expresses (Clause.ofFilter_eq_ok_iff.mp hc) hnames
    exact ⟨q', by rw [hmerge]⟩
  · intro q' h
    obtain ⟨c, hc, hmerge⟩ := restrict_eq_ok h
    obtain ⟨merged, hmerged, hextensible⟩ := hq.merge_expresses hc hnames
    rw [hmerge] at hmerged
    cases hmerged
    exact hextensible

/-- A whole run of filters, from any extensible query on. -/
theorem Extensible.settles_foldlM {filters : List Filter} {q : Query} (hq : q.Extensible)
    (hnames : ∀ f ∈ filters, "$and" ∉ f.attributes) :
    Settles ((filters.flatMap Filter.visited).findSome? (Filter.offence? idField))
      (filters.foldlM (restrict idField) q) := by
  induction filters generalizing q with
  | nil => exact ⟨q, rfl⟩
  | cons f rest ih =>
    rw [List.forall_mem_cons] at hnames
    obtain ⟨hsettles, hextensible⟩ := hq.settles_restrict hnames.1
    rw [List.flatMap_cons, List.findSome?_append, List.foldlM_cons]
    apply hsettles.bind
    intro q' hq'
    exact ih (hextensible q' hq') hnames.2

/-- Some of the filters of a query come to a query as well. -/
theorem exists_ofFilters_of_subset {filters fewer : List Filter} {q : Query}
    (hnames : ∀ f ∈ filters, "$and" ∉ f.attributes) (h : ofFilters idField filters = .ok q)
    (hfewer : fewer ⊆ filters) : ∃ q', ofFilters idField fewer = .ok q' := by
  have hall : Settles ((filters.flatMap Filter.visited).findSome? (Filter.offence? idField))
      (ofFilters idField filters) := Extensible.empty.settles_foldlM hnames
  have hsome : Settles ((fewer.flatMap Filter.visited).findSome? (Filter.offence? idField))
      (ofFilters idField fewer) := Extensible.empty.settles_foldlM fun f hf => hnames f (hfewer hf)
  cases hfound : (filters.flatMap Filter.visited).findSome? (Filter.offence? idField) with
  | some e =>
    rw [hfound, h] at hall
    contradiction
  | none =>
    have hnone : (fewer.flatMap Filter.visited).findSome? (Filter.offence? idField) = none := by
      rw [List.findSome?_eq_none_iff] at hfound ⊢
      intro node hnode
      rcases List.mem_flatMap.mp hnode with ⟨f, hf, hvisited⟩
      exact hfound node (List.mem_flatMap.mpr ⟨f, hfewer hf, hvisited⟩)
    rw [hnone] at hsome
    exact hsome

/-- Filters come to a query exactly if none of their nodes offends; otherwise
they fail for the first node that does, with its error, and are refused unless that node
is to be shown and cannot be.  Clauses under `$and` come from conjunctions only, so long
as no field has that name. -/
theorem ofFilters_refuses_first_offender {filters : List Filter}
    (hnames : ∀ f ∈ filters, "$and" ∉ f.attributes) :
    ((∃ q, ofFilters idField filters = .ok q) ↔
        ∀ node ∈ filters.flatMap Filter.visited, ∀ e r, ¬ node.Offends idField e r) ∧
      ∀ before node after e r,
        filters.flatMap Filter.visited = before ++ node :: after →
        (∀ other ∈ before, ∀ e r, ¬ other.Offends idField e r) →
        node.Offends idField e r →
        ofFilters idField filters = .error e ∧
          (¬ node.Unshown → e.refusal? = some r) ∧
          (node.Unshown → e.refusal? = none ∧ e.message = Decimal.limitMessage) := by
  have hsettles : Settles ((filters.flatMap Filter.visited).findSome? (Filter.offence? idField))
      (ofFilters idField filters) := Extensible.empty.settles_foldlM hnames
  simp only [← Filter.offence?_eq_none_iff]
  constructor
  · rw [← List.findSome?_eq_none_iff]
    cases hfound : (filters.flatMap Filter.visited).findSome? (Filter.offence? idField) with
    | none =>
      rw [hfound] at hsettles
      exact ⟨fun _ => rfl, fun _ => hsettles⟩
    | some e =>
      rw [hfound] at hsettles
      have hfailure : ofFilters idField filters = .error e := hsettles
      simp [hfailure]
  · intro before node after e r hsplit hbefore hnode
    have hfound : (filters.flatMap Filter.visited).findSome? (Filter.offence? idField) = some e :=
      List.findSome?_eq_some_iff.mpr
        ⟨before, node, after, hsplit, Filter.offence?_eq_some_iff.mpr ⟨r, hnode⟩, hbefore⟩
    rw [hfound] at hsettles
    exact ⟨hsettles, Filter.refusal?_of_offends hnode, fun hshown => hshown.unrefused hnode⟩

/-- Neither a negation nor an unknown node is reported when a malformed literal
comes first, whatever is asked of other fields before it. -/
theorem ofFilters_refuses_literal :
    let filters : List Filter :=
      [.or (.test .equal "a" (.int 1)) (.and (.isNull "$or") (.extension "in" "b" (.int 2))),
        .and (.test .less "_id" (.text "ObjectId('0g')")) (.not (.plain .null)), .unknown]
    (∀ f ∈ filters, "$and" ∉ f.attributes) ∧
      ofFilters "_id" filters = .error (.invalidIdentifier "_id" "ObjectId('0g')") ∧
      (CompileError.invalidIdentifier "_id" "ObjectId('0g')").refusal? = some .malformed := by
  intro filters
  have hnames : ∀ f ∈ filters, "$and" ∉ f.attributes := by decide +kernel
  have hmalformed : Identifier.IsMalformed "ObjectId('0g')" :=
    Identifier.read_eq_invalid_iff.mp rfl
  have hoffends : (Filter.test .less "_id" (.text "ObjectId('0g')")).Offends "_id"
      (.invalidIdentifier "_id" "ObjectId('0g')") .malformed :=
    .invalidIdentifier (.test .less _ _) rfl hmalformed
  have hrefused := (ofFilters_refuses_first_offender hnames).2 [_, _, _, _, _, _] _ _ _ _ rfl ?_
    hoffends
  · exact ⟨hnames, hrefused.1, hrefused.2.1 (by rintro ⟨⟩)⟩
  · simp only [← Filter.offence?_eq_none_iff]
    decide +kernel

/-- A negation of a filter with a digit too many offends, but is not refused. -/
theorem ofFilters_leaves_unshown :
    let negation : Filter := .not (.test .equal "a" (.int (10 ^ Decimal.maxDigits)))
    negation.Offends "_id" (.negation negation) (.unsupported (some "not")) ∧
      ofFilters "_id" [negation] = .error (.negation negation) ∧
      (CompileError.negation negation).refusal? = none ∧
      (CompileError.negation negation).message = Decimal.limitMessage := by
  intro negation
  have hoffends : negation.Offends "_id" (.negation negation) (.unsupported (some "not")) :=
    .negation _
  have hshown : negation.Unshown := by
    apply Filter.Unshown.negation
    simpa [Filter.IsLegible, Filter.integers, Value.integers] using Decimal.not_fits_pow
  exact ⟨hoffends, rfl, hshown.unrefused hoffends⟩

end Query

end DocScan
