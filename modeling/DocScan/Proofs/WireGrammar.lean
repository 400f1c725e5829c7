import DocScan.Proofs.WireRoundTrip

/-!
# The grammar of wire forms

Which values are wire forms of filters is said here by a grammar that knows
nothing of reading, and so is which check a value fails first.  Reading accepts
exactly the grammar.  Any other value is refused for its first failing check,
at the address of the node that fails it, and what is read is a tree of the
fourteen operators whose leaves all name an attribute.
-/

namespace DocScan

/-! ## The grammar -/

/-- A text names an operator in letters of either case.  No letter outside ASCII
has a letter of an operator's name as its lower case. -/
def Operator.NamedBy (op : Operator) (name : String) : Prop := name.toLower = op.text

/-- Under a key of a dictionary stands a text that is not empty. -/
def HasText (entries : List (Value × Value)) (key text : String) : Prop :=
  Value.lookup? key entries = some (.text text) ∧ text ≠ ""

/-- The conditions of a connective: a list under `conditions`, or one value
under `condition` when there is nothing but null under `conditions`. -/
inductive HasConditions (entries : List (Value × Value)) : List Value → Prop where
  | listed {items : List Value}
      (hlist : Value.lookup? "conditions" entries = some (.list items)) :
      HasConditions entries items
  | lone {value : Value}
      (hnone : Value.lookup? "conditions" entries = none ∨
        Value.lookup? "conditions" entries = some .null)
      (hvalue : Value.lookup? "condition" entries = some value) :
      HasConditions entries [value]

/-- How many conditions a connective takes. -/
def Connective.Takes : Connective → ℕ → Prop
  | .not, count => count = 1
  | .and, count | .or, count => 2 ≤ count

/-- What is wrong with a connective that has another number of conditions. -/
def Connective.countFault : Connective → WireFault
  | .not => .notOneCondition
  | .and => .tooFewConditions .and
  | .or => .tooFewConditions .or

/-- The wire forms of filters. -/
inductive Value.IsWireForm : Value → Prop where
  | leaf {entries : List (Value × Value)} {op : LeafOperator} {name field : String}
      (hname : HasText entries "op" name) (hop : (Operator.leaf op).NamedBy name)
      (hfield : HasText entries "attr" field) : IsWireForm (.dict entries)
  | connective {entries : List (Value × Value)} {c : Connective} {name : String}
      {items : List Value} (hname : HasText entries "op" name)
      (hop : (Operator.connective c).NamedBy name) (hitems : HasConditions entries items)
      (hcount : c.Takes items.length) (hall : ∀ item ∈ items, IsWireForm item) :
      IsWireForm (.dict entries)

/-- The first check that a value fails.  A node is checked from its operator on;
its conditions are checked in order, each as a whole, and counted last. -/
inductive FirstFault : Address → Value → WireError → Prop where
  | notDictionary {address : Address} {data : Value} (h : ∀ entries, data ≠ .dict entries) :
      FirstFault address data ⟨.notDictionary data, address⟩
  | missingOperator {address : Address} {entries : List (Value × Value)}
      (h : ∀ name, ¬ HasText entries "op" name) :
      FirstFault address (.dict entries) ⟨.missingOperator, address⟩
  | unknownOperator {address : Address} {entries : List (Value × Value)} {name : String}
      (hname : HasText entries "op" name) (h : ∀ op : Operator, ¬ op.NamedBy name) :
      FirstFault address (.dict entries) ⟨.unknownOperator name, address⟩
  | missingAttribute {address : Address} {entries : List (Value × Value)} {op : LeafOperator}
      {name : String} (hname : HasText entries "op" name)
      (hop : (Operator.leaf op).NamedBy name) (h : ∀ field, ¬ HasText entries "attr" field) :
      FirstFault address (.dict entries) ⟨.missingAttribute (.dict entries), address⟩
  | missingConditions {address : Address} {entries : List (Value × Value)} {c : Connective}
      {name : String} (hname : HasText entries "op" name)
      (hop : (Operator.connective c).NamedBy name)
      (h : ∀ items, HasConditions entries items → items = []) :
      FirstFault address (.dict entries) ⟨.missingConditions c, address⟩
  | condition {address : Address} {entries : List (Value × Value)} {c : Connective}
      {name : String} {before after : List Value} {item : Value} {e : WireError}
      (hname : HasText entries "op" name) (hop : (Operator.connective c).NamedBy name)
      (hitems : HasConditions entries (before ++ item :: after))
      (hbefore : ∀ other ∈ before, other.IsWireForm)
      (h : FirstFault (address.child before.length) item e) :
      FirstFault address (.dict entries) e
  | count {address : Address} {entries : List (Value × Value)} {c : Connective}
      {name : String} {items : List Value} (hname : HasText entries "op" name)
      (hop : (Operator.connective c).NamedBy name) (hitems : HasConditions entries items)
      (hne : items ≠ []) (hall : ∀ item ∈ items, item.IsWireForm)
      (h : ¬ c.Takes items.length) :
      FirstFault address (.dict entries) ⟨c.countFault, address⟩

/-! ## What the checks of a node find -/

namespace Operator

variable {name : String}

theorem ofAnyCase?_eq_some_iff {op : Operator} : ofAnyCase? name = some op ↔ op.NamedBy name := by
  have hlower : name.toLower = name.map Char.toLower := rfl
  unfold ofAnyCase? NamedBy
  rw [ofText?_eq_some_iff, eq_comm, hlower, ← String.toList_map, String.ofList_toList]

theorem ofAnyCase?_eq_none_iff :
    ofAnyCase? name = none ↔ ∀ op : Operator, ¬ op.NamedBy name := by
  simp only [Option.eq_none_iff_forall_not_mem, Option.mem_def, ofAnyCase?_eq_some_iff]

end Operator

namespace Filter

variable {entries : List (Value × Value)} {address : Address} {name : String} {c : Connective}
  {items : List Value}

theorem nonemptyText?_eq_some_iff {key text : String} :
    nonemptyText? key entries = some text ↔ HasText entries key text := by
  unfold nonemptyText? HasText
  cases Value.lookup? key entries with
  | none => simp
  | some value =>
    cases value with
    | text s =>
      simp only [Option.ite_none_left_eq_some, Option.some.injEq, Value.text.injEq]
      constructor
      · rintro ⟨hne, rfl⟩
        exact ⟨rfl, hne⟩
      · rintro ⟨rfl, hne⟩
        exact ⟨hne, rfl⟩
    | _ => simp

theorem nonemptyText?_eq_none_iff {key : String} :
    nonemptyText? key entries = none ↔ ∀ text, ¬ HasText entries key text := by
  simp only [Option.eq_none_iff_forall_not_mem, Option.mem_def, nonemptyText?_eq_some_iff]

theorem conditions?_eq_some_iff :
    conditions? entries = some items ↔ HasConditions entries items := by
  constructor
  · intro h
    unfold conditions? at h
    split at h
    · rename_i found hlist
      cases h
      exact .listed hlist
    · rename_i hnull
      obtain ⟨value, hvalue, rfl⟩ := Option.map_eq_some_iff.mp h
      exact .lone (.inr hnull) hvalue
    · rename_i hnone
      obtain ⟨value, hvalue, rfl⟩ := Option.map_eq_some_iff.mp h
      exact .lone (.inl hnone) hvalue
    · contradiction
  · intro h
    unfold conditions?
    cases h with
    | listed hlist => rw [hlist]
    | lone hnone hvalue =>
      rcases hnone with hnone | hnull
      · rw [hnone, hvalue]
        rfl
      · rw [hnull, hvalue]
        rfl

/-- A connective without conditions is refused before anything below it. -/
theorem ofWire_unconditioned (hname : HasText entries "op" name)
    (hop : (Operator.connective c).NamedBy name)
    (h : ∀ items, HasConditions entries items → items = []) :
    ofWire address (.dict entries) = .error ⟨.missingConditions c, address⟩ := by
  rw [ofWire, nonemptyText?_eq_some_iff.mpr hname]
  simp only [Operator.ofAnyCase?_eq_some_iff.mpr hop]
  split
  · rfl
  · rfl
  · rename_i first rest hitems
    have hnil := h _ (conditions?_eq_some_iff.mp hitems)
    contradiction

/-! ## Reading the conditions of a node -/

variable {P : Filter → Prop}

theorem ofWireItems_of_forall
    (h : ∀ item ∈ items, ∀ address, ∃ f, ofWire address item = .ok f ∧ P f)
    (address : Address) (index : ℕ) :
    ∃ fs, ofWireItems address index items = .ok fs ∧ fs.length = items.length ∧ ∀ f ∈ fs, P f := by
  induction items generalizing index with
  | nil => exact ⟨[], by rw [ofWireItems], rfl, List.forall_mem_nil P⟩
  | cons item rest ih =>
    rw [List.forall_mem_cons] at h
    obtain ⟨head, hhead, hP⟩ := h.1 (address.child index)
    obtain ⟨tail, htail, hlength, hall⟩ := ih h.2 (index + 1)
    refine ⟨head :: tail, ?_, congrArg (· + 1) hlength, List.forall_mem_cons.mpr ⟨hP, hall⟩⟩
    rw [ofWireItems, hhead, htail]
    rfl

theorem ofWireItems_of_fault {before after : List Value} {item : Value} {e : WireError} {index : ℕ}
    (hbefore : ∀ other ∈ before, ∀ address, ∃ f, ofWire address other = .ok f)
    (h : ofWire (address.child (index + before.length)) item = .error e) :
    ofWireItems address index (before ++ item :: after) = .error e := by
  induction before generalizing index with
  | nil =>
    rw [List.length_nil, Nat.add_zero] at h
    rw [List.nil_append, ofWireItems, h]
    rfl
  | cons other rest ih =>
    rw [List.forall_mem_cons] at hbefore
    obtain ⟨f, hf⟩ := hbefore.1 (address.child index)
    rw [List.length_cons, Nat.add_comm rest.length, ← Nat.add_assoc] at h
    rw [List.cons_append, ofWireItems, hf, ih hbefore.2 h]
    rfl

/-- Conditions that can all be read are joined. -/
theorem ofWire_of_conditions (hname : HasText entries "op" name)
    (hop : (Operator.connective c).NamedBy name) (hitems : HasConditions entries items)
    (hne : items ≠ []) (h : ∀ item ∈ items, ∀ address, ∃ f, ofWire address item = .ok f ∧ P f)
    (address : Address) :
    ∃ first rest, ofWire address (.dict entries) = join c address first rest ∧
      rest.length + 1 = items.length ∧ P first ∧ ∀ f ∈ rest, P f := by
  obtain ⟨head, tail, rfl⟩ := List.exists_cons_of_ne_nil hne
  rw [List.forall_mem_cons] at h
  obtain ⟨first, hfirst, hP⟩ := h.1 (address.child 0)
  obtain ⟨rest, hrest, hlength, hall⟩ := ofWireItems_of_forall h.2 address 1
  refine ⟨first, rest, ?_, congrArg (· + 1) hlength, hP, hall⟩
  rw [ofWire_connective (nonemptyText?_eq_some_iff.mpr hname)
    (Operator.ofAnyCase?_eq_some_iff.mpr hop) (conditions?_eq_some_iff.mpr hitems), hfirst, hrest]
  rfl

/-- A node is refused for the first of its conditions that is. -/
theorem ofWire_of_condition_fault {before after : List Value} {item : Value} {e : WireError}
    (hname : HasText entries "op" name) (hop : (Operator.connective c).NamedBy name)
    (hitems : HasConditions entries (before ++ item :: after))
    (hbefore : ∀ other ∈ before, ∀ address, ∃ f, ofWire address other = .ok f)
    (h : ofWire (address.child before.length) item = .error e) :
    ofWire address (.dict entries) = .error e := by
  have htext := nonemptyText?_eq_some_iff.mpr hname
  have hoperator := Operator.ofAnyCase?_eq_some_iff.mpr hop
  rw [← conditions?_eq_some_iff] at hitems
  cases before with
  | nil =>
    rw [List.length_nil] at h
    rw [ofWire_connective htext hoperator hitems, h]
    rfl
  | cons first rest =>
    rw [List.forall_mem_cons] at hbefore
    obtain ⟨f, hf⟩ := hbefore.1 (address.child 0)
    rw [List.length_cons, Nat.add_comm] at h
    rw [List.cons_append] at hitems
    rw [ofWire_connective htext hoperator hitems, hf, ofWireItems_of_fault hbefore.2 h]
    rfl

/-! ## Trees of named leaves -/

/-- A tree of the fourteen operators in which every leaf names an attribute. -/
def Complete (f : Filter) : Prop :=
  f.Basic ∧ ∀ address, ∀ leaf ∈ f.leaves address, ¬ leaf.2.Nameless

theorem complete_leaf (op : LeafOperator) {field : String} (value : Value) (h : field ≠ "") :
    (leaf op field value).Complete := by
  cases op <;> simp [leaf, Complete, Basic, leaves, Nameless, attribute?, h]

theorem complete_and {l r : Filter} (hl : l.Complete) (hr : r.Complete) :
    (Filter.and l r).Complete := by
  refine ⟨⟨hl.1, hr.1⟩, fun address => ?_⟩
  rw [leaves, List.forall_mem_append]
  exact ⟨hl.2 _, hr.2 _⟩

theorem complete_or {l r : Filter} (hl : l.Complete) (hr : r.Complete) :
    (Filter.or l r).Complete := by
  refine ⟨⟨hl.1, hr.1⟩, fun address => ?_⟩
  rw [leaves, List.forall_mem_append]
  exact ⟨hl.2 _, hr.2 _⟩

theorem complete_not {child : Filter} (h : child.Complete) : (Filter.not child).Complete :=
  ⟨h.1, fun _ => h.2 _⟩

theorem complete_foldl {combine : Filter → Filter → Filter}
    (hcombine : ∀ {l r : Filter}, l.Complete → r.Complete → (combine l r).Complete)
    {rest : List Filter} {first : Filter} (hfirst : first.Complete)
    (hrest : ∀ f ∈ rest, f.Complete) : (rest.foldl combine first).Complete := by
  induction rest generalizing first with
  | nil => exact hfirst
  | cons f rest ih =>
    rw [List.forall_mem_cons] at hrest
    exact ih (hcombine hfirst hrest.1) hrest.2

/-- A connective joins as many conditions as it takes, and no others. -/
theorem join_of_takes {first : Filter} {rest : List Filter} (hcount : c.Takes (rest.length + 1))
    (hfirst : first.Complete) (hrest : ∀ f ∈ rest, f.Complete) :
    ∃ f, join c address first rest = .ok f ∧ f.Complete := by
  cases c with
  | not =>
    have hnil : rest = [] := List.length_eq_zero_iff.mp (Nat.succ.inj hcount)
    subst hnil
    exact ⟨_, rfl, complete_not hfirst⟩
  | and =>
    obtain _ | ⟨second, others⟩ := rest
    · simp [Connective.Takes] at hcount
    · exact ⟨_, rfl, complete_foldl complete_and hfirst hrest⟩
  | or =>
    obtain _ | ⟨second, others⟩ := rest
    · simp [Connective.Takes] at hcount
    · exact ⟨_, rfl, complete_foldl complete_or hfirst hrest⟩

theorem join_of_not_takes {first : Filter} {rest : List Filter}
    (hcount : ¬ c.Takes (rest.length + 1)) :
    join c address first rest = .error ⟨c.countFault, address⟩ := by
  obtain _ | ⟨second, others⟩ := rest
  · cases c <;> simp [Connective.Takes, join, Connective.countFault] at hcount ⊢
  · cases c <;> simp [Connective.Takes, join, Connective.countFault] at hcount ⊢

/-! ## Whole values -/

theorem ofWire_of_isWireForm {data : Value} (h : data.IsWireForm) (address : Address) :
    ∃ f, ofWire address data = .ok f ∧ f.Complete := by
  induction h generalizing address with
  | leaf hname hop hfield =>
    rw [ofWire_leaf (nonemptyText?_eq_some_iff.mpr hname)
      (Operator.ofAnyCase?_eq_some_iff.mpr hop), nonemptyText?_eq_some_iff.mpr hfield]
    exact ⟨_, rfl, complete_leaf _ _ hfield.2⟩
  | @connective entries c name items hname hop hitems hcount hall ih =>
    have hne : items ≠ [] := by
      rintro rfl
      cases c <;> simp [Connective.Takes] at hcount
    obtain ⟨first, rest, hread, hlength, hfirst, hrest⟩ :=
      ofWire_of_conditions hname hop hitems hne ih address
    rw [hread]
    exact join_of_takes (hlength ▸ hcount) hfirst hrest

theorem ofWire_of_firstFault {data : Value} {address : Address} {e : WireError}
    (h : FirstFault address data e) : ofWire address data = .error e := by
  induction h with
  | @notDictionary address data hdata =>
    cases data with
    | dict entries => exact absurd rfl (hdata entries)
    | _ => rw [ofWire]; simp
  | missingOperator hname => rw [ofWire, nonemptyText?_eq_none_iff.mpr hname]
  | unknownOperator hname hop =>
    rw [ofWire, nonemptyText?_eq_some_iff.mpr hname]
    simp only [Operator.ofAnyCase?_eq_none_iff.mpr hop]
  | missingAttribute hname hop hfield =>
    rw [ofWire_leaf (nonemptyText?_eq_some_iff.mpr hname)
      (Operator.ofAnyCase?_eq_some_iff.mpr hop), nonemptyText?_eq_none_iff.mpr hfield]
  | missingConditions hname hop hconditions => exact ofWire_unconditioned hname hop hconditions
  | condition hname hop hitems hbefore _ ih =>
    apply ofWire_of_condition_fault hname hop hitems _ ih
    intro other hother place
    obtain ⟨f, hf, -⟩ := ofWire_of_isWireForm (hbefore other hother) place
    exact ⟨f, hf⟩
  | @count address entries c name items hname hop hitems hne hall hcount =>
    obtain ⟨first, rest, hread, hlength, -⟩ := ofWire_of_conditions hname hop hitems hne
      (fun item hitem => ofWire_of_isWireForm (hall item hitem)) address
    rw [hread]
    exact join_of_not_takes (hlength ▸ hcount)

/-- Of items that do not all satisfy a property there is a first one that does
not. -/
theorem exists_first_not {P : Value → Prop} (h : ¬ ∀ item ∈ items, P item) :
    ∃ before item after, items = before ++ item :: after ∧ (∀ other ∈ before, P other) ∧
      ¬ P item := by
  classical
  cases hfirst : items.find? fun item => ¬ P item with
  | none =>
    have hall : ∀ item ∈ items, P item := by simpa using List.find?_eq_none.mp hfirst
    exact absurd hall h
  | some item =>
    obtain ⟨hitem, before, after, rfl, hbefore⟩ := List.find?_eq_some_iff_append.mp hfirst
    exact ⟨before, item, after, rfl, by simpa using hbefore, by simpa using hitem⟩

theorem sizeOf_condition_lt (hitems : HasConditions entries items) {item : Value}
    (hmem : item ∈ items) : sizeOf item < sizeOf (Value.dict entries) := by
  have hitem := List.sizeOf_lt_of_mem hmem
  have hentries := sizeOf_conditions?_lt (conditions?_eq_some_iff.mpr hitems)
  simp only [Value.dict.sizeOf_spec]
  omega

theorem dict_isWireForm_or_firstFault (address : Address)
    (h : ∀ items, HasConditions entries items → ∀ item ∈ items, ∀ place,
      item.IsWireForm ∨ ∃ e, FirstFault place item e) :
    (Value.dict entries).IsWireForm ∨ ∃ e, FirstFault address (.dict entries) e := by
  by_cases htext : ∃ name, HasText entries "op" name
  swap
  · exact .inr ⟨_, .missingOperator (not_exists.mp htext)⟩
  obtain ⟨name, hname⟩ := htext
  by_cases hnamed : ∃ op : Operator, op.NamedBy name
  swap
  · exact .inr ⟨_, .unknownOperator hname (not_exists.mp hnamed)⟩
  obtain ⟨op | c, hop⟩ := hnamed
  · by_cases hattribute : ∃ field, HasText entries "attr" field
    · obtain ⟨field, hfield⟩ := hattribute
      exact .inl (.leaf hname hop hfield)
    · exact .inr ⟨_, .missingAttribute hname hop (not_exists.mp hattribute)⟩
  · by_cases hconditions : ∃ items, HasConditions entries items ∧ items ≠ []
    swap
    · refine .inr ⟨_, .missingConditions hname hop fun items hitems => ?_⟩
      by_contra hne
      exact hconditions ⟨items, hitems, hne⟩
    obtain ⟨items, hitems, hne⟩ := hconditions
    by_cases hall : ∀ item ∈ items, item.IsWireForm
    · by_cases hcount : c.Takes items.length
      · exact .inl (.connective hname hop hitems hcount hall)
      · exact .inr ⟨_, .count hname hop hitems hne hall hcount⟩
    · obtain ⟨before, item, after, rfl, hbefore, hitem⟩ := exists_first_not hall
      have hmem : item ∈ before ++ item :: after := by simp
      rcases h _ hitems item hmem (address.child before.length) with hwire | ⟨e, hfault⟩
      · exact absurd hwire hitem
      · exact .inr ⟨e, .condition hname hop hitems hbefore hfault⟩

/-- A value is a wire form or fails some check first. -/
theorem isWireForm_or_firstFault (data : Value) (address : Address) :
    data.IsWireForm ∨ ∃ e, FirstFault address data e := by
  induction hsize : sizeOf data using Nat.strong_induction_on generalizing data address with
  | h size ih =>
    by_cases hdict : ∃ entries, data = .dict entries
    · obtain ⟨entries, rfl⟩ := hdict
      apply dict_isWireForm_or_firstFault
      intro items hitems item hmem place
      have hlt : sizeOf item < size := hsize ▸ sizeOf_condition_lt hitems hmem
      exact ih _ hlt item place rfl
    · exact .inr ⟨_, .notDictionary (not_exists.mp hdict)⟩

theorem isWireForm_of_ofWire {data : Value} {f : Filter} (h : ofWire address data = .ok f) :
    data.IsWireForm := by
  rcases isWireForm_or_firstFault data address with hwire | ⟨e, hfault⟩
  · exact hwire
  · rw [ofWire_of_firstFault hfault] at h
    contradiction

theorem firstFault_of_ofWire {data : Value} {e : WireError} (h : ofWire address data = .error e) :
    FirstFault address data e := by
  rcases isWireForm_or_firstFault data address with hwire | ⟨other, hfault⟩
  · obtain ⟨f, hf, -⟩ := ofWire_of_isWireForm hwire address
    rw [hf] at h
    contradiction
  · rw [ofWire_of_firstFault hfault] at h
    cases h
    exact hfault

/-! ## Values that can be shown -/

theorem IsLegible.of_hasConditions {item : Value} (h : (Value.dict entries).IsLegible)
    (hitems : HasConditions entries items) (hitem : item ∈ items) : item.IsLegible := by
  cases hitems with
  | listed hlist => exact Value.isLegible_list_iff.mp (h.of_lookup? hlist) item hitem
  | lone hnone hvalue =>
    rw [List.mem_singleton.mp hitem]
    exact h.of_lookup? hvalue

/-- What can be shown has no fault that cannot be. -/
theorem isLegible_of_firstFault {data : Value} {e : WireError} (h : FirstFault address data e)
    (hdata : data.IsLegible) : e.IsLegible := by
  induction h with
  | missingAttribute => exact WireError.isLegible_missingAttribute_iff.mpr hdata
  | condition _ _ hitems _ _ ih => exact ih (IsLegible.of_hasConditions hdata hitems (by simp))
  | @count address entries c => cases c <;> simp [Connective.countFault, WireError.IsLegible]
  | notDictionary | missingOperator | unknownOperator | missingConditions =>
    simp [WireError.IsLegible]

/-- Reading accepts exactly the wire forms, and gives trees of the fourteen
operators with named leaves.  Any other value fails some check first.  It is refused for
that, as not supported if that is an operator that is not known, and otherwise as
malformed, unless the failing node is to be shown and cannot be: then only the limit is
reported.  This does not happen to values that can be shown. -/
theorem ofWire_eq_ok_iff_isWireForm (address : Address) (data : Value) :
    ((∃ f, ofWire address data = .ok f) ↔ data.IsWireForm) ∧
      (∀ f, ofWire address data = .ok f →
        f.Basic ∧ ∀ leaf ∈ f.leaves address, ¬ leaf.2.Nameless) ∧
      (∀ e, ofWire address data = .error e ↔ FirstFault address data e) ∧
      (¬ data.IsWireForm → ∃ e, ofWire address data = .error e ∧
        (∀ name, e.fault = .unknownOperator name → e.refusal? = some (.unsupported (some name))) ∧
        ((∀ name, e.fault ≠ .unknownOperator name) → e.IsLegible →
          e.refusal? = some .malformed) ∧
        (¬ e.IsLegible → e.refusal? = none ∧ e.message = Decimal.limitMessage)) ∧
      (data.IsLegible → ∀ e, ofWire address data = .error e → e.IsLegible) := by
  rcases isWireForm_or_firstFault data address with hwire | ⟨e, hfault⟩
  · obtain ⟨f, hread, hbasic, hnamed⟩ := ofWire_of_isWireForm hwire address
    have haccepted (e : WireError) : ofWire address data ≠ .error e := by
      rw [hread]
      exact nofun
    refine ⟨⟨fun _ => hwire, fun _ => ⟨f, hread⟩⟩, ?_, ?_, fun hnot => absurd hwire hnot,
      fun _ e he => absurd he (haccepted e)⟩
    · intro g hg
      rw [hread] at hg
      cases hg
      exact ⟨hbasic, hnamed address⟩
    · exact fun e => ⟨fun he => absurd he (haccepted e), ofWire_of_firstFault⟩
  · have hread : ofWire address data = .error e := ofWire_of_firstFault hfault
    have hrefused (f : Filter) : ofWire address data ≠ .ok f := by
      rw [hread]
      exact nofun
    refine ⟨⟨fun ⟨f, hf⟩ => absurd hf (hrefused f), fun hwire => ?_⟩,
      fun f hf => absurd hf (hrefused f), ?_, fun _ => ⟨e, hread, ?_, ?_, ?_⟩, ?_⟩
    · obtain ⟨f, hf, -⟩ := ofWire_of_isWireForm hwire address
      exact absurd hf (hrefused f)
    · exact fun other => ⟨firstFault_of_ofWire, ofWire_of_firstFault⟩
    · intro name hname
      simp [WireError.refusal?, hname]
    · exact fun hother hlegible => WireError.refusal?_eq_malformed hlegible hother
    · exact fun hillegible => ⟨WireError.refusal?_eq_none_iff.mpr hillegible,
        WireError.message_of_not_isLegible hillegible⟩
    · exact fun hdata other hother => isLegible_of_firstFault (firstFault_of_ofWire hother) hdata

/-- A leaf without an attribute whose value has a digit too many. -/
def overlongLeaf : Value :=
  .dict [wireEntry "op" (.text "="), wireEntry "val" (.int (10 ^ Decimal.maxDigits))]

theorem not_isLegible_overlongLeaf (address : Address) :
    ¬ (WireError.mk (.missingAttribute overlongLeaf) address).IsLegible := by
  rw [WireError.isLegible_missingAttribute_iff]
  simpa [overlongLeaf, wireEntry, Value.IsLegible, Value.integers, Value.integersOfEntries] using
    Decimal.not_fits_pow

theorem ofWire_overlongLeaf (address : Address) :
    ofWire address overlongLeaf = .error ⟨.missingAttribute overlongLeaf, address⟩ := by
  have hname : nonemptyText? "op" [wireEntry "op" (.text "="),
      wireEntry "val" (.int (10 ^ Decimal.maxDigits))] = some "=" :=
    nonemptyText?_op (.leaf (.test .equal)) _
  unfold overlongLeaf
  rw [ofWire_leaf hname (Operator.ofAnyCase?_text (.leaf (.test .equal)))]
  simp [nonemptyText?, Value.lookup?, wireEntry]

/-- A leaf that is not a wire form is not refused as one either if it cannot be shown. -/
theorem ofWire_leaves_unshown :
    ¬ overlongLeaf.IsWireForm ∧ ∃ e, ofWire .whole overlongLeaf = .error e ∧
      e.refusal? = none ∧ e.message = Decimal.limitMessage := by
  have hread := ofWire_overlongLeaf .whole
  have hillegible := not_isLegible_overlongLeaf .whole
  refine ⟨fun hwire => ?_, _, hread, WireError.refusal?_eq_none_iff.mpr hillegible,
    WireError.message_of_not_isLegible hillegible⟩
  obtain ⟨f, hf, -⟩ := ofWire_of_isWireForm hwire .whole
  rw [hread] at hf
  contradiction

end Filter

end DocScan
