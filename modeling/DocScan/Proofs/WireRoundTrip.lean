import DocScan.Proofs.Legibility

/-!
# Reading back the wire form of a filter

A filter made of the operators alone has a wire form, and reading that form
gives the same filter again.  The one thing that reading refuses is a leaf
without the name of an attribute, and of several such leaves the leftmost one
is at fault, at the address where it stands in the tree.  The wire form of a filter
can be shown exactly if the filter can.
-/

namespace DocScan

namespace Operator

theorem text_ne_empty (op : Operator) : op.text ≠ "" := by
  rcases op with (t | _ | _ | _) | c
  · cases t <;> decide
  · decide
  · decide
  · decide
  · cases c <;> decide

theorem ofAnyCase?_text (op : Operator) : ofAnyCase? op.text = some op := by
  rcases op with (t | _ | _ | _) | c
  · cases t <;> decide
  · decide
  · decide
  · decide
  · cases c <;> decide

end Operator

namespace Filter

/-- Every node has one of the fourteen operators as its own: none is of an
extension or of an unknown variant, and none is a value that is no filter. -/
def Basic : Filter → Prop
  | .test _ _ _ | .member _ _ | .isNull _ | .isNotNull _ => True
  | .and left right | .or left right => left.Basic ∧ right.Basic
  | .not child => child.Basic
  | .extension _ _ _ | .unknown | .plain _ => False

/-- The leaves of a filter from left to right, with the addresses at which
they stand when the filter stands at the given one. -/
def leaves (address : Address) : Filter → List (Address × Filter)
  | .and left right | .or left right =>
    left.leaves (address.child 0) ++ right.leaves (address.child 1)
  | .not child => child.leaves (address.child 0)
  | leaf => [(address, leaf)]

def attribute? : Filter → Option String
  | .test _ field _ | .member field _ | .isNull field | .isNotNull field => some field
  | .extension _ field _ => some field
  | .and _ _ | .or _ _ | .not _ | .unknown | .plain _ => none

/-! ## One node at a time -/

theorem nonemptyText?_op (op : Operator) (rest : List (Value × Value)) :
    nonemptyText? "op" (wireEntry "op" (.text op.text) :: rest) = some op.text := by
  simp [nonemptyText?, Value.lookup?, wireEntry, op.text_ne_empty]

/-- A leaf is read off its entries. -/
theorem ofWire_leaf {entries : List (Value × Value)} {name : String} {op : LeafOperator}
    {address : Address} (hname : nonemptyText? "op" entries = some name)
    (hop : Operator.ofAnyCase? name = some (.leaf op)) :
    ofWire address (.dict entries) =
      match nonemptyText? "attr" entries with
      | none => .error ⟨.missingAttribute (.dict entries), address⟩
      | some field => .ok (leaf op field ((Value.lookup? "val" entries).getD .null)) := by
  rw [ofWire, hname]
  cases nonemptyText? "attr" entries <;> simp only [hop]

/-- The conditions of a connective are read before they are joined. -/
theorem ofWire_connective {entries : List (Value × Value)} {name : String} {c : Connective}
    {address : Address} {first : Value} {rest : List Value}
    (hname : nonemptyText? "op" entries = some name)
    (hop : Operator.ofAnyCase? name = some (.connective c))
    (hconditions : conditions? entries = some (first :: rest)) :
    ofWire address (.dict entries) = (do
      let head ← ofWire (address.child 0) first
      let tail ← ofWireItems address 1 rest
      join c address head tail) := by
  rw [ofWire, hname]
  simp only [hop]
  -- The match on the conditions carries its equation, so they cannot be rewritten in it.
  split
  · rename_i hnone
    rw [hconditions] at hnone
    cases hnone
  · rename_i hempty
    rw [hconditions] at hempty
    cases hempty
  · rename_i head tail hitems
    rw [hconditions] at hitems
    cases hitems
    rfl

theorem ofWire_wireLeaf (op : LeafOperator) (field : String) (value : Value) (address : Address) :
    ofWire address (wireLeaf op.text field value) =
      if field = "" then .error ⟨.missingAttribute (wireLeaf op.text field value), address⟩
      else .ok (leaf op field value) := by
  have hname : nonemptyText? "op" [wireEntry "op" (.text op.text), wireEntry "attr" (.text field),
      wireEntry "val" value] = some op.text := nonemptyText?_op (.leaf op) _
  unfold wireLeaf
  rw [ofWire_leaf hname (Operator.ofAnyCase?_text (.leaf op))]
  by_cases hfield : field = ""
  · simp [nonemptyText?, Value.lookup?, wireEntry, hfield]
  · simp [nonemptyText?, Value.lookup?, wireEntry, hfield]

theorem ofWire_wireCheck (op : LeafOperator) (field : String) (address : Address) :
    ofWire address (wireCheck op.text field) =
      if field = "" then .error ⟨.missingAttribute (wireCheck op.text field), address⟩
      else .ok (leaf op field .null) := by
  have hname : nonemptyText? "op" [wireEntry "op" (.text op.text),
      wireEntry "attr" (.text field)] = some op.text := nonemptyText?_op (.leaf op) _
  unfold wireCheck
  rw [ofWire_leaf hname (Operator.ofAnyCase?_text (.leaf op))]
  by_cases hfield : field = ""
  · simp [nonemptyText?, Value.lookup?, wireEntry, hfield]
  · simp [nonemptyText?, Value.lookup?, wireEntry, hfield]

theorem ofWire_wireConnective (c : Connective) (first : Value) (rest : List Value)
    (address : Address) :
    ofWire address (wireConnective c (first :: rest)) = (do
      let head ← ofWire (address.child 0) first
      let tail ← ofWireItems address 1 rest
      join c address head tail) := by
  have hconditions : conditions? [wireEntry "op" (.text c.text),
      wireEntry "conditions" (.list (first :: rest))] = some (first :: rest) := by
    simp [conditions?, Value.lookup?, wireEntry]
  exact ofWire_connective (nonemptyText?_op (.connective c) _)
    (Operator.ofAnyCase?_text (.connective c)) hconditions

/-! ## Whole trees -/

def Nameless (f : Filter) : Prop := f.attribute? = some ""

instance (f : Filter) : Decidable f.Nameless := inferInstanceAs (Decidable (_ = _))

/-- What reading comes to where a filter with the given leaves was written: the
filter itself, unless a leaf is nameless; then the first such leaf is refused
where it stands. -/
def ReadAs (f : Filter) (leaves : List (Address × Filter)) (result : Except WireError Filter) :
    Prop :=
  match leaves.find? fun leaf => leaf.2.Nameless with
  | none => result = .ok f
  | some (place, leaf) =>
    ∃ node, leaf.toWire = .ok node ∧ result = .error ⟨.missingAttribute node, place⟩

theorem readAs_leaf {f : Filter} {field : String} {wire : Value} {address : Address}
    {result : Except WireError Filter} (hfield : f.attribute? = some field)
    (hwire : f.toWire = .ok wire)
    (hresult : result = if field = "" then .error ⟨.missingAttribute wire, address⟩ else .ok f) :
    ReadAs f [(address, f)] result := by
  unfold ReadAs
  by_cases hname : field = ""
  · have hnameless : f.Nameless := by rw [Nameless, hfield, hname]
    rw [if_pos hname] at hresult
    simp only [List.find?_cons, hnameless, decide_true]
    exact ⟨wire, hwire, hresult⟩
  · have hnamed : ¬ f.Nameless := by
      rw [Nameless, hfield, Option.some.injEq]
      exact hname
    rw [if_neg hname] at hresult
    simpa [hnamed] using hresult

theorem readAs_not {child : Filter} {wire : Value} {address : Address}
    (h : ReadAs child (child.leaves (address.child 0)) (ofWire (address.child 0) wire)) :
    ReadAs (.not child) (child.leaves (address.child 0))
      (ofWire address (wireConnective .not [wire])) := by
  rw [ofWire_wireConnective, ofWireItems]
  unfold ReadAs at h ⊢
  cases hfirst : (child.leaves (address.child 0)).find? fun leaf => leaf.2.Nameless with
  | none =>
    simp only [hfirst] at h ⊢
    rw [h]
    rfl
  | some leaf =>
    simp only [hfirst] at h ⊢
    obtain ⟨node, hnode, hresult⟩ := h
    rw [hresult]
    exact ⟨node, hnode, rfl⟩

/-- Two conditions are read one after the other, and the second one only if
the first one is not refused. -/
theorem readAs_pair {c : Connective} {combine : Filter → Filter → Filter} {l r : Filter}
    {left right : Value} {address : Address}
    (hjoin : join c address l [r] = .ok (combine l r))
    (hleft : ReadAs l (l.leaves (address.child 0)) (ofWire (address.child 0) left))
    (hright : ReadAs r (r.leaves (address.child 1)) (ofWire (address.child 1) right)) :
    ReadAs (combine l r) (l.leaves (address.child 0) ++ r.leaves (address.child 1))
      (ofWire address (wireConnective c [left, right])) := by
  rw [ofWire_wireConnective, ofWireItems, ofWireItems]
  unfold ReadAs at hleft hright ⊢
  rw [List.find?_append]
  cases hfirst : (l.leaves (address.child 0)).find? fun leaf => leaf.2.Nameless with
  | some leaf =>
    simp only [hfirst] at hleft
    obtain ⟨node, hnode, hresult⟩ := hleft
    rw [hresult]
    exact ⟨node, hnode, rfl⟩
  | none =>
    simp only [hfirst] at hleft
    rw [hleft, Option.none_or]
    cases hsecond : (r.leaves (address.child 1)).find? fun leaf => leaf.2.Nameless with
    | some leaf =>
      simp only [hsecond] at hright ⊢
      obtain ⟨node, hnode, hresult⟩ := hright
      rw [hresult]
      exact ⟨node, hnode, rfl⟩
    | none =>
      simp only [hsecond] at hright ⊢
      rw [hright]
      exact hjoin

theorem readAs_ofWire {f : Filter} (hf : f.Basic) :
    ∃ wire, f.toWire = .ok wire ∧
      ∀ address, ReadAs f (f.leaves address) (ofWire address wire) := by
  induction f with
  | test t field value =>
    refine ⟨_, rfl, fun address => ?_⟩
    exact readAs_leaf rfl rfl (ofWire_wireLeaf (.test t) field value address)
  | member field values =>
    refine ⟨_, rfl, fun address => ?_⟩
    exact readAs_leaf rfl rfl (ofWire_wireLeaf .member field (.list values) address)
  | isNull field =>
    refine ⟨_, rfl, fun address => ?_⟩
    exact readAs_leaf rfl rfl (ofWire_wireCheck .isNull field address)
  | isNotNull field =>
    refine ⟨_, rfl, fun address => ?_⟩
    exact readAs_leaf rfl rfl (ofWire_wireCheck .isNotNull field address)
  | and l r hl hr =>
    obtain ⟨left, hleft, hleftRead⟩ := hl hf.1
    obtain ⟨right, hright, hrightRead⟩ := hr hf.2
    refine ⟨wireConnective .and [left, right], by rw [toWire, hleft, hright]; rfl, ?_⟩
    intro address
    exact readAs_pair rfl (hleftRead _) (hrightRead _)
  | or l r hl hr =>
    obtain ⟨left, hleft, hleftRead⟩ := hl hf.1
    obtain ⟨right, hright, hrightRead⟩ := hr hf.2
    refine ⟨wireConnective .or [left, right], by rw [toWire, hleft, hright]; rfl, ?_⟩
    intro address
    exact readAs_pair rfl (hleftRead _) (hrightRead _)
  | not child ih =>
    obtain ⟨wire, hwire, hread⟩ := ih hf
    refine ⟨wireConnective .not [wire], by rw [toWire, hwire]; rfl, ?_⟩
    intro address
    exact readAs_not (hread _)
  | extension | unknown | plain => contradiction

/-- A filter is read back as it is exactly if every leaf names its attribute.
Otherwise the first leaf that names none is at fault, at its address: it is refused as
malformed if it can be shown, and if not only the limit is reported. -/
theorem ofWire_toWire {f : Filter} (hf : f.Basic) (address : Address) :
    ∃ wire, f.toWire = .ok wire ∧
      (ofWire address wire = .ok f ↔ ∀ leaf ∈ f.leaves address, ¬ leaf.2.Nameless) ∧
      ∀ place leaf,
        (f.leaves address).find? (fun leaf => leaf.2.Nameless) = some (place, leaf) →
          ∃ node e, leaf.toWire = .ok node ∧ e = ⟨.missingAttribute node, place⟩ ∧
            ofWire address wire = .error e ∧
            (leaf.IsLegible → e.refusal? = some .malformed) ∧
            (¬ leaf.IsLegible → e.refusal? = none ∧ e.message = Decimal.limitMessage) := by
  obtain ⟨wire, hwire, hread⟩ := readAs_ofWire hf
  have hreading := hread address
  unfold ReadAs at hreading
  refine ⟨wire, hwire, ?_, ?_⟩
  · cases hfirst : (f.leaves address).find? fun leaf => leaf.2.Nameless with
    | none =>
      simp only [hfirst] at hreading
      have hnamed : ∀ leaf ∈ f.leaves address, ¬ leaf.2.Nameless := by
        simpa using List.find?_eq_none.mp hfirst
      exact ⟨fun _ => hnamed, fun _ => hreading⟩
    | some leaf =>
      simp only [hfirst] at hreading
      obtain ⟨node, -, hresult⟩ := hreading
      have hmem := List.mem_of_find?_eq_some hfirst
      have hnameless : leaf.2.Nameless := by simpa using List.find?_some hfirst
      rw [hresult]
      constructor
      · intro hok
        contradiction
      · intro hnamed
        exact absurd hnameless (hnamed leaf hmem)
  · intro place leaf hfirst
    simp only [hfirst] at hreading
    obtain ⟨node, hnode, hresult⟩ := hreading
    refine ⟨node, _, hnode, rfl, hresult, ?_, ?_⟩
    · intro hlegible
      rw [← isLegible_iff_of_toWire hnode, ← WireError.isLegible_missingAttribute_iff] at hlegible
      exact WireError.refusal?_eq_malformed hlegible (by simp)
    · intro hillegible
      rw [← isLegible_iff_of_toWire hnode, ← WireError.isLegible_missingAttribute_iff] at hillegible
      exact ⟨WireError.refusal?_eq_none_iff.mpr hillegible,
        WireError.message_of_not_isLegible hillegible⟩

/-- A tree with every kind of node, in which the second of three leaves under
a negation is the first one without a name. -/
theorem ofWire_toWire_under_negation :
    let named : Filter := .and (.or (.test .equal "a" (.tuple [.int 1])) (.member "b" [.null]))
      (.and (.test .startsWith "c" (.text "x")) (.or (.isNull "d") (.isNotNull "e")))
    let nameless : Filter := .and named (.not (.or (.test .less "f" (.int 2))
      (.and (.isNull "") (.test .contains "" (.text "y")))))
    nameless.Basic ∧
      (nameless.leaves .whole).find? (fun leaf => leaf.2.Nameless) =
        some (⟨"<root>", [1, 0, 1, 0]⟩, .isNull "") ∧
      ∃ wire, nameless.toWire = .ok wire ∧
        (ofWire .whole wire = .ok nameless ↔
          ∀ leaf ∈ nameless.leaves .whole, ¬ leaf.2.Nameless) ∧
        ∀ place leaf,
          (nameless.leaves .whole).find? (fun leaf => leaf.2.Nameless) = some (place, leaf) →
            ∃ node e, leaf.toWire = .ok node ∧ e = ⟨.missingAttribute node, place⟩ ∧
              ofWire .whole wire = .error e ∧
              (leaf.IsLegible → e.refusal? = some .malformed) ∧
              (¬ leaf.IsLegible → e.refusal? = none ∧ e.message = Decimal.limitMessage) := by
  intro named nameless
  have hbasic : nameless.Basic := by
    simp [nameless, named, Basic]
  have hfirst : (nameless.leaves .whole).find? (fun leaf => leaf.2.Nameless) =
      some (⟨"<root>", [1, 0, 1, 0]⟩, .isNull "") := by
    decide
  exact ⟨hbasic, hfirst, ofWire_toWire hbasic .whole⟩

/-- The first leaf without a name is not refused if it has an integer with a digit
too many. -/
theorem ofWire_toWire_leaves_unshown :
    let nameless : Filter := .test .equal "" (.int (10 ^ Decimal.maxDigits))
    nameless.Basic ∧ nameless.leaves .whole = [(.whole, nameless)] ∧ nameless.Nameless ∧
      ∃ wire e, nameless.toWire = .ok wire ∧ ofWire .whole wire = .error e ∧
        e.refusal? = none ∧ e.message = Decimal.limitMessage := by
  intro nameless
  let wire : Value := wireLeaf "=" "" (.int (10 ^ Decimal.maxDigits))
  let e : WireError := ⟨.missingAttribute wire, .whole⟩
  have hwire : nameless.toWire = .ok wire := rfl
  have hread : ofWire .whole wire = .error e :=
    ofWire_wireLeaf (.test .equal) "" (.int (10 ^ Decimal.maxDigits)) .whole
  have hillegible : ¬ e.IsLegible := by
    rw [WireError.isLegible_missingAttribute_iff, isLegible_iff_of_toWire hwire]
    simpa [nameless, IsLegible, integers, Value.integers] using Decimal.not_fits_pow
  exact ⟨trivial, rfl, rfl, wire, e, hwire, hread, WireError.refusal?_eq_none_iff.mpr hillegible,
    WireError.message_of_not_isLegible hillegible⟩

end Filter

end DocScan
