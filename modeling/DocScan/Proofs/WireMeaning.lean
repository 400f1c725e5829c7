import DocScan.Proofs.WireGrammar

/-!
# What a wire form says

A wire form says something before any tree is built from it.  Its leaf
dictionaries state conditions, numbered from left to right, and each connective
combines the truth values of all its conditions at once.  Reading makes a tree
whose connectives are binary.  It keeps the conditions in their order, and it
keeps what they come to, whatever truth values they are given.
-/

namespace DocScan

/-! ## What stands in the dictionaries -/

/-- The value that a leaf dictionary gives, which is null if it gives none. -/
inductive HasValue (entries : List (Value × Value)) : Value → Prop where
  | given {value : Value} (h : Value.lookup? "val" entries = some value) :
      HasValue entries value
  | missing (h : Value.lookup? "val" entries = none) : HasValue entries .null

/-- The members that a value gives: the items of a list or tuple, or itself. -/
inductive HasMembers : Value → List Value → Prop where
  | list (items : List Value) : HasMembers (.list items) items
  | tuple (items : List Value) : HasMembers (.tuple items) items
  | lone {value : Value} (hlist : ∀ items, value ≠ .list items)
      (htuple : ∀ items, value ≠ .tuple items) : HasMembers value [value]

/-- The condition that a leaf dictionary states about a field. -/
inductive LeafOperator.States (entries : List (Value × Value)) (field : String) :
    LeafOperator → Filter → Prop where
  | test {t : Test} {value : Value} (hvalue : HasValue entries value) :
      States entries field (.test t) (.test t field value)
  | member {value : Value} {members : List Value} (hvalue : HasValue entries value)
      (hmembers : HasMembers value members) : States entries field .member (.member field members)
  | isNull : States entries field .isNull (.isNull field)
  | isNotNull : States entries field .isNotNull (.isNotNull field)

/-- What a connective makes of the truth values of all its conditions. -/
inductive Connective.Combines : Connective → List Bool → Bool → Prop where
  | and (values : List Bool) : Combines .and values (values.all id)
  | or (values : List Bool) : Combines .or values (values.any id)
  | not (value : Bool) : Combines .not [value] (!value)

mutual

/-- A wire form states conditions, numbered from some number on, and comes to a
truth value when each condition has the truth value of its number. -/
inductive Value.Says (truth : ℕ → Bool) : ℕ → Value → List Filter → Bool → Prop where
  | leaf {n : ℕ} {entries : List (Value × Value)} {op : LeafOperator} {name field : String}
      {condition : Filter} (hname : HasText entries "op" name)
      (hop : (Operator.leaf op).NamedBy name) (hfield : HasText entries "attr" field)
      (hcondition : op.States entries field condition) :
      Says truth n (.dict entries) [condition] (truth n)
  | connective {n : ℕ} {entries : List (Value × Value)} {c : Connective} {name : String}
      {items : List Value} {conditions : List Filter} {values : List Bool} {value : Bool}
      (hname : HasText entries "op" name) (hop : (Operator.connective c).NamedBy name)
      (hitems : HasConditions entries items) (heach : SaysEach truth n items conditions values)
      (hvalue : c.Combines values value) : Says truth n (.dict entries) conditions value

/-- Wire forms one after the other, whose conditions are numbered on. -/
inductive Value.SaysEach (truth : ℕ → Bool) :
    ℕ → List Value → List Filter → List Bool → Prop where
  | nil (n : ℕ) : SaysEach truth n [] [] []
  | cons {n : ℕ} {item : Value} {rest : List Value} {conditions others : List Filter}
      {value : Bool} {values : List Bool} (hitem : Says truth n item conditions value)
      (hrest : SaysEach truth (n + conditions.length) rest others values) :
      SaysEach truth n (item :: rest) (conditions ++ others) (value :: values)

end

/-! ## What a tree says -/

namespace Filter

/-- The leaves of a filter from left to right. -/
def conditions : Filter → List Filter
  | .and left right | .or left right => left.conditions ++ right.conditions
  | .not child => child.conditions
  | leaf => [leaf]

/-- What a filter comes to when its leaves, numbered from some number on, have
given truth values. -/
def truthFrom (truth : ℕ → Bool) : ℕ → Filter → Bool
  | n, .and left right =>
    left.truthFrom truth n && right.truthFrom truth (n + left.conditions.length)
  | n, .or left right =>
    left.truthFrom truth n || right.truthFrom truth (n + left.conditions.length)
  | n, .not child => !child.truthFrom truth n
  | n, _ => truth n

/-- What several filters come to, whose leaves are numbered on. -/
def truthsFrom (truth : ℕ → Bool) : ℕ → List Filter → List Bool
  | _, [] => []
  | n, f :: rest => f.truthFrom truth n :: truthsFrom truth (n + f.conditions.length) rest

variable {address : Address} {c : Connective}

/-! ### Joining -/

/-- A fold of binary nodes from the left keeps the leaves of its parts, and comes
to what their truth values come to at once, if one step of the fold may be taken
on truth values as well. -/
theorem foldl_says (truth : ℕ → Bool) (n : ℕ) (combine : Filter → Filter → Filter)
    {op : Bool → Bool → Bool} (total : List Bool → Bool)
    (hconditions : ∀ l r, (combine l r).conditions = l.conditions ++ r.conditions)
    (htruth : ∀ l r n, (combine l r).truthFrom truth n =
      op (l.truthFrom truth n) (r.truthFrom truth (n + l.conditions.length)))
    (hone : ∀ b, total [b] = b)
    (hstep : ∀ a b rest, total (op a b :: rest) = total (a :: b :: rest))
    (rest : List Filter) (first : Filter) :
    (rest.foldl combine first).conditions = (first :: rest).flatMap conditions ∧
      (rest.foldl combine first).truthFrom truth n =
        total (truthsFrom truth n (first :: rest)) := by
  -- The fold carries the node built so far, so `first` is generalized.
  induction rest generalizing first with
  | nil =>
    rw [truthsFrom, truthsFrom, hone]
    exact ⟨by simp, rfl⟩
  | cons f rest ih =>
    obtain ⟨hleaves, hvalue⟩ := ih (combine first f)
    rw [List.foldl_cons]
    constructor
    · rw [hleaves, List.flatMap_cons, hconditions]
      simp
    · rw [hvalue, truthsFrom, htruth, hstep, hconditions, List.length_append, ← Nat.add_assoc]
      rfl

/-- A connective that can be joined keeps the conditions of its parts and
combines what they come to. -/
theorem join_says (truth : ℕ → Bool) (n : ℕ) {first f : Filter} {rest : List Filter}
    (h : join c address first rest = .ok f) :
    f.conditions = (first :: rest).flatMap conditions ∧
      c.Combines (truthsFrom truth n (first :: rest)) (f.truthFrom truth n) := by
  cases c with
  | not =>
    cases rest with
    | nil =>
      cases h
      simpa [conditions, truthsFrom, truthFrom] using Connective.Combines.not _
    | cons second others => contradiction
  | and =>
    cases rest with
    | nil => contradiction
    | cons second others =>
      cases h
      obtain ⟨hconditions, htruth⟩ := foldl_says truth n .and (fun values => values.all id)
        (fun _ _ => rfl) (fun _ _ _ => rfl) (by simp) (by simp [Bool.and_assoc])
        (second :: others) first
      rw [htruth]
      exact ⟨hconditions, .and _⟩
  | or =>
    cases rest with
    | nil => contradiction
    | cons second others =>
      cases h
      obtain ⟨hconditions, htruth⟩ := foldl_says truth n .or (fun values => values.any id)
        (fun _ _ => rfl) (fun _ _ _ => rfl) (by simp) (by simp [Bool.or_assoc])
        (second :: others) first
      rw [htruth]
      exact ⟨hconditions, .or _⟩

end Filter

/-! ## One dictionary at a time -/

section Dictionaries

variable {entries : List (Value × Value)} {name field : String} {op : LeafOperator}
  {c : Connective} {items : List Value} {conditions : List Filter} {truth : ℕ → Bool} {n : ℕ}
  {value : Bool}

theorem HasText.unique {key text other : String} (h : HasText entries key text)
    (hother : HasText entries key other) : text = other := by
  have hsame := h.1.symm.trans hother.1
  cases hsame
  rfl

theorem Operator.NamedBy.unique {op other : Operator} (h : op.NamedBy name)
    (hother : other.NamedBy name) : op = other := by
  rw [← Operator.ofAnyCase?_eq_some_iff] at h hother
  exact Option.some.inj (h.symm.trans hother)

theorem HasConditions.unique {others : List Value} (h : HasConditions entries items)
    (hothers : HasConditions entries others) : items = others := by
  rw [← Filter.conditions?_eq_some_iff] at h hothers
  exact Option.some.inj (h.symm.trans hothers)

theorem Connective.Combines.unique {values : List Bool} {other : Bool}
    (h : c.Combines values value) (hother : c.Combines values other) : value = other := by
  cases h <;> cases hother <;> rfl

theorem hasValue_iff {v : Value} :
    HasValue entries v ↔ v = (Value.lookup? "val" entries).getD .null := by
  constructor
  · rintro (h | h) <;> rw [h] <;> rfl
  · rintro rfl
    cases h : Value.lookup? "val" entries with
    | none => exact .missing h
    | some v => exact .given h

theorem hasMembers_iff {v : Value} {members : List Value} :
    HasMembers v members ↔ members = v.items?.getD [v] := by
  constructor
  · rintro (_ | _ | ⟨hlist, htuple⟩)
    · rfl
    · rfl
    · cases v with
      | list items => exact absurd rfl (hlist items)
      | tuple items => exact absurd rfl (htuple items)
      | _ => rfl
  · rintro rfl
    cases v with
    | list items => exact .list items
    | tuple items => exact .tuple items
    | _ => exact .lone nofun nofun

theorem states_iff {condition : Filter} :
    op.States entries field condition ↔
      condition = Filter.leaf op field ((Value.lookup? "val" entries).getD .null) := by
  constructor
  · rintro (hvalue | ⟨hvalue, hmembers⟩ | _ | _)
    · rw [hasValue_iff.mp hvalue]
      rfl
    · rw [hasMembers_iff.mp hmembers, hasValue_iff.mp hvalue]
      rfl
    · rfl
    · rfl
  · rintro rfl
    cases op with
    | test t => exact .test (hasValue_iff.mpr rfl)
    | member => exact .member (hasValue_iff.mpr rfl) (hasMembers_iff.mpr rfl)
    | isNull => exact .isNull
    | isNotNull => exact .isNotNull

theorem says_leaf_iff (hname : HasText entries "op" name)
    (hop : (Operator.leaf op).NamedBy name) (hfield : HasText entries "attr" field) :
    Value.Says truth n (.dict entries) conditions value ↔
      (∃ condition, op.States entries field condition ∧ conditions = [condition]) ∧
        value = truth n := by
  constructor
  · intro h
    cases h with
    | leaf hname' hop' hfield' hcondition =>
      cases hname.unique hname'
      cases hop.unique hop'
      cases hfield.unique hfield'
      exact ⟨⟨_, hcondition, rfl⟩, rfl⟩
    | connective hname' hop' =>
      cases hname.unique hname'
      have hsame := hop.unique hop'
      contradiction
  · rintro ⟨⟨condition, hcondition, rfl⟩, rfl⟩
    exact .leaf hname hop hfield hcondition

theorem says_connective_iff (hname : HasText entries "op" name)
    (hop : (Operator.connective c).NamedBy name) (hitems : HasConditions entries items) :
    Value.Says truth n (.dict entries) conditions value ↔
      ∃ values, Value.SaysEach truth n items conditions values ∧ c.Combines values value := by
  constructor
  · intro h
    cases h with
    | leaf hname' hop' =>
      cases hname.unique hname'
      have hsame := hop.unique hop'
      contradiction
    | connective hname' hop' hitems' heach hvalue =>
      cases hname.unique hname'
      cases hop.unique hop'
      cases hitems.unique hitems'
      exact ⟨_, heach, hvalue⟩
  · rintro ⟨values, heach, hvalue⟩
    exact .connective hname hop hitems heach hvalue

end Dictionaries

/-! ## Whole wire forms -/

namespace Filter

variable {address : Address} {truth : ℕ → Bool}

/-- A value says what the filter read from it says, wherever it is read and from
whatever number its conditions are counted. -/
def Conveyed (truth : ℕ → Bool) (data : Value) : Prop :=
  ∀ address f, ofWire address data = .ok f → ∀ n conditions value,
    data.Says truth n conditions value ↔
      conditions = f.conditions ∧ value = f.truthFrom truth n

theorem saysEach_iff {items : List Value} {fs : List Filter} {index : ℕ}
    (hall : ∀ item ∈ items, Conveyed truth item)
    (h : ofWireItems address index items = .ok fs) (n : ℕ) (conditions : List Filter)
    (values : List Bool) :
    Value.SaysEach truth n items conditions values ↔
      conditions = fs.flatMap Filter.conditions ∧ values = truthsFrom truth n fs := by
  -- The number is generalized: each item counts on from the conditions before it.
  induction items generalizing fs index n conditions values with
  | nil =>
    rw [ofWireItems] at h
    cases h
    constructor
    · rintro ⟨⟩
      exact ⟨rfl, rfl⟩
    · rintro ⟨rfl, rfl⟩
      exact .nil n
  | cons item rest ih =>
    rw [List.forall_mem_cons] at hall
    rw [ofWireItems] at h
    cases hhead : ofWire (address.child index) item with
    | error e =>
      rw [hhead] at h
      contradiction
    | ok head =>
      rw [hhead] at h
      cases htail : ofWireItems address (index + 1) rest with
      | error e =>
        rw [htail] at h
        contradiction
      | ok tail =>
        rw [htail] at h
        cases h
        have hitem := hall.1 _ _ hhead n
        have hrest := ih hall.2 htail (n + head.conditions.length)
        constructor
        · intro heach
          cases heach with
          | cons hsays hlater =>
            obtain ⟨rfl, rfl⟩ := (hitem _ _).mp hsays
            obtain ⟨rfl, rfl⟩ := (hrest _ _).mp hlater
            exact ⟨rfl, rfl⟩
        · rintro ⟨rfl, rfl⟩
          exact .cons ((hitem _ _).mpr ⟨rfl, rfl⟩) ((hrest _ _).mpr ⟨rfl, rfl⟩)

theorem conveyed_leaf {entries : List (Value × Value)} {op : LeafOperator} {name field : String}
    (hname : HasText entries "op" name) (hop : (Operator.leaf op).NamedBy name)
    (hfield : HasText entries "attr" field) : Conveyed truth (.dict entries) := by
  intro address f h n conditions value
  rw [ofWire_leaf (nonemptyText?_eq_some_iff.mpr hname) (Operator.ofAnyCase?_eq_some_iff.mpr hop),
    nonemptyText?_eq_some_iff.mpr hfield] at h
  cases h
  have hconditions : (leaf op field ((Value.lookup? "val" entries).getD .null)).conditions =
      [leaf op field ((Value.lookup? "val" entries).getD .null)] := by
    cases op <;> rfl
  have htruth : (leaf op field ((Value.lookup? "val" entries).getD .null)).truthFrom truth n =
      truth n := by
    cases op <;> rfl
  rw [says_leaf_iff hname hop hfield, hconditions, htruth]
  simp only [states_iff, exists_eq_left]

theorem conveyed_connective {entries : List (Value × Value)} {c : Connective} {name : String}
    {items : List Value} (hname : HasText entries "op" name)
    (hop : (Operator.connective c).NamedBy name) (hitems : HasConditions entries items)
    (hne : items ≠ []) (hall : ∀ item ∈ items, Conveyed truth item) :
    Conveyed truth (.dict entries) := by
  intro address f h n conditions value
  obtain ⟨first, rest, rfl⟩ := List.exists_cons_of_ne_nil hne
  rw [ofWire_connective (nonemptyText?_eq_some_iff.mpr hname)
    (Operator.ofAnyCase?_eq_some_iff.mpr hop) (conditions?_eq_some_iff.mpr hitems)] at h
  -- The first condition is read apart, as the first of all items is.
  have hread : ofWireItems address 0 (first :: rest) = (do
      let head ← ofWire (address.child 0) first
      let tail ← ofWireItems address 1 rest
      return head :: tail) := by
    rw [ofWireItems]
  cases hhead : ofWire (address.child 0) first with
  | error e =>
    rw [hhead] at h
    contradiction
  | ok head =>
    cases htail : ofWireItems address 1 rest with
    | error e =>
      rw [hhead, htail] at h
      contradiction
    | ok tail =>
      rw [hhead, htail] at h hread
      obtain ⟨hconditions, hcombines⟩ := join_says truth n h
      have heach := saysEach_iff hall hread n
      rw [says_connective_iff hname hop hitems, hconditions]
      constructor
      · rintro ⟨values, hsays, hvalue⟩
        obtain ⟨rfl, rfl⟩ := (heach _ _).mp hsays
        exact ⟨rfl, hvalue.unique hcombines⟩
      · rintro ⟨rfl, rfl⟩
        exact ⟨_, (heach _ _).mpr ⟨rfl, rfl⟩, hcombines⟩

theorem conveyed_of_isWireForm {data : Value} (h : data.IsWireForm) : Conveyed truth data := by
  induction h with
  | leaf hname hop hfield => exact conveyed_leaf hname hop hfield
  | @connective entries c name items hname hop hitems hcount _ ih =>
    have hne : items ≠ [] := by
      rintro rfl
      cases c <;> simp [Connective.Takes] at hcount
    exact conveyed_connective hname hop hitems hne ih

/-- What is read from a wire form has its leaf conditions in their order, each
once, and comes to what the wire form comes to under every assignment of truth
values to them, whatever its depth and however many conditions are joined. -/
theorem says_iff_of_ofWire {data : Value} {f : Filter} (h : ofWire address data = .ok f)
    (truth : ℕ → Bool) (conditions : List Filter) (value : Bool) :
    data.Says truth 0 conditions value ↔
      conditions = f.conditions ∧ value = f.truthFrom truth 0 := by
  have hwire : data.IsWireForm := isWireForm_of_ofWire h
  exact conveyed_of_isWireForm hwire address f h 0 conditions value

/-- Five leaves, two of them alike, under a conjunction of three parts, one of
which is a disjunction of three and one a negation of a lone condition. -/
theorem says_iff_of_ofWire_mixed :
    let data : Value := .dict [(.text "op", .text "AND"), (.text "conditions", .list [
      .dict [(.text "conditions", .list [wireLeaf "IN" "a" (.int 1),
        wireLeaf "in" "a" (.tuple [.int 1]), wireLeaf "StartsWith" "b" (.text "x")]),
        (.text "op", .text "Or")],
      .dict [(.text "op", .text "not"), (.text "conditions", .null),
        (.text "condition", wireCheck "Is_Null" "c")],
      wireCheck "<" "d"])]
    let f : Filter := .and (.and
      (.or (.or (.member "a" [.int 1]) (.member "a" [.int 1])) (.test .startsWith "b" (.text "x")))
      (.not (.isNull "c"))) (.test .less "d" .null)
    ofWire .whole data = .ok f ∧
      ∀ (truth : ℕ → Bool) (conditions : List Filter) (value : Bool),
        data.Says truth 0 conditions value ↔
          conditions = [.member "a" [.int 1], .member "a" [.int 1],
            .test .startsWith "b" (.text "x"), .isNull "c", .test .less "d" .null] ∧
          value = (((truth 0 || truth 1) || truth 2) && !truth 3 && truth 4) := by
  intro data f
  have hread : ofWire .whole data = .ok f := by decide +kernel
  exact ⟨hread, fun truth => says_iff_of_ofWire hread truth⟩

end Filter

end DocScan
