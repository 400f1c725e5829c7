import DocScan.Proofs.CloseMatches
import DocScan.Proofs.WireGrammar

/-!
# How operators are spelt

Operators are recognized in letters of either case.  So two wire forms that differ
only in the case of operators give the same filter, or fail the same check at the
same node.  The suggestions for an operator that is not known are made for the name
as it is spelt, though.  They stay the same while the letters that operators have
are spelt alike, and there are none for a name in capitals.
-/

namespace DocScan

/-- Two texts differ at most in the case of ASCII letters. -/
def SameLetters (s t : String) : Prop :=
  s.toList.map Char.toLower = t.toList.map Char.toLower

instance (s t : String) : Decidable (SameLetters s t) :=
  inferInstanceAs (Decidable (s.toList.map Char.toLower = t.toList.map Char.toLower))

mutual

/-- Two values differ at most in the case of texts under `op`, at any depth.  What
stands under `val` is there to be compared with and names no operators. -/
inductive Value.Respelt : Value → Value → Prop where
  | same (v : Value) : Respelt v v
  | list {xs ys : List Value} (h : List.Forall₂ Value.Respelt xs ys) :
      Respelt (.list xs) (.list ys)
  | tuple {xs ys : List Value} (h : List.Forall₂ Value.Respelt xs ys) :
      Respelt (.tuple xs) (.tuple ys)
  | dict {es fs : List (Value × Value)} (h : List.Forall₂ Value.RespeltEntry es fs) :
      Respelt (.dict es) (.dict fs)

inductive Value.RespeltEntry : Value × Value → Value × Value → Prop where
  | same (entry : Value × Value) : RespeltEntry entry entry
  | operator {s t : String} (h : SameLetters s t) :
      RespeltEntry (.text "op", .text s) (.text "op", .text t)
  | inside {key v w : Value} (hkey : key ≠ .text "val") (h : Value.Respelt v w) :
      RespeltEntry (key, v) (key, w)

end

/-- The same fault of values that differ at most in how operators are spelt. -/
inductive WireFault.Respelt : WireFault → WireFault → Prop where
  | notDictionary {v w : Value} (h : v.Respelt w) : Respelt (.notDictionary v) (.notDictionary w)
  | missingOperator : Respelt .missingOperator .missingOperator
  | unknownOperator {s t : String} (h : SameLetters s t) :
      Respelt (.unknownOperator s) (.unknownOperator t)
  | missingAttribute {v w : Value} (h : v.Respelt w) :
      Respelt (.missingAttribute v) (.missingAttribute w)
  | missingConditions (c : Connective) : Respelt (.missingConditions c) (.missingConditions c)
  | notOneCondition : Respelt .notOneCondition .notOneCondition
  | tooFewConditions (c : Connective) : Respelt (.tooFewConditions c) (.tooFewConditions c)

/-- The same fault at the same node. -/
structure WireError.Respelt (e e' : WireError) : Prop where
  address : e.address = e'.address
  fault : e.fault.Respelt e'.fault

theorem SameLetters.refl (s : String) : SameLetters s s := rfl

theorem SameLetters.eq_empty_iff {s t : String} (h : SameLetters s t) : s = "" ↔ t = "" := by
  have hlength : s.toList.length = t.toList.length := by
    simpa using congrArg List.length h
  rw [← String.toList_eq_nil_iff, ← List.length_eq_zero_iff, hlength, List.length_eq_zero_iff,
    String.toList_eq_nil_iff]

theorem SameLetters.ofAnyCase?_eq {s t : String} (h : SameLetters s t) :
    Operator.ofAnyCase? s = Operator.ofAnyCase? t := by
  unfold SameLetters at h
  rw [Operator.ofAnyCase?, h, Operator.ofAnyCase?]

theorem WireFault.Respelt.refl (fault : WireFault) : fault.Respelt fault := by
  cases fault with
  | notDictionary v => exact .notDictionary (.same v)
  | missingOperator => exact .missingOperator
  | unknownOperator name => exact .unknownOperator (.refl name)
  | missingAttribute v => exact .missingAttribute (.same v)
  | missingConditions c => exact .missingConditions c
  | notOneCondition => exact .notOneCondition
  | tooFewConditions c => exact .tooFewConditions c

namespace Value

mutual

theorem integers_respelt (v w : Value) (h : v.Respelt w) : v.integers = w.integers := by
  match v, w, h with
  | _, _, .same _ => rfl
  | .list xs, .list ys, .list hitems => exact integersOfItems_respelt xs ys hitems
  | .tuple xs, .tuple ys, .tuple hitems => exact integersOfItems_respelt xs ys hitems
  | .dict es, .dict fs, .dict hentries => exact integersOfEntries_respelt es fs hentries

theorem integersOfItems_respelt (xs ys : List Value) (h : List.Forall₂ Value.Respelt xs ys) :
    integersOfItems xs = integersOfItems ys := by
  match xs, ys, h with
  | [], [], .nil => rfl
  | x :: xs, y :: ys, .cons hitem hrest =>
    rw [integersOfItems, integersOfItems, integers_respelt x y hitem,
      integersOfItems_respelt xs ys hrest]

theorem integersOfEntries_respelt (es fs : List (Value × Value))
    (h : List.Forall₂ Value.RespeltEntry es fs) :
    integersOfEntries es = integersOfEntries fs := by
  match es, fs, h with
  | [], [], .nil => rfl
  | (key, value) :: es, (key', value') :: fs, .cons hentry hrest =>
    rw [integersOfEntries, integersOfEntries, integersOfEntries_respelt es fs hrest]
    cases hentry with
    | same => rfl
    | operator => rfl
    | inside _ hinside => rw [integers_respelt value value' hinside]

end

end Value

/-! ## What the checks of a node find -/

namespace Value

variable {es fs : List (Value × Value)} {name : String}

/-- How two values under the same key can differ. -/
def RespeltUnder (name : String) (v w : Value) : Prop :=
  v = w ∨ (name = "op" ∧ ∃ s t, v = .text s ∧ w = .text t ∧ SameLetters s t) ∨
    (name ≠ "val" ∧ v.Respelt w)

theorem RespeltEntry.key_eq {e f : Value × Value} (h : RespeltEntry e f) : e.1 = f.1 := by
  cases h <;> rfl

theorem RespeltEntry.under {e f : Value × Value} (h : RespeltEntry e f) (hkey : e.1 = .text name) :
    RespeltUnder name e.2 f.2 := by
  cases h with
  | same => exact .inl rfl
  | operator hletters =>
    cases hkey
    exact .inr (.inl ⟨rfl, _, _, rfl, rfl, hletters⟩)
  | inside hval hinside =>
    refine .inr (.inr ⟨?_, hinside⟩)
    rintro rfl
    exact hval hkey

/-- Under every key both dictionaries have nothing, or a value and its respelling. -/
theorem lookup?_respelt (h : List.Forall₂ RespeltEntry es fs) (name : String) :
    Option.Rel (RespeltUnder name) (lookup? name es) (lookup? name fs) := by
  unfold lookup?
  induction h with
  | nil => exact .none
  | @cons e f es fs hentry _ ih =>
    by_cases hname : e.1 = .text name
    · have hname' : f.1 = .text name := hentry.key_eq ▸ hname
      simpa [hname, hname'] using Option.Rel.some (hentry.under hname)
    · have hname' : ¬ f.1 = .text name := hentry.key_eq ▸ hname
      simpa [hname, hname'] using ih

theorem lookup?_val_respelt (h : List.Forall₂ RespeltEntry es fs) :
    lookup? "val" es = lookup? "val" fs := by
  have hlookup := lookup?_respelt h "val"
  generalize lookup? "val" es = x, lookup? "val" fs = y at hlookup ⊢
  cases hlookup with
  | none => rfl
  | some hunder => simpa [RespeltUnder] using hunder

/-- Under a key other than `op` both dictionaries have nothing, or a value and its respelling. -/
theorem lookup?_inside_respelt (h : List.Forall₂ RespeltEntry es fs) (name : String)
    (hname : name ≠ "op") :
    Option.Rel Respelt (lookup? name es) (lookup? name fs) := by
  have hlookup := lookup?_respelt h name
  generalize lookup? name es = x, lookup? name fs = y at hlookup ⊢
  cases hlookup with
  | none => exact .none
  | some hunder =>
    rcases hunder with rfl | ⟨hop, -⟩ | ⟨-, hinside⟩
    · exact .some (.same _)
    · exact absurd hop hname
    · exact .some hinside

end Value

namespace Filter

open Value (Respelt RespeltEntry)

variable {es fs : List (Value × Value)} {xs ys : List Value} {address : Address}

theorem nonemptyText?_op_respelt (h : List.Forall₂ RespeltEntry es fs) :
    Option.Rel SameLetters (nonemptyText? "op" es) (nonemptyText? "op" fs) := by
  have hrefl (x : Option String) : Option.Rel SameLetters x x := by
    cases x with
    | none => exact .none
    | some s => exact .some (.refl s)
  have hlookup := Value.lookup?_respelt h "op"
  unfold nonemptyText?
  generalize Value.lookup? "op" es = x, Value.lookup? "op" fs = y at hlookup ⊢
  cases hlookup with
  | none => exact .none
  | some hunder =>
    rcases hunder with rfl | ⟨-, s, t, rfl, rfl, hletters⟩ | ⟨-, hinside⟩
    · exact hrefl _
    · by_cases hempty : s = ""
      · have hempty' : t = "" := hletters.eq_empty_iff.mp hempty
        simp only [hempty, hempty', if_true]
        exact .none
      · have hempty' : ¬ t = "" := fun ht => hempty (hletters.eq_empty_iff.mpr ht)
        simp only [hempty, hempty', if_false]
        exact .some hletters
    · cases hinside with
      | same v => exact hrefl _
      | list => exact .none
      | tuple => exact .none
      | dict => exact .none

theorem nonemptyText?_attr_respelt (h : List.Forall₂ RespeltEntry es fs) :
    nonemptyText? "attr" es = nonemptyText? "attr" fs := by
  have hlookup := Value.lookup?_inside_respelt h "attr" (by decide)
  unfold nonemptyText?
  generalize Value.lookup? "attr" es = x, Value.lookup? "attr" fs = y at hlookup ⊢
  cases hlookup with
  | none => rfl
  | some hinside => cases hinside <;> rfl

theorem conditions?_respelt (h : List.Forall₂ RespeltEntry es fs) :
    Option.Rel (List.Forall₂ Respelt) (conditions? es) (conditions? fs) := by
  have hlist := Value.lookup?_inside_respelt h "conditions" (by decide)
  have hlone := Value.lookup?_inside_respelt h "condition" (by decide)
  unfold conditions?
  generalize Value.lookup? "conditions" es = x, Value.lookup? "conditions" fs = y at hlist ⊢
  generalize Value.lookup? "condition" es = x', Value.lookup? "condition" fs = y' at hlone ⊢
  have hsingle : Option.Rel (List.Forall₂ Respelt) (x'.map fun value => [value])
      (y'.map fun value => [value]) := by
    cases hlone with
    | none => exact .none
    | some hinside => exact .some (.cons hinside .nil)
  cases hlist with
  | none => exact hsingle
  | @some v w hinside =>
    cases hinside with
    | same =>
      cases v with
      | null => exact hsingle
      | list items => exact .some (List.forall₂_same.mpr fun item _ => .same item)
      | _ => exact .none
    | list hitems => exact .some hitems
    | tuple => exact .none
    | dict => exact .none

/-! ## Two readings -/

/-- The same result, or failures for the same fault at the same node. -/
inductive ReadAlike {α : Type} : Except WireError α → Except WireError α → Prop where
  | read (a : α) : ReadAlike (.ok a) (.ok a)
  | refused {e e' : WireError} (h : e.Respelt e') : ReadAlike (.error e) (.error e')

namespace ReadAlike

variable {α β : Type} {x y : Except WireError α}

theorem refl (x : Except WireError α) : ReadAlike x x := by
  cases x with
  | ok a => exact .read a
  | error e => exact .refused ⟨rfl, .refl e.fault⟩

theorem bind {f g : α → Except WireError β} (h : ReadAlike x y)
    (hfg : ∀ a, ReadAlike (f a) (g a)) : ReadAlike (x >>= f) (y >>= g) := by
  cases h with
  | read a => exact hfg a
  | refused hrefused => exact .refused hrefused

end ReadAlike

theorem ofWireItems_respelt (h : List.Forall₂ Respelt xs ys)
    (hread : ∀ x ∈ xs, ∀ y, x.Respelt y → ∀ place, ReadAlike (ofWire place x) (ofWire place y))
    (address : Address) (index : ℕ) :
    ReadAlike (ofWireItems address index xs) (ofWireItems address index ys) := by
  induction h generalizing index with
  | nil => exact .refl _
  | @cons x y xs ys hitem _ ih =>
    rw [List.forall_mem_cons] at hread
    rw [ofWireItems, ofWireItems]
    refine .bind (hread.1 y hitem _) fun head => ?_
    exact .bind (ih hread.2 (index + 1)) fun tail => .refl _

/-- A connective that has no conditions, or an empty list of them, is refused. -/
theorem ofWire_of_conditions?_nil {name : String} {c : Connective}
    (hname : nonemptyText? "op" es = some name)
    (hop : Operator.ofAnyCase? name = some (.connective c))
    (h : ∀ items, conditions? es = some items → items = []) :
    ofWire address (.dict es) = .error ⟨.missingConditions c, address⟩ := by
  apply ofWire_unconditioned (nonemptyText?_eq_some_iff.mp hname)
    (Operator.ofAnyCase?_eq_some_iff.mp hop)
  intro items hitems
  exact h items (conditions?_eq_some_iff.mpr hitems)

/-- Two nodes are read alike if their conditions are. -/
theorem ofWire_dict_respelt (h : List.Forall₂ RespeltEntry es fs)
    (hread : ∀ items, conditions? es = some items → ∀ x ∈ items, ∀ y, x.Respelt y →
      ∀ place, ReadAlike (ofWire place x) (ofWire place y)) (address : Address) :
    ReadAlike (ofWire address (.dict es)) (ofWire address (.dict fs)) := by
  have hnames := nonemptyText?_op_respelt h
  generalize hs : nonemptyText? "op" es = x, ht : nonemptyText? "op" fs = y at hnames
  cases hnames with
  | none =>
    rw [ofWire, ofWire, hs, ht]
    exact .refused ⟨rfl, .missingOperator⟩
  | @some s t hletters =>
    cases hop : Operator.ofAnyCase? s with
    | none =>
      rw [ofWire, ofWire, hs, ht]
      simp only [← hletters.ofAnyCase?_eq, hop]
      exact .refused ⟨rfl, .unknownOperator hletters⟩
    | some op =>
      have hop' : Operator.ofAnyCase? t = some op := hletters.ofAnyCase?_eq ▸ hop
      cases op with
      | leaf op =>
        rw [ofWire_leaf hs hop, ofWire_leaf ht hop', nonemptyText?_attr_respelt h,
          Value.lookup?_val_respelt h]
        cases nonemptyText? "attr" fs with
        | none => exact .refused ⟨rfl, .missingAttribute (.dict h)⟩
        | some field => exact .read _
      | connective c =>
        have hconditions := conditions?_respelt h
        generalize hes : conditions? es = items, hfs : conditions? fs = items' at hconditions
        cases hconditions with
        | none =>
          rw [ofWire_of_conditions?_nil hs hop (by simp [hes]),
            ofWire_of_conditions?_nil ht hop' (by simp [hfs])]
          exact .refl _
        | some hitems =>
          cases hitems with
          | nil =>
            rw [ofWire_of_conditions?_nil hs hop (by simp [hes]),
              ofWire_of_conditions?_nil ht hop' (by simp [hfs])]
            exact .refl _
          | cons hfirst hrest =>
            have hall := List.forall_mem_cons.mp (hread _ hes)
            rw [ofWire_connective hs hop hes, ofWire_connective ht hop' hfs]
            refine .bind (hall.1 _ hfirst _) fun head => ?_
            exact .bind (ofWireItems_respelt hrest hall.2 address 1) fun tail => .refl _

theorem ofWire_respelt_of_not_dict {v w : Value} (h : v.Respelt w)
    (hv : ∀ entries, v ≠ .dict entries) (hw : ∀ entries, w ≠ .dict entries) (address : Address) :
    ReadAlike (ofWire address v) (ofWire address w) := by
  rw [ofWire_of_firstFault (.notDictionary hv), ofWire_of_firstFault (.notDictionary hw)]
  exact .refused ⟨rfl, .notDictionary h⟩

theorem ofWire_respelt {d d' : Value} (h : d.Respelt d') (address : Address) :
    ReadAlike (ofWire address d) (ofWire address d') := by
  induction hsize : sizeOf d using Nat.strong_induction_on generalizing d d' address with
  | h size ih =>
    cases h with
    | same => exact .refl _
    | list hitems => exact ofWire_respelt_of_not_dict (.list hitems) (by simp) (by simp) address
    | tuple hitems => exact ofWire_respelt_of_not_dict (.tuple hitems) (by simp) (by simp) address
    | @dict es fs hentries =>
      apply ofWire_dict_respelt hentries
      intro items hitems x hx y hxy place
      have hlt := sizeOf_condition_lt (conditions?_eq_some_iff.mp hitems) hx
      exact ih _ (hsize ▸ hlt) hxy place rfl

end Filter

/-! ## What is reported -/

/-- Some operator has the character in its name. -/
def Operator.Uses (c : Char) : Prop := ∃ op ∈ Operator.all, c ∈ op.text.toList

instance : DecidablePred Operator.Uses := fun c =>
  inferInstanceAs (Decidable (∃ op ∈ Operator.all, c ∈ op.text.toList))

theorem Operator.uses_of_mem {text : String} (htext : text ∈ Operator.all.map Operator.text)
    {c : Char} (hc : c ∈ text.toList) : Operator.Uses c := by
  obtain ⟨op, hop, rfl⟩ := List.mem_map.mp htext
  exact ⟨op, hop, hc⟩

namespace WireError

variable {e e' : WireError}

/-- No character of the operator at fault, if there is one, is used by an operator. -/
def LacksLetters (e : WireError) : Prop :=
  ∀ name ∈ e.operator?, ∀ c ∈ name.toList, ¬ Operator.Uses c

/-- Two failures for the same fault of the same node, both refused as not supported, both
as malformed, or neither refused.  The same operators are suggested if the characters
that operators use are the same in both names, and none are suggested for a name without
such a character. -/
structure ReportedAlike (e e' : WireError) : Prop where
  same : e.Respelt e'
  unsupported : (∃ name, e.refusal? = some (.unsupported name)) ↔
    ∃ name, e'.refusal? = some (.unsupported name)
  unrefused : e.refusal? = none ↔ e'.refusal? = none
  suggestions : (∀ name ∈ e.operator?, ∀ name' ∈ e'.operator?,
    Similarity.SameOver Operator.Uses name.toList name'.toList) → e.suggestions = e'.suggestions
  silent : e.LacksLetters → e.suggestions = []
  silent' : e'.LacksLetters → e'.suggestions = []

theorem suggestions_eq_nil (h : e.LacksLetters) : e.suggestions = [] := by
  unfold WireError.suggestions DocScan.suggestions
  cases hname : e.operator? with
  | none => rfl
  | some name =>
    apply Similarity.closeMatches_eq_nil
    · intro text htext
      obtain ⟨op, -, rfl⟩ := List.mem_map.mp htext
      exact op.text_ne_empty
    · intro text htext c hc hword
      exact h name hname c hword (Operator.uses_of_mem htext hc)

theorem Respelt.isLegible_iff (h : e.Respelt e') : e.IsLegible ↔ e'.IsLegible := by
  have hfault := h.fault
  unfold IsLegible
  generalize e.fault = fault, e'.fault = fault' at hfault ⊢
  cases hfault with
  | @missingAttribute v w hinside =>
    simp [Value.IsLegible, Value.integers_respelt v w hinside]
  | _ => simp

theorem Respelt.reportedAlike (h : e.Respelt e') : e.ReportedAlike e' := by
  refine ⟨h, ?_, ?_, ?_, suggestions_eq_nil, suggestions_eq_nil⟩
  · have hfault := h.fault
    unfold refusal?
    generalize e.fault = fault, e'.fault = fault' at hfault ⊢
    cases hfault <;> simp
  · rw [refusal?_eq_none_iff, refusal?_eq_none_iff, h.isLegible_iff]
  · intro hnames
    have hfault := h.fault
    unfold WireError.suggestions operator? at *
    generalize e.fault = fault, e'.fault = fault' at hfault hnames ⊢
    cases hfault with
    | @unknownOperator s t =>
      exact Similarity.closeMatches_eq (fun _ htext _ => Operator.uses_of_mem htext)
        (hnames s rfl t rfl)
    | _ => rfl

end WireError

namespace Filter

/-- Wire forms that differ at most in how operators are spelt are read as the same filter,
or fail in the same way at the same node, up to the suggestions for an operator
whose letters are spelt in another case. -/
theorem ofWire_ignores_case {d d' : Value} (h : d.Respelt d') (address : Address) :
    (∃ f, ofWire address d = .ok f ∧ ofWire address d' = .ok f) ∨
      ∃ e e', ofWire address d = .error e ∧ ofWire address d' = .error e' ∧
        e.ReportedAlike e' := by
  have hread := ofWire_respelt h address
  generalize ofWire address d = x, ofWire address d' = y at hread ⊢
  cases hread with
  | read f => exact .inl ⟨f, rfl, rfl⟩
  | refused hrefused => exact .inr ⟨_, _, rfl, rfl, hrefused.reportedAlike⟩

/-- A conjunction of a check of `a` and a comparison with `b`. -/
def conjunctionSpelt (connective check comparison : String) : Value :=
  .dict [wireEntry "op" (.text connective),
    wireEntry "conditions" (.list [wireCheck check "a", wireLeaf comparison "b" (.int 1)])]

theorem respelt_conjunctionSpelt
    {connective connective' check check' comparison comparison' : String}
    (hconnective : SameLetters connective connective') (hcheck : SameLetters check check')
    (hcomparison : SameLetters comparison comparison') :
    (conjunctionSpelt connective check comparison).Respelt
      (conjunctionSpelt connective' check' comparison') := by
  have hfirst : (wireCheck check "a").Respelt (wireCheck check' "a") :=
    .dict (.cons (.operator hcheck) (.cons (.same _) .nil))
  have hsecond : (wireLeaf comparison "b" (.int 1)).Respelt (wireLeaf comparison' "b" (.int 1)) :=
    .dict (.cons (.operator hcomparison) (.cons (.same _) (.cons (.same _) .nil)))
  have hitems := Value.Respelt.list (.cons hfirst (.cons hsecond .nil))
  exact .dict (.cons (.operator hconnective) (.cons (.inside (by decide) hitems) .nil))

/-- The comparison is not known in either spelling, which differ in a letter that no
operator has. -/
theorem ofWire_ignores_case_below_conjunction :
    let d := conjunctionSpelt "AND" "Is_Null" "xor"
    let d' := conjunctionSpelt "And" "is_null" "Xor"
    let e : WireError := ⟨.unknownOperator "xor", ⟨"<root>", [1]⟩⟩
    let e' : WireError := ⟨.unknownOperator "Xor", ⟨"<root>", [1]⟩⟩
    d.Respelt d' ∧ ofWire Address.whole d = .error e ∧ ofWire Address.whole d' = .error e' ∧
      e.suggestions = ["or"] ∧ e'.suggestions = ["or"] ∧
      ((∃ f, ofWire Address.whole d = .ok f ∧ ofWire Address.whole d' = .ok f) ∨
        ∃ e e', ofWire Address.whole d = .error e ∧ ofWire Address.whole d' = .error e' ∧
          e.ReportedAlike e') := by
  intro d d' e e'
  have hrespelt : d.Respelt d' :=
    respelt_conjunctionSpelt (by decide) (by decide) (by decide)
  refine ⟨hrespelt, ?read, ?read', ?suggestions, ?suggestions', ofWire_ignores_case hrespelt _⟩
  case read => decide +kernel
  case read' => decide +kernel
  case suggestions => decide +kernel
  case suggestions' => decide +kernel

/-- The suggestions do depend on how an operator is spelt: in capitals the name of a
test lacks all letters that the test has. -/
theorem suggestions_depend_on_case :
    ¬ ∀ (d d' : Value) (address : Address), d.Respelt d' →
      (∃ f, ofWire address d = .ok f ∧ ofWire address d' = .ok f) ∨
        ∃ e e', ofWire address d = .error e ∧ ofWire address d' = .error e' ∧
          e.suggestions = e'.suggestions := by
  intro hall
  have hlower : ofWire Address.whole (wireLeaf "startwith" "a" (.text "x")) =
      .error ⟨.unknownOperator "startwith", Address.whole⟩ := by decide +kernel
  have hupper : ofWire Address.whole (wireLeaf "STARTWITH" "a" (.text "x")) =
      .error ⟨.unknownOperator "STARTWITH", Address.whole⟩ := by decide +kernel
  have hrespelt : (wireLeaf "startwith" "a" (.text "x")).Respelt
      (wireLeaf "STARTWITH" "a" (.text "x")) :=
    .dict (.cons (.operator (by decide)) (.cons (.same _) (.cons (.same _) .nil)))
  obtain ⟨f, hf, -⟩ | ⟨e, e', he, he', hsame⟩ := hall _ _ Address.whole hrespelt
  · rw [hlower] at hf
    contradiction
  · rw [hlower] at he
    rw [hupper] at he'
    cases he
    cases he'
    revert hsame
    decide +kernel

end Filter

end DocScan
