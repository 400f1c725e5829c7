import DocScan.Proofs.WireMeaning

/-!
# Normal wire forms

There are many ways to put a filter on the wire, and one in which it is written.
What is written is normal: operators stand there under their own names, members as a
list, two conditions under a conjunction or disjunction and one under a negation, and
nothing else.  Reading a wire form and writing the filter again gives the normal form
that is read alike, so the normal forms are exactly the wire forms that this leaves as
they are.
-/

namespace DocScan

/-- The wire forms in which filters are written. -/
inductive Value.IsNormalForm : Value → Prop where
  | test (t : Test) {field : String} (value : Value) (hfield : field ≠ "") :
      IsNormalForm (.dict [(.text "op", .text t.text), (.text "attr", .text field),
        (.text "val", value)])
  | member {field : String} (members : List Value) (hfield : field ≠ "") :
      IsNormalForm (.dict [(.text "op", .text "in"), (.text "attr", .text field),
        (.text "val", .list members)])
  | isNull {field : String} (hfield : field ≠ "") :
      IsNormalForm (.dict [(.text "op", .text "is_null"), (.text "attr", .text field)])
  | isNotNull {field : String} (hfield : field ≠ "") :
      IsNormalForm (.dict [(.text "op", .text "is_not_null"), (.text "attr", .text field)])
  | and {left right : Value} (hleft : IsNormalForm left) (hright : IsNormalForm right) :
      IsNormalForm (.dict [(.text "op", .text "and"), (.text "conditions", .list [left, right])])
  | or {left right : Value} (hleft : IsNormalForm left) (hright : IsNormalForm right) :
      IsNormalForm (.dict [(.text "op", .text "or"), (.text "conditions", .list [left, right])])
  | not {child : Value} (hchild : IsNormalForm child) :
      IsNormalForm (.dict [(.text "op", .text "not"), (.text "conditions", .list [child])])

namespace Filter

variable {address : Address} {data normal : Value} {f : Filter}

/-! ## Filters that can be written and read -/

theorem map_snd_leaves (f : Filter) (address : Address) :
    (f.leaves address).map Prod.snd = f.conditions := by
  induction f generalizing address with
  | and l r hl hr | or l r hl hr => rw [leaves, List.map_append, hl, hr, conditions]
  | not child ih => rw [leaves, ih, conditions]
  | _ => rfl

theorem complete_iff : f.Complete ↔ f.Basic ∧ ∀ leaf ∈ f.conditions, ¬ leaf.Nameless := by
  have hleaves : ∀ address, (∀ leaf ∈ f.leaves address, ¬ leaf.2.Nameless) ↔
      ∀ leaf ∈ f.conditions, ¬ leaf.Nameless := by
    intro address
    rw [← map_snd_leaves f address, List.forall_mem_map]
  have haddress : Nonempty Address := ⟨.whole⟩
  simp only [Complete, hleaves, forall_const]

theorem complete_of_ofWire (h : ofWire address data = .ok f) : f.Complete := by
  rcases ofWire_of_isWireForm (isWireForm_of_ofWire h) address with ⟨same, hsame, hcomplete⟩
  rw [h] at hsame
  cases hsame
  exact hcomplete

theorem ofWire_of_toWire (hf : f.Complete) (hwire : f.toWire = .ok normal) (address : Address) :
    ofWire address normal = .ok f := by
  rcases readAs_ofWire hf.1 with ⟨wire, hsame, hread⟩
  rw [hwire] at hsame
  cases hsame
  have hnamed : (f.leaves address).find? (fun leaf => leaf.2.Nameless) = none := by
    simpa using hf.2 address
  have hresult := hread address
  rwa [ReadAs, hnamed] at hresult

/-! ## What is written is normal -/

theorem toWire_isNormalForm (hbasic : f.Basic) (hnamed : ∀ leaf ∈ f.conditions, ¬ leaf.Nameless) :
    ∃ wire, f.toWire = .ok wire ∧ wire.IsNormalForm := by
  induction f with
  | test t field value =>
    have hfield : field ≠ "" := by simpa [conditions, Nameless, attribute?] using hnamed
    exact ⟨_, rfl, .test t value hfield⟩
  | member field values =>
    have hfield : field ≠ "" := by simpa [conditions, Nameless, attribute?] using hnamed
    exact ⟨_, rfl, .member values hfield⟩
  | isNull field =>
    have hfield : field ≠ "" := by simpa [conditions, Nameless, attribute?] using hnamed
    exact ⟨_, rfl, .isNull hfield⟩
  | isNotNull field =>
    have hfield : field ≠ "" := by simpa [conditions, Nameless, attribute?] using hnamed
    exact ⟨_, rfl, .isNotNull hfield⟩
  | and l r hl hr =>
    rw [conditions, List.forall_mem_append] at hnamed
    rcases hl hbasic.1 hnamed.1 with ⟨left, hleft, hleftNormal⟩
    rcases hr hbasic.2 hnamed.2 with ⟨right, hright, hrightNormal⟩
    exact ⟨_, by rw [toWire, hleft, hright]; rfl, .and hleftNormal hrightNormal⟩
  | or l r hl hr =>
    rw [conditions, List.forall_mem_append] at hnamed
    rcases hl hbasic.1 hnamed.1 with ⟨left, hleft, hleftNormal⟩
    rcases hr hbasic.2 hnamed.2 with ⟨right, hright, hrightNormal⟩
    exact ⟨_, by rw [toWire, hleft, hright]; rfl, .or hleftNormal hrightNormal⟩
  | not child ih =>
    rcases ih hbasic hnamed with ⟨wire, hwire, hnormal⟩
    exact ⟨_, by rw [toWire, hwire]; rfl, .not hnormal⟩
  | extension | unknown | plain => contradiction

theorem exists_of_isNormalForm (h : normal.IsNormalForm) :
    ∃ f : Filter, f.Complete ∧ f.toWire = .ok normal := by
  induction h with
  | test t value hfield => exact ⟨_, complete_leaf (.test t) value hfield, rfl⟩
  | member members hfield => exact ⟨_, complete_leaf .member (.list members) hfield, rfl⟩
  | isNull hfield => exact ⟨_, complete_leaf .isNull .null hfield, rfl⟩
  | isNotNull hfield => exact ⟨_, complete_leaf .isNotNull .null hfield, rfl⟩
  | and _ _ hl hr =>
    rcases hl with ⟨l, hl, hleft⟩
    rcases hr with ⟨r, hr, hright⟩
    exact ⟨.and l r, complete_and hl hr, by rw [toWire, hleft, hright]; rfl⟩
  | or _ _ hl hr =>
    rcases hl with ⟨l, hl, hleft⟩
    rcases hr with ⟨r, hr, hright⟩
    exact ⟨.or l r, complete_or hl hr, by rw [toWire, hleft, hright]; rfl⟩
  | not _ ih =>
    rcases ih with ⟨child, hchild, hwire⟩
    exact ⟨.not child, complete_not hchild, by rw [toWire, hwire]; rfl⟩

/-! ## Reading and writing again -/

/-- The wire form of the filter that a value is read as. -/
def rewritten? (address : Address) (data : Value) : Option Value :=
  (ofWire address data).toOption.bind fun f => f.toWire.toOption

theorem rewritten?_of_ofWire (h : ofWire address data = .ok f) (hwire : f.toWire = .ok normal) :
    rewritten? address data = some normal := by
  rw [rewritten?, h, Except.toOption, Option.bind_some, hwire, Except.toOption]

theorem rewritten?_isNormalForm (h : rewritten? address data = some normal) :
    normal.IsNormalForm := by
  unfold rewritten? at h
  cases hread : ofWire address data with
  | error e => simp [hread, Except.toOption] at h
  | ok f =>
    have hcomplete := complete_iff.mp (complete_of_ofWire hread)
    rcases toWire_isNormalForm hcomplete.1 hcomplete.2 with ⟨wire, hwire, hnormal⟩
    have hsame : wire = normal := by simpa [hread, hwire, Except.toOption] using h
    exact hsame ▸ hnormal

theorem rewritten?_eq_self_iff :
    rewritten? address data = some data ↔ data.IsNormalForm := by
  constructor
  · exact rewritten?_isNormalForm
  · intro hnormal
    rcases exists_of_isNormalForm hnormal with ⟨f, hcomplete, hwire⟩
    exact rewritten?_of_ofWire (ofWire_of_toWire hcomplete hwire address) hwire

/-- Whatever way of writing a filter is read, the filter is written back in a normal
form, which is read as the same filter and does not change when it is written again. -/
theorem rewritten?_normalizes (h : ofWire address data = .ok f) :
    ∃ normal, rewritten? address data = some normal ∧ f.toWire = .ok normal ∧
      normal.IsNormalForm ∧
      ∀ place, ofWire place normal = .ok f ∧ rewritten? place normal = some normal := by
  have hcomplete : f.Complete := complete_of_ofWire h
  have hparts := complete_iff.mp hcomplete
  rcases toWire_isNormalForm hparts.1 hparts.2 with ⟨normal, hwire, hnormal⟩
  refine ⟨normal, rewritten?_of_ofWire h hwire, hwire, hnormal, fun place => ⟨?_, ?_⟩⟩
  · exact ofWire_of_toWire hcomplete hwire place
  · exact rewritten?_eq_self_iff.mpr hnormal

/-- Operators in mixed case, three conditions, a lone condition, a lone member, a
tuple, a missing value and keys without a meaning all disappear. -/
theorem rewritten?_normalizes_mixed :
    let data : Value := .dict [(.text "conditions", .list [
      .dict [(.text "val", .text "x"), (.text "op", .text "IN"), (.text "attr", .text "a")],
      .dict [(.text "op", .text "Not"), (.text "condition", .dict [(.text "op", .text "<="),
        (.text "attr", .text "b"), (.text "note", .int 1)])],
      .dict [(.text "op", .text "Or"), (.text "conditions", .list [
        .dict [(.text "op", .text "in"), (.text "attr", .text "a"), (.text "val", .tuple [.int 1])],
        .dict [(.text "op", .text "is_NULL"), (.text "attr", .text "c"), (.text "val", .int 2)],
        .dict [(.text "op", .text "="), (.text "attr", .text "c"), (.text "val", .tuple [])]])]]),
      (.text "op", .text "AND")]
    let f : Filter := .and (.and (.member "a" [.text "x"]) (.not (.test .lessOrEqual "b" .null)))
      (.or (.or (.member "a" [.int 1]) (.isNull "c")) (.test .equal "c" (.tuple [])))
    ofWire .whole data = .ok f ∧ rewritten? .whole data ≠ some data ∧
      ∃ normal, rewritten? .whole data = some normal ∧ f.toWire = .ok normal ∧
        normal.IsNormalForm ∧
        ∀ place, ofWire place normal = .ok f ∧ rewritten? place normal = some normal := by
  intro data f
  have hread : ofWire .whole data = .ok f := by decide +kernel
  have hchanged : rewritten? .whole data ≠ some data := by decide +kernel
  exact ⟨hread, hchanged, rewritten?_normalizes hread⟩

end Filter

end DocScan
