import DocScan.Filter.WireForm
import DocScan.Query.Compilation
import Mathlib.Tactic

/-!
# What can be shown

A value or filter can be shown exactly if no integer in it, at any depth, has more
digits than an integer is shown with.  Errors that show what they are about depend on
this: such an error refuses a filter if it can be shown, and otherwise only says that
the limit is exceeded.
-/

namespace DocScan

namespace Decimal

/-- An integer has no more digits than are shown. -/
def Fits (n : ℤ) : Prop := n.natAbs < 10 ^ maxDigits

instance (n : ℤ) : Decidable (Fits n) := Nat.decLt _ _

theorem not_fits_pow : ¬ Fits (10 ^ maxDigits) := by
  simp [Fits, Int.natAbs_pow]

theorem isSome_intText?_iff {n : ℤ} : (intText? n).isSome ↔ Fits n := by
  have hlength : (natDigits n.natAbs).length ≤ maxDigits ↔ Fits n :=
    Nat.length_toDigits_le_iff (by decide) (by decide)
  unfold intText?
  split <;> simp_all

end Decimal

open Decimal (Fits)

namespace Value

mutual

/-- The integers in a value, at any depth. -/
def integers : Value → List ℤ
  | .int n => [n]
  | .list items | .tuple items => integersOfItems items
  | .dict entries => integersOfEntries entries
  | _ => []

def integersOfItems : List Value → List ℤ
  | [] => []
  | item :: rest => item.integers ++ integersOfItems rest

/-- The integers in the keys and values of entries. -/
def integersOfEntries : List (Value × Value) → List ℤ
  | [] => []
  | (key, value) :: rest => key.integers ++ value.integers ++ integersOfEntries rest

end

def IsLegible (v : Value) : Prop := ∀ n ∈ v.integers, Fits n

instance (v : Value) : Decidable v.IsLegible := List.decidableBAll _ _

theorem isLegible_list_iff {items : List Value} :
    (Value.list items).IsLegible ↔ ∀ item ∈ items, item.IsLegible := by
  unfold IsLegible
  rw [integers]
  induction items with
  | nil => simp [integersOfItems]
  | cons item rest ih =>
    rw [integersOfItems, List.forall_mem_append, ih, List.forall_mem_cons]

theorem isLegible_dict_iff {entries : List (Value × Value)} :
    (Value.dict entries).IsLegible ↔
      ∀ entry ∈ entries, entry.1.IsLegible ∧ entry.2.IsLegible := by
  unfold IsLegible
  rw [integers]
  induction entries with
  | nil => simp [integersOfEntries]
  | cons entry rest ih =>
    rw [integersOfEntries, List.forall_mem_append, List.forall_mem_append, ih,
      List.forall_mem_cons]

theorem IsLegible.of_lookup? {name : String} {entries : List (Value × Value)} {value : Value}
    (h : (Value.dict entries).IsLegible) (hvalue : lookup? name entries = some value) :
    value.IsLegible := by
  obtain ⟨entry, hfound, rfl⟩ := Option.map_eq_some_iff.mp hvalue
  exact (isLegible_dict_iff.mp h entry (List.mem_of_find?_eq_some hfound)).2

mutual

theorem isSome_display?_iff (v : Value) : v.display?.isSome ↔ v.IsLegible := by
  match v with
  | .null | .bool _ | .float _ | .text _ | .bytes _ | .objectId _ =>
    simp [display?, IsLegible, integers]
  | .int n =>
    simpa [display?, Option.isSome_bind, IsLegible, integers] using Decimal.isSome_intText?_iff
  | .list items =>
    simpa [display?, Option.isSome_bind, IsLegible, integers] using
      isSome_displayItems?_iff items
  | .tuple [] => simp [display?, displayItems?, IsLegible, integers, integersOfItems]
  | .tuple [item] =>
    simpa [display?, Option.isSome_bind, IsLegible, integers, integersOfItems] using
      isSome_display?_iff item
  | .tuple (first :: second :: rest) =>
    simpa [display?, Option.isSome_bind, IsLegible, integers] using
      isSome_displayItems?_iff (first :: second :: rest)
  | .dict entries =>
    simpa [display?, Option.isSome_bind, IsLegible, integers] using
      isSome_displayEntries?_iff entries

theorem isSome_displayItems?_iff (items : List Value) :
    (displayItems? items).isSome ↔ ∀ n ∈ integersOfItems items, Fits n := by
  match items with
  | [] => simp [displayItems?, integersOfItems]
  | item :: rest =>
    have hitem := isSome_display?_iff item
    have hrest := isSome_displayItems?_iff rest
    simp only [integersOfItems, List.forall_mem_append]
    rw [← hrest, ← IsLegible, ← hitem]
    cases hhead : item.display? <;> simp [displayItems?, Option.isSome_bind, hhead]

theorem isSome_displayEntries?_iff (entries : List (Value × Value)) :
    (displayEntries? entries).isSome ↔ ∀ n ∈ integersOfEntries entries, Fits n := by
  match entries with
  | [] => simp [displayEntries?, integersOfEntries]
  | (key, value) :: rest =>
    have hkey := isSome_display?_iff key
    have hvalue := isSome_display?_iff value
    have hrest := isSome_displayEntries?_iff rest
    simp only [integersOfEntries, List.forall_mem_append]
    rw [← hrest, ← IsLegible, ← IsLegible, ← hkey, ← hvalue]
    cases hname : key.display? <;> cases hheld : value.display? <;>
      simp [displayEntries?, Option.isSome_bind, hname, hheld]

end

theorem display?_eq_none_iff {v : Value} : v.display? = none ↔ ¬ v.IsLegible := by
  rw [← isSome_display?_iff, Option.not_isSome_iff_eq_none]

theorem IsLegible.exists_display? {v : Value} (h : v.IsLegible) : ∃ text, v.display? = some text :=
  Option.isSome_iff_exists.mp (v.isSome_display?_iff.mpr h)

end Value

namespace Filter

/-- The integers in the values of a filter's nodes. -/
def integers : Filter → List ℤ
  | .test _ _ value | .extension _ _ value | .plain value => value.integers
  | .member _ values => Value.integersOfItems values
  | .isNull _ | .isNotNull _ | .unknown => []
  | .and left right | .or left right => left.integers ++ right.integers
  | .not child => child.integers

def IsLegible (f : Filter) : Prop := ∀ n ∈ f.integers, Fits n

instance (f : Filter) : Decidable f.IsLegible := List.decidableBAll _ _

theorem isSome_display?_iff (f : Filter) : f.display?.isSome ↔ f.IsLegible := by
  induction f with
  | test t field value =>
    simpa [display?, Option.isSome_bind, IsLegible, integers, Value.IsLegible] using
      value.isSome_display?_iff
  | member field values =>
    simpa [display?, Option.isSome_bind, IsLegible, integers, Value.IsLegible, Value.integers] using
      (Value.tuple values).isSome_display?_iff
  | isNull | isNotNull | unknown => simp [display?, IsLegible, integers]
  | and l r hl hr =>
    unfold IsLegible at hl hr ⊢
    rw [integers, List.forall_mem_append, ← hl, ← hr]
    cases hleft : l.display? <;> simp [display?, Option.isSome_bind, hleft]
  | or l r hl hr =>
    unfold IsLegible at hl hr ⊢
    rw [integers, List.forall_mem_append, ← hl, ← hr]
    cases hleft : l.display? <;> simp [display?, Option.isSome_bind, hleft]
  | not child ih => simpa [display?, Option.isSome_bind, IsLegible, integers] using ih
  | extension operator field value =>
    simpa [display?, Option.isSome_bind, IsLegible, integers, Value.IsLegible] using
      value.isSome_display?_iff
  | plain value =>
    simpa [display?, IsLegible, integers, Value.IsLegible] using value.isSome_display?_iff

theorem display?_eq_none_iff {f : Filter} : f.display? = none ↔ ¬ f.IsLegible := by
  rw [← isSome_display?_iff, Option.not_isSome_iff_eq_none]

theorem IsLegible.exists_display? {f : Filter} (h : f.IsLegible) :
    ∃ text, f.display? = some text :=
  Option.isSome_iff_exists.mp (f.isSome_display?_iff.mpr h)

theorem isLegible_not_iff {child : Filter} : (Filter.not child).IsLegible ↔ child.IsLegible :=
  Iff.rfl

theorem integers_wireConnective (c : Connective) (conditions : List Value) :
    (wireConnective c conditions).integers = Value.integersOfItems conditions := by
  simp [wireConnective, wireEntry, Value.integers, Value.integersOfEntries]

theorem toWire_pair_eq_ok {l r : Filter} {c : Connective} {wire : Value}
    (h : (do
      let left ← l.toWire
      let right ← r.toWire
      return wireConnective c [left, right]) = Except.ok wire) :
    ∃ left, l.toWire = .ok left ∧ ∃ right, r.toWire = .ok right ∧
      wire = wireConnective c [left, right] := by
  cases hleft : l.toWire with
  | error e => simp [hleft, bind, Except.bind] at h
  | ok left =>
    cases hright : r.toWire with
    | error e => simp [hleft, hright, bind, Except.bind] at h
    | ok right =>
      have hwire : wireConnective c [left, right] = wire := by
        simpa [hleft, hright, bind, Except.bind, pure, Except.pure] using h
      exact ⟨left, rfl, right, rfl, hwire.symm⟩

/-- A filter and its wire form hold the same integers. -/
theorem integers_of_toWire {f : Filter} {wire : Value} (h : f.toWire = .ok wire) :
    wire.integers = f.integers := by
  induction f generalizing wire with
  | test | member | isNull | isNotNull | extension | unknown =>
    cases h
    simp [wireLeaf, wireCheck, wireEntry, integers, Value.integers, Value.integersOfEntries]
  | and l r hl hr =>
    obtain ⟨left, hleft, right, hright, hwire⟩ := toWire_pair_eq_ok h
    simp [hwire, integers_wireConnective, Value.integersOfItems, integers, hl hleft, hr hright]
  | or l r hl hr =>
    obtain ⟨left, hleft, right, hright, hwire⟩ := toWire_pair_eq_ok h
    simp [hwire, integers_wireConnective, Value.integersOfItems, integers, hl hleft, hr hright]
  | not child ih =>
    cases hchild : child.toWire with
    | error e => simp [toWire, hchild, bind, Except.bind] at h
    | ok inner =>
      have hwire : wireConnective .not [inner] = wire := by
        simpa [toWire, hchild, bind, Except.bind, pure, Except.pure] using h
      simp [← hwire, integers_wireConnective, Value.integersOfItems, integers, ih hchild]
  | plain value => cases h

theorem isLegible_iff_of_toWire {f : Filter} {wire : Value} (h : f.toWire = .ok wire) :
    wire.IsLegible ↔ f.IsLegible := by
  rw [Value.IsLegible, integers_of_toWire h, IsLegible]

end Filter

/-! ## Errors that show what they are about -/

namespace WireError

/-- The node that is shown with a fault can be shown, if there is one. -/
def IsLegible (e : WireError) : Prop := ∀ node, e.fault = .missingAttribute node → node.IsLegible

variable {e : WireError}

theorem refusal?_eq_none_iff : e.refusal? = none ↔ ¬ e.IsLegible := by
  unfold refusal? IsLegible
  cases e.fault with
  | missingAttribute node =>
    have hshown := node.isSome_display?_iff
    cases hdisplay : node.display? <;> simp_all
  | _ => simp

theorem isLegible_missingAttribute_iff {node : Value} {place : Address} :
    (WireError.mk (.missingAttribute node) place).IsLegible ↔ node.IsLegible := by
  simp [IsLegible]

theorem message_of_not_isLegible (h : ¬ e.IsLegible) : e.message = Decimal.limitMessage := by
  unfold IsLegible at h
  push Not at h
  rcases h with ⟨node, hfault, hnode⟩
  have hdisplay : node.display? = none := Value.display?_eq_none_iff.mpr hnode
  simp [message, hfault, hdisplay]

/-- Unless it is an operator that is not known, what is wrong with a wire form makes it
malformed. -/
theorem refusal?_eq_malformed (h : e.IsLegible) (hknown : ∀ name, e.fault ≠ .unknownOperator name) :
    e.refusal? = some .malformed := by
  have hshown := mt refusal?_eq_none_iff.mp (not_not.mpr h)
  unfold refusal? at hshown ⊢
  cases hfault : e.fault with
  | missingAttribute node =>
    cases hdisplay : node.display? <;> simp_all
  | unknownOperator name => exact absurd hfault (hknown name)
  | _ => rfl

end WireError

namespace CompileError

theorem message_notFilter_of_hidden {value : Value} (h : value.display? = none) :
    (notFilter value).message = Decimal.limitMessage := by
  change showing "Not a filter: " value.display? = _
  rw [h, showing]

theorem message_negation_of_hidden {node : Filter} (h : node.display? = none) :
    (negation node).message = Decimal.limitMessage := by
  change showing "Negation cannot be pushed down to MongoDB: " node.display? = _
  rw [h, showing]

end CompileError

namespace Filter

/-- A node that a refusal would show and that cannot be shown. -/
inductive Unshown : Filter → Prop where
  | negation {child : Filter} (h : ¬ child.IsLegible) : Unshown (.not child)
  | notFilter {value : Value} (h : ¬ value.IsLegible) : Unshown (.plain value)

theorem unshown_not_iff {child : Filter} : Unshown (.not child) ↔ ¬ child.IsLegible :=
  ⟨fun | .negation h => h, .negation⟩

theorem unshown_plain_iff {value : Value} : Unshown (.plain value) ↔ ¬ value.IsLegible :=
  ⟨fun | .notFilter h => h, .notFilter⟩

end Filter

end DocScan
