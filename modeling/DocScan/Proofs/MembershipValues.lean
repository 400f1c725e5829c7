import DocScan.Proofs.QueryContents
import DocScan.Proofs.WireRoundTrip

/-!
# What a membership test takes for members

A value is taken apart into members in three places: where a membership filter is
made from it, where one is read off its wire form, and where a membership test is
compiled by itself.  All of them take the items of a list or tuple, and any other
value as the only member, with one exception.  A filter that is made from a
dictionary has its keys for members; on the wire and compiled by itself, a
dictionary is one member like any other.
-/

namespace DocScan

namespace Value

variable {v : Value}

/-- The items of a list or tuple, and any other value alone. -/
def itemsOrSelf (v : Value) : List Value := v.items?.getD [v]

/-- The keys of a dictionary are smaller than it is. -/
theorem keys_ne_self (entries : List (Value × Value)) :
    entries.map Prod.fst ≠ [.dict entries] := by
  intro hkeys
  have hmem : Value.dict entries ∈ entries.map Prod.fst := by
    rw [hkeys]
    exact List.mem_singleton_self _
  obtain ⟨⟨key, value⟩, hentry, rfl⟩ := List.mem_map.mp hmem
  have hsize := List.sizeOf_lt_of_mem hentry
  simp only [Prod.mk.sizeOf_spec, Value.dict.sizeOf_spec] at hsize
  omega

theorem members_eq_itemsOrSelf_iff :
    v.members = v.itemsOrSelf ↔ ∀ entries, v ≠ .dict entries := by
  cases v with
  | dict entries =>
    constructor
    · intro hsame
      exact absurd hsame (keys_ne_self entries)
    · intro hne
      exact absurd rfl (hne entries)
  | null | bool | int | float | text | bytes | objectId | list | tuple =>
    refine ⟨fun _ _ h => Value.noConfusion h, fun _ => rfl⟩

end Value

namespace Filter

variable {idField field : String} {values : List Value} {v : Value}

/-- A membership test that is compiled by itself is the query of a filter. -/
def IsMembershipQuery (idField field : String) (v : Value) (f : Filter) : Prop :=
  ∃ clause query, Clause.inFamily? .membership idField field "in" v = .ok (some clause) ∧
    Query.ofFilters idField [f] = .ok query ∧ clause.toValue = query.toValue

theorem ofWire_member (address : Address) (hfield : field ≠ "") (v : Value) :
    ofWire address (wireLeaf "in" field v) = .ok (.member field v.itemsOrSelf) := by
  have hread := ofWire_wireLeaf .member field v address
  rw [if_neg hfield] at hread
  exact hread

theorem inFamily?_member (idField field : String) (v : Value) :
    Clause.inFamily? .membership idField field "in" v =
      .ok (some (Clause.operation field "$in" (.list v.itemsOrSelf))) := by
  have hop : Operator.ofText? "in" = some (.leaf .member) := Operator.ofText?_text (.leaf .member)
  unfold Clause.inFamily?
  rw [hop]
  rfl

theorem ofFilters_member (idField field : String) (values : List Value) :
    Query.ofFilters idField [.member field values] =
      .ok ⟨[(field, .dict [(.text "$in", .list values)])]⟩ := by
  have hclause : Clause.ofFilter idField (.member field values) =
      .ok (Clause.operation field "$in" (.list values)) := rfl
  exact (Clause.expresses_of_ofFilter hclause).ofFilters_singleton

theorem isMembershipQuery_member_iff :
    IsMembershipQuery idField field v (.member field values) ↔ values = v.itemsOrSelf := by
  unfold IsMembershipQuery
  rw [inFamily?_member, ofFilters_member]
  constructor
  · rintro ⟨clause, query, hclause, hquery, hsame⟩
    cases hclause
    cases hquery
    simpa [Clause.toValue, Clause.operation, Query.toValue] using hsame.symm
  · rintro rfl
    exact ⟨_, _, rfl, rfl, rfl⟩

/-- Reading a membership filter off the wire gives the filter that is made from the
value, and compiling the test by itself gives the query of that filter, in each
case exactly if the value is no dictionary.  For a dictionary the filter that is
made has its keys for members, while reading and compiling agree on the dictionary
as the only one. -/
theorem member_agrees_iff (address : Address) (idField : String) {field : String}
    (hfield : field ≠ "") (v : Value) :
    (ofWire address (wireLeaf "in" field v) = .ok (memberOf field v) ↔
        ∀ entries, v ≠ .dict entries) ∧
      (IsMembershipQuery idField field v (memberOf field v) ↔ ∀ entries, v ≠ .dict entries) ∧
      ∀ entries, v = .dict entries →
        memberOf field v = .member field (entries.map Prod.fst) ∧
        ofWire address (wireLeaf "in" field v) = .ok (.member field [v]) ∧
        IsMembershipQuery idField field v (.member field [v]) := by
  have hmade : memberOf field v = .member field v.members := rfl
  refine ⟨?read, ?compiled, ?dictionary⟩
  case read =>
    rw [ofWire_member address hfield, hmade, ← Value.members_eq_itemsOrSelf_iff]
    constructor
    · intro hsame
      injection Except.ok.inj hsame with _ hitems
      exact hitems.symm
    · intro hsame
      rw [hsame]
  case compiled =>
    rw [hmade, isMembershipQuery_member_iff, Value.members_eq_itemsOrSelf_iff]
  case dictionary =>
    rintro entries rfl
    exact ⟨rfl, ofWire_member address hfield _, isMembershipQuery_member_iff.mpr rfl⟩

/-- A tuple with a dictionary and a list in it has the same members in all three
places, also on the identifier field. -/
theorem member_agrees_iff_nested :
    let items : List Value :=
      [.dict [(.text "city", .text "Athens")], .list [.int 1], .null, .text "ObjectId('00')"]
    "_id" ≠ "" ∧
      ofWire .whole (wireLeaf "in" "_id" (.tuple items)) = .ok (memberOf "_id" (.tuple items)) ∧
      memberOf "_id" (.tuple items) = .member "_id" items ∧
      IsMembershipQuery "_id" "_id" (.tuple items) (memberOf "_id" (.tuple items)) := by
  intro items
  have hfield : "_id" ≠ "" := by decide
  have htuple : ∀ entries, Value.tuple items ≠ .dict entries := fun _ h => Value.noConfusion h
  obtain ⟨hread, hcompiled, -⟩ := member_agrees_iff .whole "_id" hfield (.tuple items)
  exact ⟨hfield, hread.mpr htuple, rfl, hcompiled.mpr htuple⟩

/-- A filter made from a dictionary is another one than is read off the wire, and
another one than the test compiles to. -/
theorem member_differs_on_dictionary :
    (¬ ∀ (field : String) (v : Value), field ≠ "" →
      ofWire .whole (wireLeaf "in" field v) = .ok (memberOf field v)) ∧
    ¬ ∀ (field : String) (v : Value), field ≠ "" →
      IsMembershipQuery defaultIdField field v (memberOf field v) := by
  have hfield : "address" ≠ "" := by decide
  constructor
  · intro hall
    have hread := hall "address" (.dict [(.text "city", .text "Athens")]) hfield
    rw [ofWire_member _ hfield] at hread
    exact absurd hread (by decide)
  · intro hall
    have hcompiled := hall "address" (.dict [(.text "city", .text "Athens")]) hfield
    have hsame := isMembershipQuery_member_iff.mp hcompiled
    exact absurd hsame (by decide)

end Filter

end DocScan
