import DocScan.Proofs.ProjectionFields

/-!
# What a store returns under a projection

A store accepts a projection that includes fields only if no other field than
its own identifier is left out.  Of a document it returns the included fields,
and with them its own identifier unless that is left out.  Names of fields are
taken whole here; a field inside of another one is not addressed.

Which identifier a projection leaves out is a matter of configuration, and which
one the store adds is not.  If the two are the same, exactly the requested
fields are returned.  If they differ, the store rejects every request that is
without the configured identifier, and adds its own to every other one.
-/

namespace DocScan

namespace Projection

variable {idField field : String} {fields : List String}

/-! ## The store -/

/-- The field that a store returns unless a projection leaves it out. -/
def storeIdentifier : String := "_id"

/-- Whether a store accepts a projection. -/
def isAccepted (p : Projection) : Bool :=
  p.all fun entry => entry.2 || entry.1 = storeIdentifier || !p.any Prod.snd

/-- Whether a store returns a field that a document has.  A projection that only
leaves out fields keeps all others. -/
def returns (p : Projection) (field : String) : Bool :=
  if p.any Prod.snd then
    p.contains (field, true) || field = storeIdentifier && !p.contains (field, false)
  else !p.contains (field, false)

/-- What a store returns of a document, unless it rejects the projection. -/
def returned? (p : Projection) (document : List (String × Value)) :
    Option (List (String × Value)) :=
  if p.isAccepted then some (document.filter fun entry => p.returns entry.1) else none

/-! ## The projections of requests -/

theorem included_iff (h : fields ≠ []) :
    (field, true) ∈ ofFields idField fields ↔ field ∈ fields := by
  have hfirst := (areFirstMentions_requested idField fields).mem_iff field
  rw [ofFields_of_ne_nil h, List.mem_append, List.mem_map, List.mem_singleton]
  constructor
  · rintro (⟨name, hname, hentry⟩ | hid)
    · cases hentry
      exact (hfirst.mp hname).1
    · obtain ⟨rfl, hmem⟩ := Prod.mk.inj hid
      exact of_decide_eq_true hmem.symm
  · intro hmem
    by_cases hid : field = idField
    · right
      subst hid
      simp [hmem]
    · left
      exact ⟨field, hfirst.mpr ⟨hmem, hid⟩, rfl⟩

theorem left_out_iff (h : fields ≠ []) :
    (field, false) ∈ ofFields idField fields ↔ field = idField ∧ idField ∉ fields := by
  rw [ofFields_of_ne_nil h, List.mem_append, List.mem_map, List.mem_singleton]
  constructor
  · rintro (⟨name, -, hentry⟩ | hid)
    · cases hentry
    · obtain ⟨rfl, hmem⟩ := Prod.mk.inj hid
      exact ⟨rfl, of_decide_eq_false hmem.symm⟩
  · rintro ⟨rfl, hmem⟩
    right
    simp [hmem]

theorem any_included (h : fields ≠ []) : (ofFields idField fields).any Prod.snd = true := by
  obtain ⟨field, hfield⟩ := List.exists_mem_of_ne_nil fields h
  exact List.any_eq_true.mpr ⟨(field, true), (included_iff h).mpr hfield, rfl⟩

theorem isAccepted_ofFields_iff (h : fields ≠ []) :
    (ofFields idField fields).isAccepted = true ↔
      idField = storeIdentifier ∨ idField ∈ fields := by
  unfold isAccepted
  rw [any_included h, List.all_eq_true]
  constructor
  · intro hall
    by_contra hneither
    rw [not_or] at hneither
    have hleft : (idField, false) ∈ ofFields idField fields :=
      (left_out_iff h).mpr ⟨rfl, hneither.2⟩
    have hid := hall _ hleft
    simp [hneither.1] at hid
  · rintro hid ⟨field, included⟩ hmem
    cases included with
    | true => rfl
    | false =>
      obtain ⟨rfl, hmissing⟩ := (left_out_iff h).mp hmem
      simp [hid.resolve_right hmissing]

/-- Besides the requested fields a store returns its own identifier where that is
not the configured one. -/
theorem returns_ofFields_iff (h : fields ≠ []) :
    (ofFields idField fields).returns field = true ↔
      field ∈ fields ∨ field = storeIdentifier ∧ idField ≠ storeIdentifier := by
  unfold returns
  rw [if_pos (any_included h)]
  simp only [List.contains_eq_mem, included_iff h, left_out_iff h, Bool.or_eq_true,
    Bool.and_eq_true, Bool.not_eq_true', decide_eq_true_eq, decide_eq_false_iff_not, not_and,
    not_not]
  constructor
  · rintro (hmem | ⟨rfl, hkept⟩)
    · exact .inl hmem
    · by_cases hid : storeIdentifier = idField
      · rw [hid]
        exact .inl (hkept hid)
      · exact .inr ⟨rfl, Ne.symm hid⟩
  · rintro (hmem | ⟨rfl, hne⟩)
    · exact .inl hmem
    · exact .inr ⟨rfl, fun hid => absurd hid.symm hne⟩

theorem returned?_ofFields (h : fields ≠ []) (document : List (String × Value)) :
    (ofFields idField fields).returned? document =
      if idField = storeIdentifier ∨ idField ∈ fields then
        some (document.filter fun entry => entry.1 ∈ fields ∨
          entry.1 = storeIdentifier ∧ idField ≠ storeIdentifier)
      else none := by
  unfold returned?
  simp only [isAccepted_ofFields_iff h]
  congr 3
  funext entry
  rw [Bool.eq_iff_iff, returns_ofFields_iff h, decide_eq_true_eq]

/-- Where the two identifiers differ, the one of the store is returned without
being requested, unless the document has none. -/
theorem filter_returned_eq_iff (hid : idField ≠ storeIdentifier)
    (document : List (String × Value)) :
    (document.filter fun entry => entry.1 ∈ fields ∨
        entry.1 = storeIdentifier ∧ idField ≠ storeIdentifier) =
      (document.filter fun entry => entry.1 ∈ fields) ↔
        storeIdentifier ∈ fields ∨ storeIdentifier ∉ document.map Prod.fst := by
  constructor
  · intro hsame
    by_contra hneither
    rw [not_or, not_not] at hneither
    obtain ⟨entry, hentry, hname⟩ := List.mem_map.mp hneither.2
    have hreturned : entry ∈ document.filter fun entry => entry.1 ∈ fields := by
      rw [← hsame, List.mem_filter]
      exact ⟨hentry, by simp [hname, hid]⟩
    have hrequested : entry.1 ∈ fields := by
      simpa using (List.mem_filter.mp hreturned).2
    rw [hname] at hrequested
    exact hneither.1 hrequested
  · intro hstore
    apply List.filter_congr
    intro entry hentry
    rw [decide_eq_decide]
    constructor
    · rintro (hmem | ⟨hname, -⟩)
      · exact hmem
      · have hpresent : storeIdentifier ∈ document.map Prod.fst :=
          List.mem_map.mpr ⟨entry, hentry, hname⟩
        rw [hname]
        exact hstore.resolve_right (not_not.mpr hpresent)
    · exact .inl

/-- A request is accepted if the configured identifier is that of the store or is
requested.  What is returned then are the requested fields of the document and
the identifier of the store, if that is another one than configured.  So a
request gets exactly its fields if the two identifiers are the same, or if the
configured one is requested, and that of the store is requested or missing. -/
theorem returned?_eq_requested_iff (idField : String) {fields : List String} (h : fields ≠ [])
    (document : List (String × Value)) :
    (ofFields idField fields).returned? document =
        (if idField = storeIdentifier ∨ idField ∈ fields then
          some (document.filter fun entry => entry.1 ∈ fields ∨
            entry.1 = storeIdentifier ∧ idField ≠ storeIdentifier)
        else none) ∧
      ((ofFields idField fields).returned? document =
          some (document.filter fun entry => entry.1 ∈ fields) ↔
        idField = storeIdentifier ∨ idField ∈ fields ∧
          (storeIdentifier ∈ fields ∨ storeIdentifier ∉ document.map Prod.fst)) := by
  refine ⟨returned?_ofFields h document, ?_⟩
  rw [returned?_ofFields h]
  by_cases hid : idField = storeIdentifier
  · simp [hid]
  · by_cases hrequested : idField ∈ fields
    · rw [if_pos (.inr hrequested), Option.some_inj, filter_returned_eq_iff hid]
      simp only [hid, hrequested, false_or, true_and]
    · simp [hid, hrequested]

/-- With another identifier than that of the store, a request for both of them gets
exactly its fields. -/
theorem returned?_eq_requested_iff_both :
    let fields := ["name", "key", "_id"]
    let document : List (String × Value) :=
      [("_id", .int 1), ("key", .int 7), ("age", .int 31), ("name", .text "alice")]
    fields ≠ [] ∧
      (ofFields "key" fields).returned? document =
        some [("_id", .int 1), ("key", .int 7), ("name", .text "alice")] ∧
      ((ofFields "key" fields).returned? document =
          some (document.filter fun entry => entry.1 ∈ fields) ↔
        "key" = storeIdentifier ∨ "key" ∈ fields ∧
          (storeIdentifier ∈ fields ∨ storeIdentifier ∉ document.map Prod.fst)) := by
  intro fields document
  have hfields : fields ≠ [] := List.cons_ne_nil _ _
  obtain ⟨hreturned, hexact⟩ := returned?_eq_requested_iff "key" hfields document
  exact ⟨hfields, hreturned.trans (by decide), hexact⟩

/-- With another identifier than that of the store, a request without it is
rejected, and one with it gets the identifier of the store as well. -/
theorem ofFields_misses_requested :
    (¬ ∀ (idField : String) (fields : List String), fields ≠ [] →
      (ofFields idField fields).isAccepted = true) ∧
    ¬ ∀ (idField : String) (fields : List String) (document : List (String × Value)),
      fields ≠ [] → (ofFields idField fields).isAccepted = true →
      (ofFields idField fields).returned? document =
        some (document.filter fun entry => entry.1 ∈ fields) := by
  constructor
  · intro hall
    have haccepted := hall "key" ["name"] (List.cons_ne_nil _ _)
    exact absurd haccepted (by decide)
  · intro hall
    have hreturned := hall "key" ["name", "key"] [("_id", .int 1), ("name", .text "alice")]
      (List.cons_ne_nil _ _) (by decide)
    exact absurd hreturned (by decide)

end Projection

end DocScan
