import DocScan.Query.Projection
import Mathlib.Tactic

/-!
# The fields of a projection

A projection names the requested fields in the order of their first mention,
and the identifier last.  Two things about the requested fields decide it: which
of any two fields is mentioned first, and whether the identifier is among them.
Reading the fields one by one, a field either was mentioned before or is the
last one so far.
-/

namespace DocScan

namespace Projection

variable {idField field name : String} {fields others names more before after : List String}

/-! ## First mentions -/

/-- The names are the fields but for the identifier, in the order of their first
mention. -/
structure AreFirstMentions (idField : String) (fields names : List String) : Prop where
  mem_iff : ∀ name, name ∈ names ↔ name ∈ fields ∧ name ≠ idField
  ordered : names.Pairwise fun a b => fields.idxOf a < fields.idxOf b

namespace AreFirstMentions

theorem nil (idField : String) : AreFirstMentions idField [] [] := by
  constructor <;> simp

theorem nodup (h : AreFirstMentions idField fields names) : names.Nodup := by
  apply h.ordered.imp
  intro a b hlt heq
  rw [heq] at hlt
  exact lt_irrefl _ hlt

/-- The order of first mention leaves no choice. -/
theorem unique (h : AreFirstMentions idField fields names)
    (hmore : AreFirstMentions idField fields more) : names = more := by
  have hirrefl : Std.Irrefl fun a b => fields.idxOf a < fields.idxOf b :=
    ⟨fun _ => lt_irrefl _⟩
  have hantisymm : Std.Antisymm fun a b => fields.idxOf a < fields.idxOf b :=
    ⟨fun _ _ hab hba => absurd hba hab.not_gt⟩
  apply h.ordered.eq_of_mem_iff hmore.ordered
  intro name
  rw [h.mem_iff, hmore.mem_iff]

/-- One more field leaves the order of those before it. -/
theorem ordered_append (h : AreFirstMentions idField fields names) (field : String) :
    names.Pairwise fun a b => (fields ++ [field]).idxOf a < (fields ++ [field]).idxOf b := by
  apply h.ordered.imp_of_mem
  intro a b ha hb hlt
  have ha' : a ∈ fields := ((h.mem_iff a).mp ha).1
  have hb' : b ∈ fields := ((h.mem_iff b).mp hb).1
  rw [List.idxOf_append_of_mem ha', List.idxOf_append_of_mem hb']
  exact hlt

/-- A field that was mentioned before, or that is the identifier, changes
nothing. -/
theorem append_mentioned (h : AreFirstMentions idField fields names)
    (hfield : field = idField ∨ field ∈ fields) :
    AreFirstMentions idField (fields ++ [field]) names := by
  constructor
  · intro name
    rw [h.mem_iff, List.mem_append, List.mem_singleton]
    constructor
    · rintro ⟨hmem, hne⟩
      exact ⟨.inl hmem, hne⟩
    · rintro ⟨hmem | rfl, hne⟩
      · exact ⟨hmem, hne⟩
      · exact ⟨hfield.resolve_left hne, hne⟩
  · exact h.ordered_append field

/-- A new field comes after all others. -/
theorem append_new (h : AreFirstMentions idField fields names) (hne : field ≠ idField)
    (hnew : field ∉ fields) : AreFirstMentions idField (fields ++ [field]) (names ++ [field]) := by
  constructor
  · intro name
    rw [List.mem_append, List.mem_append, List.mem_singleton, h.mem_iff]
    constructor
    · rintro (⟨hmem, hname⟩ | rfl)
      · exact ⟨.inl hmem, hname⟩
      · exact ⟨.inr rfl, hne⟩
    · rintro ⟨hmem | rfl, hname⟩
      · exact .inl ⟨hmem, hname⟩
      · exact .inr rfl
  · rw [List.pairwise_append]
    refine ⟨h.ordered_append field, List.pairwise_singleton _ _, ?_⟩
    intro a ha b hb
    have ha' : a ∈ fields := ((h.mem_iff a).mp ha).1
    rw [List.mem_singleton.mp hb, List.idxOf_append_of_mem ha', List.idxOf_append_of_notMem hnew]
    have hlt : fields.idxOf a < fields.length := List.idxOf_lt_length_of_mem ha'
    omega

end AreFirstMentions

/-- The fields of a projection but for the identifier. -/
def requested (idField : String) (fields : List String) : List String :=
  (fields.filter (· ≠ idField)).eraseDups

theorem requested_append_singleton :
    requested idField (fields ++ [field]) =
      if field = idField ∨ field ∈ fields then requested idField fields
      else requested idField fields ++ [field] := by
  unfold requested
  rw [List.filter_append, List.eraseDups_append]
  by_cases hid : field = idField
  · simp [hid]
  · by_cases hmem : field ∈ fields <;> simp [hid, hmem, List.removeAll, List.eraseDups_cons]

theorem areFirstMentions_requested (idField : String) (fields : List String) :
    AreFirstMentions idField fields (requested idField fields) := by
  -- from the right, since only the last field can be new to those before it
  induction fields using List.reverseRecOn with
  | nil => exact .nil idField
  | append_singleton fields field ih =>
    rw [requested_append_singleton]
    split
    · rename_i hmentioned
      exact ih.append_mentioned hmentioned
    · rename_i hnew
      rw [not_or] at hnew
      exact ih.append_new hnew.1 hnew.2

theorem ofFields_of_ne_nil (h : fields ≠ []) :
    ofFields idField fields =
      (requested idField fields).map (fun name => (name, true)) ++
        [(idField, decide (idField ∈ fields))] := by
  unfold ofFields requested
  rw [if_neg (by simpa using h), List.contains_eq_mem]

theorem ofFields_eq_nil_iff : ofFields idField fields = [] ↔ fields = [] := by
  constructor
  · intro hnil
    by_contra hne
    rw [ofFields_of_ne_nil hne] at hnil
    simp at hnil
  · rintro rfl
    rfl

theorem ofFields?_of_ne_nil (h : fields ≠ []) :
    ofFields? idField fields = some (ofFields idField fields) := by
  unfold ofFields?
  split
  · rename_i hnil
    exact absurd (ofFields_eq_nil_iff.mp hnil) h
  · rfl

/-! ## Requests that come to the same -/

/-- The same fields, of any two of which the same one is mentioned first; where
the identifier is mentioned does not matter. -/
structure SameMentions (idField : String) (fields others : List String) : Prop where
  mem_iff : ∀ name, name ∈ others ↔ name ∈ fields
  order : ∀ a ∈ fields, ∀ b ∈ fields, a ≠ idField → b ≠ idField →
    (others.idxOf a < others.idxOf b ↔ fields.idxOf a < fields.idxOf b)

/-- The identifier is mentioned at another place or once more, or another field
once more at a later place. -/
inductive Restates (idField : String) : List String → List String → Prop where
  | moved {before after before' after' : List String} (h : before ++ after = before' ++ after') :
    Restates idField (before ++ idField :: after) (before' ++ idField :: after')
  | identifier {before after : List String} (h : idField ∈ before ++ after) :
    Restates idField (before ++ after) (before ++ idField :: after)
  | repeated {before after : List String} {name : String} (h : name ∈ before) :
    Restates idField (before ++ after) (before ++ name :: after)

theorem AreFirstMentions.of_same (h : AreFirstMentions idField fields names)
    (hsame : SameMentions idField fields others) : AreFirstMentions idField others names := by
  constructor
  · intro name
    rw [h.mem_iff, hsame.mem_iff]
  · apply h.ordered.imp_of_mem
    intro a b ha hb hlt
    obtain ⟨ha, hane⟩ := (h.mem_iff a).mp ha
    obtain ⟨hb, hbne⟩ := (h.mem_iff b).mp hb
    exact (hsame.order a ha b hb hane hbne).mpr hlt

/-- The fields but for the identifier and the presence of the identifier make
up a projection. -/
theorem ofFields_congr (hrequested : requested idField others = requested idField fields)
    (hid : idField ∈ others ↔ idField ∈ fields) (hnil : others = [] ↔ fields = []) :
    ofFields idField others = ofFields idField fields := by
  by_cases hfields : fields = []
  · rw [hfields, hnil.mpr hfields]
  · have hothers : others ≠ [] := fun h => hfields (hnil.mp h)
    rw [ofFields_of_ne_nil hfields, ofFields_of_ne_nil hothers, hrequested]
    simp only [hid]

theorem ofFields_of_same (h : SameMentions idField fields others) :
    ofFields idField others = ofFields idField fields := by
  apply ofFields_congr
  · have hothers := (areFirstMentions_requested idField fields).of_same h
    exact (areFirstMentions_requested idField others).unique hothers
  · exact h.mem_iff idField
  · simp only [List.eq_nil_iff_forall_not_mem, h.mem_iff]

theorem requested_insert_identifier :
    requested idField (before ++ idField :: after) = requested idField (before ++ after) := by
  simp [requested]

theorem requested_insert_repeated (h : name ∈ before) :
    requested idField (before ++ name :: after) = requested idField (before ++ after) := by
  by_cases hid : name = idField
  · rw [hid, requested_insert_identifier]
  · unfold requested
    rw [List.filter_append, List.filter_append, List.eraseDups_append, List.eraseDups_append]
    simp [List.removeAll, hid, h]

theorem ofFields_of_restates (h : Restates idField fields others) :
    ofFields idField others = ofFields idField fields := by
  cases h with
  | moved hsame =>
    apply ofFields_congr
    · rw [requested_insert_identifier, requested_insert_identifier, hsame]
    · simp
    · simp
  | identifier hmem =>
    apply ofFields_congr
    · exact requested_insert_identifier
    · simpa using hmem
    · have hne := List.ne_nil_of_mem hmem
      simpa using hne
  | repeated hmem =>
    apply ofFields_congr
    · exact requested_insert_repeated hmem
    · rw [List.mem_append, List.mem_append, List.mem_cons]
      constructor
      · rintro (hbefore | rfl | hafter)
        · exact .inl hbefore
        · exact .inl hmem
        · exact .inr hafter
      · rintro (hbefore | hafter)
        · exact .inl hbefore
        · exact .inr (.inr hafter)
    · have hne := List.ne_nil_of_mem hmem
      simp [hne]

/-- Without requested fields there is no projection.  Otherwise it includes the
requested fields but for the identifier, once each and in the order of their
first mention, and last it includes the identifier if that is requested, and
leaves it out if not.  Requests with the same mentions, so in particular one in
which the identifier is moved or a field repeated, have the same projection. -/
theorem ofFields_mentions (idField : String) (fields : List String) :
    (ofFields idField fields = [] ↔ fields = []) ∧
      (ofFields? idField fields = none ↔ fields = []) ∧
      (fields ≠ [] → ∃ names, AreFirstMentions idField fields names ∧
        (names ++ [idField]).Nodup ∧
        (ofFields idField fields).toValue =
          .dict (names.map (fun name => (.text name, .int 1)) ++
            [(.text idField, .int (if idField ∈ fields then 1 else 0))]) ∧
        ofFields? idField fields = some (ofFields idField fields)) ∧
      (∀ others, SameMentions idField fields others →
        ofFields idField others = ofFields idField fields) ∧
      ∀ others, Restates idField fields others →
        ofFields idField others = ofFields idField fields := by
  refine ⟨ofFields_eq_nil_iff, ?none, ?fields, fun _ => ofFields_of_same,
    fun _ => ofFields_of_restates⟩
  case none =>
    constructor
    · intro hnone
      by_contra hne
      rw [ofFields?_of_ne_nil hne] at hnone
      contradiction
    · rintro rfl
      rfl
  case fields =>
    intro hne
    have hfirst := areFirstMentions_requested idField fields
    refine ⟨requested idField fields, hfirst, ?_, ?_, ofFields?_of_ne_nil hne⟩
    · rw [List.nodup_append]
      refine ⟨hfirst.nodup, List.nodup_singleton _, ?_⟩
      intro name hname other hother
      rw [List.mem_singleton.mp hother]
      exact ((hfirst.mem_iff name).mp hname).2
    · rw [ofFields_of_ne_nil hne]
      simp [toValue]

/-- Of repeated fields the first mention counts, and the identifier goes last. -/
example : ofFields "_id" ["b", "_id", "a", "b"] = [("b", true), ("a", true), ("_id", true)] := by
  decide

end Projection

end DocScan
