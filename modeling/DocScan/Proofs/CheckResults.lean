import DocScan.Partition
import Mathlib.Tactic

/-!
# What passed checks give

What a check gives when it passes is carried through the combinators of checks.
The names in a checked dictionary are distinct: a name that is given twice keeps
its first place and takes the last value.  So each bound of a partition that is
accepted names the fields of an index key once each.
-/

namespace DocScan

namespace Checked

variable {α β : Type} {P : α → Prop} {Q : β → Prop} {x : Checked α} {y : Checked β}

/-- If a check passes, what it gives has a property. -/
def Gives (P : α → Prop) (x : Checked α) : Prop := ∀ a, x = .ok a → P a

@[simp] theorem gives_ok {a : α} : Gives P (.ok a : Checked α) ↔ P a := by
  simp [Gives]

@[simp] theorem gives_error (fs : List Fault) : Gives P (.error fs : Checked α) := by
  simp [Gives]

theorem Gives.atPlace (h : x.Gives P) (place : Place) : (atPlace place x).Gives P := by
  cases x with
  | ok a => exact h
  | error fs => exact gives_error _

theorem Gives.both (hx : x.Gives P) (hy : y.Gives Q) :
    (both x y).Gives fun pair => P pair.1 ∧ Q pair.2 := by
  cases x with
  | error fs => exact gives_error _
  | ok a =>
    cases y with
    | error fs => exact gives_error _
    | ok b => exact gives_ok.mpr ⟨gives_ok.mp hx, gives_ok.mp hy⟩

end Checked

namespace Checked

variable {α β : Type} {x : Checked α} {y : Checked β}

@[simp] theorem atPlace_eq_ok_iff {place : Place} {a : α} :
    atPlace place x = .ok a ↔ x = .ok a := by
  cases x <;> simp [atPlace]

@[simp] theorem both_eq_ok_iff {a : α} {b : β} :
    both x y = .ok (a, b) ↔ x = .ok a ∧ y = .ok b := by
  cases x <;> cases y <;> simp [both]

theorem all_eq_ok_iff {xs : List (Checked α)} {as : List α} :
    all xs = .ok as ↔ List.Forall₂ (fun x a => x = .ok a) xs as := by
  induction xs generalizing as with
  | nil => simp [all, eq_comm]
  | cons x rest ih =>
    rw [all]
    cases as with
    | nil => split <;> simp
    | cons a as =>
      rw [List.forall₂_cons, ← ih]
      cases x <;> cases all rest <;> simp [both]

end Checked

/-! ## Dictionaries -/

namespace Check

variable {α : Type} {P : α → Prop} {name : String} {value : Value}
  {entries : List (String × Value)}

theorem required_eq_ok_iff {check : Value → Checked α} {given : List (Value × Value)} {a : α} :
    required name check given = .ok a ↔
      ∃ v, Value.lookup? name given = some v ∧ check v = .ok a := by
  unfold required
  cases Value.lookup? name given with
  | none => simp [Checked.fail]
  | some v => simp

theorem gives_withDefault {default : α} (hdefault : P default) {check : Value → Checked α}
    (h : ∀ v, (check v).Gives P) (given : List (Value × Value)) :
    (withDefault name default check given).Gives P := by
  unfold withDefault
  split
  · rename_i v _
    exact (h v).atPlace (.name name)
  · exact Checked.gives_ok.mpr hdefault

/-- No name stands twice. -/
def HasDistinctNames (entries : List (String × Value)) : Prop := (entries.map Prod.fst).Nodup

theorem names_setNamed (name : String) (value : Value) (entries : List (String × Value)) :
    (setNamed name value entries).map Prod.fst =
      if name ∈ entries.map Prod.fst then entries.map Prod.fst
      else entries.map Prod.fst ++ [name] := by
  induction entries with
  | nil => rfl
  | cons entry rest ih =>
    obtain ⟨key, v⟩ := entry
    by_cases hkey : key = name
    · simp [setNamed, hkey]
    · have hname : name ≠ key := Ne.symm hkey
      rw [setNamed, if_neg hkey, List.map_cons, List.map_cons, ih]
      by_cases hmem : name ∈ rest.map Prod.fst
      · rw [if_pos hmem, if_pos (List.mem_cons_of_mem key hmem)]
      · have hnotMem : name ∉ key :: rest.map Prod.fst := by
          rw [List.mem_cons, not_or]
          exact ⟨hname, hmem⟩
        rw [if_neg hmem, if_neg hnotMem, List.cons_append]

theorem HasDistinctNames.setNamed (h : HasDistinctNames entries) (name : String) (value : Value) :
    HasDistinctNames (setNamed name value entries) := by
  unfold HasDistinctNames
  rw [names_setNamed]
  split
  · exact h
  · rename_i hnew
    rw [List.nodup_append]
    refine ⟨h, List.nodup_singleton name, ?_⟩
    intro other hother new hmem heq
    rw [heq, List.mem_singleton.mp hmem] at hother
    exact hnew hother

theorem HasDistinctNames.foldl_setNamed (h : HasDistinctNames entries)
    (given : List (String × Value)) :
    HasDistinctNames
      (given.foldl (fun acc entry => Check.setNamed entry.1 entry.2 acc) entries) := by
  induction given generalizing entries with
  | nil => exact h
  | cons entry rest ih => exact ih (h.setNamed entry.1 entry.2)

theorem setNamed_of_not_mem (h : name ∉ entries.map Prod.fst) :
    setNamed name value entries = entries ++ [(name, value)] := by
  induction entries with
  | nil => rfl
  | cons entry rest ih =>
    rw [List.map_cons, List.mem_cons, not_or] at h
    rw [setNamed, if_neg (Ne.symm h.1), ih h.2, List.cons_append]

/-- Entries with new and distinct names are put behind those that are there. -/
theorem foldl_setNamed_of_distinct {given : List (String × Value)}
    (h : HasDistinctNames (entries ++ given)) :
    given.foldl (fun acc entry => setNamed entry.1 entry.2 acc) entries = entries ++ given := by
  induction given generalizing entries with
  | nil => simp
  | cons entry rest ih =>
    have hnew : entry.1 ∉ entries.map Prod.fst := by
      unfold HasDistinctNames at h
      rw [List.map_append, List.nodup_append] at h
      intro hmem
      exact h.2.2 entry.1 hmem entry.1 List.mem_cons_self rfl
    rw [List.append_cons] at h ⊢
    rw [List.foldl_cons, setNamed_of_not_mem hnew, ih h]

theorem gives_namedValues (v : Value) : (namedValues v).Gives HasDistinctNames := by
  have hnil : HasDistinctNames [] := List.nodup_nil
  unfold namedValues
  split
  · split
    · exact Checked.gives_ok.mpr (hnil.foldl_setNamed _)
    · exact Checked.gives_error _
  · exact Checked.gives_error _

theorem gives_optionalNamedValues (v : Value) :
    (optionalNamedValues v).Gives fun given => ∀ entries ∈ given, HasDistinctNames entries := by
  unfold optionalNamedValues
  split
  · exact Checked.gives_ok.mpr (by simp)
  · split
    · rename_i entries hentries
      have hdistinct := gives_namedValues _ entries hentries
      exact Checked.gives_ok.mpr (by simpa using hdistinct)
    · exact Checked.gives_error _

end Check

/-! ## Partitions -/

/-- Each bound of a range names its fields once. -/
structure KeyRange.HasDistinctFields (range : KeyRange) : Prop where
  lower : ∀ bound ∈ range.lower, Check.HasDistinctNames bound
  upper : ∀ bound ∈ range.upper, Check.HasDistinctNames bound

theorem KeyRange.gives_check (entries : List (Value × Value)) :
    (KeyRange.check entries).Gives KeyRange.HasDistinctFields := by
  have hbound (name : String) :
      (Check.withDefault name none Check.optionalNamedValues entries).Gives
        fun given => ∀ bound ∈ given, Check.HasDistinctNames bound :=
    Check.gives_withDefault (by simp) Check.gives_optionalNamedValues entries
  have hboth := (hbound "min_key").both (hbound "max_key")
  unfold KeyRange.check
  split
  · rename_i lower upper hpass
    obtain ⟨hlower, hupper⟩ := hboth _ hpass
    exact Checked.gives_ok.mpr ⟨hlower, hupper⟩
  · exact Checked.gives_error _

theorem KeyRange.gives_checkValue (v : Value) :
    (KeyRange.checkValue v).Gives KeyRange.HasDistinctFields := by
  unfold KeyRange.checkValue
  split
  · exact KeyRange.gives_check _
  · exact Checked.gives_error _

theorem KeyRange.hasDistinctFields_unbounded : KeyRange.unbounded.HasDistinctFields := by
  constructor <;> simp [KeyRange.unbounded]

theorem Partition.gives_check (entries : List (Value × Value)) :
    (Partition.check entries).Gives fun p => p.range.HasDistinctFields := by
  have hrange : (Check.withDefault "partition_range" KeyRange.unbounded KeyRange.checkValue
      entries).Gives KeyRange.HasDistinctFields :=
    Check.gives_withDefault KeyRange.hasDistinctFields_unbounded KeyRange.gives_checkValue entries
  have hany {α : Type} (x : Checked α) : x.Gives fun _ => True := fun _ _ => trivial
  have hall := (hany (Check.withDefault "index" 0 Check.integer entries)).both
    ((hany (Check.required "hosts" Partition.checkHosts entries)).both hrange)
  unfold Partition.check
  split
  · rename_i index hosts range hpass
    exact Checked.gives_ok.mpr (hall _ hpass).2.2
  · exact Checked.gives_error _

theorem Partition.hasDistinctFields_of_ofArguments {data : Value} {p : Partition}
    (h : Partition.ofArguments data = .ok p) : p.range.HasDistinctFields := by
  unfold Partition.ofArguments recordOfArguments at h
  split at h
  · split at h
    · split at h
      · rename_i entries _ _ _ hcheck
        cases h
        exact Partition.gives_check entries p hcheck
      · contradiction
    · contradiction
  · contradiction

end DocScan
