import DocScan.Validation.Check
import Mathlib.Tactic

/-!
# What failing checks report

A check that fails reports at least one fault.  The combinators of checks keep
that, and keep what is known of the faults; a check at a place puts all of its
faults there.
-/

namespace DocScan

/-- A fault of what stands at a place, or of something below it. -/
def Fault.StandsAt (place : Place) (f : Fault) : Prop := f.path.head? = some place

namespace Checked

variable {α β : Type} {P Q : Fault → Prop} {x : Checked α} {y : Checked β}

/-- If a check fails, it reports faults, and all of them are of one sort. -/
def FailsWith (P : Fault → Prop) (x : Checked α) : Prop :=
  ∀ fs, x = .error fs → fs ≠ [] ∧ ∀ f ∈ fs, P f

abbrev Reports (x : Checked α) : Prop := x.FailsWith fun _ => True

@[simp] theorem failsWith_ok (a : α) : FailsWith P (.ok a : Checked α) := by
  simp [FailsWith]

@[simp] theorem failsWith_error (fs : List Fault) :
    FailsWith P (.error fs : Checked α) ↔ fs ≠ [] ∧ ∀ f ∈ fs, P f := by
  simp [FailsWith]

@[simp] theorem failsWith_fail (kind : FaultKind) :
    FailsWith P (fail kind : Checked α) ↔ P ⟨[], kind⟩ := by
  simp [fail]

theorem FailsWith.mono (h : x.FailsWith P) (hPQ : ∀ f, P f → Q f) : x.FailsWith Q := by
  intro fs hx
  obtain ⟨hne, hall⟩ := h fs hx
  exact ⟨hne, fun f hf => hPQ f (hall f hf)⟩

/-- The faults of a check are reported by a check of something else. -/
theorem FailsWith.carry {fs : List Fault} (h : x.FailsWith P) (hx : x = .error fs) :
    FailsWith P (.error fs : Checked β) :=
  (failsWith_error fs).mpr (h fs hx)

theorem Reports.atPlace (h : x.Reports) (place : Place) :
    (atPlace place x).FailsWith (Fault.StandsAt place) := by
  cases x with
  | ok a => exact failsWith_ok a
  | error fs =>
    rw [Reports, failsWith_error] at h
    rw [Checked.atPlace, failsWith_error]
    refine ⟨List.map_eq_nil_iff.not.mpr h.1, ?_⟩
    intro f hf
    obtain ⟨g, -, rfl⟩ := List.mem_map.mp hf
    rfl

theorem FailsWith.both (hx : x.FailsWith P) (hy : y.FailsWith P) :
    (both x y).FailsWith P := by
  cases x with
  | ok a =>
    cases y with
    | ok b => exact failsWith_ok (a, b)
    | error fs => simpa [Checked.both] using hy
  | error es =>
    rw [failsWith_error] at hx
    rw [Checked.both, failsWith_error]
    refine ⟨fun hnil => hx.1 (List.append_eq_nil_iff.mp hnil).1, ?_⟩
    intro f hf
    rcases List.mem_append.mp hf with hleft | hright
    · exact hx.2 f hleft
    · cases y with
      | ok b => contradiction
      | error fs =>
        rw [failsWith_error] at hy
        exact hy.2 f hright

theorem FailsWith.all {xs : List (Checked α)} (h : ∀ x ∈ xs, x.FailsWith P) :
    (all xs).FailsWith P := by
  induction xs with
  | nil => exact failsWith_ok []
  | cons x rest ih =>
    rw [List.forall_mem_cons] at h
    unfold Checked.all
    split
    · exact failsWith_ok _
    · rename_i hfails
      exact (h.1.both (ih h.2)).carry hfails

end Checked

namespace Check

open Checked

variable {α : Type}

theorem reports_text (v : Value) : (text v).Reports := by
  unfold text
  split
  · simp
  · split <;> simp
  · simp

theorem reports_nonemptyText (v : Value) : (nonemptyText v).Reports := by
  unfold nonemptyText
  split
  · split <;> simp
  · rename_i hfails
    exact (reports_text v).carry hfails

theorem reports_integerText (s : String) : (integerText s).Reports := by
  unfold integerText
  split <;> simp

theorem reports_integerDouble (x : Binary64) : (integerDouble x).Reports := by
  unfold integerDouble
  split
  · simp
  · split
    · split <;> simp
    · simp

theorem reports_integer (v : Value) : (integer v).Reports := by
  unfold integer
  split
  case h_3 x => exact reports_integerDouble x
  case h_4 s => exact reports_integerText s
  case h_5 bs =>
    split
    · rename_i s _
      exact reports_integerText s
    · simp
  all_goals simp

theorem reports_positive (v : Value) : (positive v).Reports := by
  unfold positive
  split
  · split <;> simp
  · rename_i hfails
    exact (reports_integer v).carry hfails

theorem reports_optionalPositive (v : Value) : (optionalPositive v).Reports := by
  unfold optionalPositive
  split
  · simp
  · split
    · simp
    · rename_i hfails
      exact (reports_positive v).carry hfails

theorem reports_key (k : Value) : (key k).Reports := by
  have hkey := (reports_text k).atPlace (.name "[key]")
  have hplace : (atPlace (.name "[key]") (text k)).Reports := hkey.mono fun _ _ => trivial
  exact (hplace.atPlace (keyPlace k)).mono fun _ _ => trivial

theorem reports_namedValues (v : Value) : (namedValues v).Reports := by
  unfold namedValues
  split
  · rename_i entries
    have hkeys : ∀ x ∈ entries.map fun entry => key entry.1, x.Reports := by
      intro x hx
      obtain ⟨entry, -, rfl⟩ := List.mem_map.mp hx
      exact reports_key entry.1
    split
    · simp
    · rename_i hfails
      exact (FailsWith.all hkeys).carry hfails
  · simp

theorem failsWith_required (name : String) {check : Value → Checked α}
    (h : ∀ v, (check v).Reports) (entries : List (Value × Value)) :
    (required name check entries).FailsWith (Fault.StandsAt (.name name)) := by
  unfold required
  apply Reports.atPlace
  split
  · rename_i v _
    exact h v
  · simp

theorem failsWith_withDefault (name : String) (default : α) {check : Value → Checked α}
    (h : ∀ v, (check v).Reports) (entries : List (Value × Value)) :
    (withDefault name default check entries).FailsWith (Fault.StandsAt (.name name)) := by
  unfold withDefault
  split
  · rename_i v _
    exact (h v).atPlace (.name name)
  · simp

end Check

end DocScan
