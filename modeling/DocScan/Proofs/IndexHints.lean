import DocScan.Proofs.CheckResults
import DocScan.Proofs.OpeningTrace

/-!
# Index hints

A range of index keys is asked for by up to three requests: a hint, which names
the index, and then the two bounds.  The hint is made from the lower bound, or
from the upper one if that is the only one.  So it fits the lower bound whenever
there is one, and it fits the upper bound as well unless the two name different
fields or name them in different orders, which no check rules out.
-/

namespace DocScan

namespace Event

def isHint : Event → Bool
  | .hint _ => true
  | _ => false

def isBound : Event → Bool
  | .min _ | .max _ => true
  | _ => false

/-- The requests that restrict a cursor to a range. -/
def restricts (e : Event) : Bool := e.isHint || e.isBound

end Event

/-- A hint is given exactly if a bound is, once and before every bound. -/
structure HintsFirst (events : List Event) : Prop where
  given_iff : (∃ e ∈ events, e.isHint = true) ↔ ∃ e ∈ events, e.isBound = true
  once : events.countP Event.isHint ≤ 1
  first : events.Pairwise fun earlier later => later.isHint = true → earlier.isBound = false

/-- Where both bounds of a range name fields, they name the same ones in the same
order. -/
def KeyRange.BoundsAgree (range : KeyRange) : Prop :=
  ∀ lower upper, range.lower = some lower → range.upper = some upper →
    lower ≠ [] → upper ≠ [] → lower.map Prod.fst = upper.map Prod.fst

/-- Every bound that is asked for names the given fields in their order. -/
def FitsBounds (events : List Event) (fields : List String) : Prop :=
  ∀ bound, .min bound ∈ events ∨ .max bound ∈ events → bound.map Prod.fst = fields

variable {events : List Event} {range : KeyRange} {bound : Bound} {fields : List String}

/-- The other events do not matter. -/
theorem HintsFirst.of_filter (h : HintsFirst (events.filter Event.restricts)) :
    HintsFirst events := by
  have hhint (e : Event) (he : e.isHint = true) : e.restricts = true := by
    rw [Event.restricts, he, Bool.true_or]
  have hbound (e : Event) (he : e.isBound = true) : e.restricts = true := by
    rw [Event.restricts, he, Bool.or_true]
  constructor
  · have hgiven := h.given_iff
    simp only [List.mem_filter] at hgiven
    constructor
    · rintro ⟨e, hmem, he⟩
      obtain ⟨e', hmem', he'⟩ := hgiven.mp ⟨e, ⟨hmem, hhint e he⟩, he⟩
      exact ⟨e', hmem'.1, he'⟩
    · rintro ⟨e, hmem, he⟩
      obtain ⟨e', hmem', he'⟩ := hgiven.mpr ⟨e, ⟨hmem, hbound e he⟩, he⟩
      exact ⟨e', hmem'.1, he'⟩
  · have honce := h.once
    rw [List.countP_filter] at honce
    refine le_trans (le_of_eq ?_) honce
    apply List.countP_congr
    intro e _
    simp only [Bool.and_eq_true]
    exact ⟨fun he => ⟨he, hhint e he⟩, And.left⟩
  · have hfirst := List.pairwise_filter.mp h.first
    apply hfirst.imp
    intro earlier later hif hlater
    by_contra hearlier
    rw [Bool.not_eq_false] at hearlier
    have hnone := hif (hbound earlier hearlier) (hhint later hlater) hlater
    rw [hnone] at hearlier
    contradiction

/-! ## The requests of a range -/

theorem KeyRange.effective_eq_some_iff {given : Option Bound} :
    KeyRange.effective given = some bound ↔ given = some bound ∧ bound ≠ [] := by
  cases given with
  | none => simp [KeyRange.effective]
  | some entries =>
    cases entries with
    | nil =>
      simp only [KeyRange.effective, Option.some.injEq, reduceCtorEq, false_iff, not_and, not_not]
      exact Eq.symm
    | cons entry rest =>
      simp only [KeyRange.effective, Option.some.injEq]
      constructor
      · rintro rfl
        exact ⟨rfl, List.cons_ne_nil _ _⟩
      · exact And.left

namespace Reader

variable {r : Reader} {p : Partition} {w : Server}

/-- The fields of the hint are those of the first bound that names any. -/
theorem restrictTrace_eq (range : KeyRange) :
    restrictTrace range =
      match KeyRange.effective range.lower, KeyRange.effective range.upper with
      | none, none => []
      | some lower, none => [.hint (lower.map Prod.fst), .min lower]
      | none, some upper => [.hint (upper.map Prod.fst), .max upper]
      | some lower, some upper => [.hint (lower.map Prod.fst), .min lower, .max upper] := by
  unfold restrictTrace KeyRange.isBounded KeyRange.indexKey
  cases KeyRange.effective range.lower <;> cases KeyRange.effective range.upper <;> rfl

theorem hintsFirst_restrictTrace (range : KeyRange) : HintsFirst (restrictTrace range) := by
  rw [restrictTrace_eq]
  cases KeyRange.effective range.lower <;> cases KeyRange.effective range.upper <;>
    constructor <;> simp [Event.isHint, Event.isBound, List.countP_cons]

theorem min_mem_restrictTrace_iff :
    .min bound ∈ restrictTrace range ↔ range.lower = some bound ∧ bound ≠ [] := by
  rw [← KeyRange.effective_eq_some_iff, restrictTrace_eq]
  cases KeyRange.effective range.lower <;> cases KeyRange.effective range.upper <;>
    simp [eq_comm]

theorem max_mem_restrictTrace_iff :
    .max bound ∈ restrictTrace range ↔ range.upper = some bound ∧ bound ≠ [] := by
  rw [← KeyRange.effective_eq_some_iff, restrictTrace_eq]
  cases KeyRange.effective range.lower <;> cases KeyRange.effective range.upper <;>
    simp [eq_comm]

/-- A hint names the fields of the lower bound if that is asked for, and else those
of the upper one. -/
theorem fields_of_hint_mem (h : .hint fields ∈ restrictTrace range) :
    (∃ lower, .min lower ∈ restrictTrace range ∧ fields = lower.map Prod.fst) ∨
      (∀ lower, .min lower ∉ restrictTrace range) ∧
        ∃ upper, .max upper ∈ restrictTrace range ∧ fields = upper.map Prod.fst := by
  revert h
  rw [restrictTrace_eq]
  cases KeyRange.effective range.lower <;> cases KeyRange.effective range.upper <;> simp

theorem filter_restricts_openingTrace (r : Reader) (p : Partition) (query : Query) (client : ℕ) :
    (r.openingTrace p query client).filter Event.restricts = restrictTrace p.range := by
  have hnotes : ((r.connectionTo p.hosts).notes.map Event.log).filter Event.restricts = [] := by
    simp [List.filter_eq_nil_iff, Event.restricts, Event.isHint, Event.isBound]
  have hbatch : (r.config.batchSize.toList.map Event.batchSize).filter Event.restricts = [] := by
    cases r.config.batchSize <;> rfl
  have hrange : (restrictTrace p.range).filter Event.restricts = restrictTrace p.range := by
    rw [restrictTrace_eq]
    cases KeyRange.effective p.range.lower <;> cases KeyRange.effective p.range.upper <;> rfl
  unfold openingTrace
  simp only [List.filter_append, hnotes, hbatch, hrange, List.nil_append]
  exact List.append_nil _

/-- Of all events of an opening that succeeds, those of the range are known. -/
theorem filter_restricts_init (h : (init p r w).result = .ok ()) :
    (init p r w).events.filter Event.restricts = restrictTrace p.range := by
  obtain ⟨query, hopens⟩ := exists_opens h
  rw [hopens.events, filter_restricts_openingTrace]

theorem mem_init_iff (h : (init p r w).result = .ok ()) {e : Event} (he : e.restricts = true) :
    e ∈ (init p r w).events ↔ e ∈ restrictTrace p.range := by
  rw [← filter_restricts_init h, List.mem_filter]
  simp only [he, and_true]

/-! ## Fitting hints -/

/-- The hint of a range that is asked for fits the bounds exactly if they agree. -/
theorem fitsBounds_restrictTrace_iff (range : KeyRange) :
    (∀ fields, .hint fields ∈ restrictTrace range → FitsBounds (restrictTrace range) fields) ↔
      range.BoundsAgree := by
  constructor
  · intro hfits lower upper hlower hupper hlowerNe hupperNe
    have hmin : .min lower ∈ restrictTrace range := min_mem_restrictTrace_iff.mpr ⟨hlower, hlowerNe⟩
    have hmax : .max upper ∈ restrictTrace range := max_mem_restrictTrace_iff.mpr ⟨hupper, hupperNe⟩
    obtain ⟨e, hmem, he⟩ := (hintsFirst_restrictTrace range).given_iff.mpr ⟨_, hmin, rfl⟩
    -- one hint fits both bounds, so both name its fields
    cases e with
    | hint fields =>
      rw [hfits fields hmem lower (.inl hmin), hfits fields hmem upper (.inr hmax)]
    | _ => contradiction
  · intro hagree fields hhint bound hbound
    simp only [min_mem_restrictTrace_iff, max_mem_restrictTrace_iff] at hbound
    rcases fields_of_hint_mem hhint with ⟨lower, hmin, rfl⟩ | ⟨hnone, upper, hmax, rfl⟩
    · obtain ⟨hlower, hlowerNe⟩ := min_mem_restrictTrace_iff.mp hmin
      rcases hbound with ⟨hsame, -⟩ | ⟨hupper, hupperNe⟩
      · rw [Option.some.inj (hlower.symm.trans hsame)]
      · exact (hagree lower bound hlower hupper hlowerNe hupperNe).symm
    · obtain ⟨hupper, -⟩ := max_mem_restrictTrace_iff.mp hmax
      rcases hbound with hlower | ⟨hsame, -⟩
      · exact absurd (min_mem_restrictTrace_iff.mpr hlower) (hnone bound)
      · rw [Option.some.inj (hupper.symm.trans hsame)]

/-- An opening that succeeds on a partition that was accepted gives a hint exactly if
it asks for a bound, once and before the bounds, which are those of the partition
that name any field.  The hint names at least one field and none twice, and those
of the lower bound if that is asked for.  It fits all bounds that are asked for
exactly if they agree. -/
theorem init_hint_fits_iff {data : Value} (hp : Partition.ofArguments data = .ok p)
    (h : (init p r w).result = .ok ()) :
    let events := (init p r w).events
    HintsFirst events ∧
      (∀ bound, .min bound ∈ events ↔ p.range.lower = some bound ∧ bound ≠ []) ∧
      (∀ bound, .max bound ∈ events ↔ p.range.upper = some bound ∧ bound ≠ []) ∧
      (∀ fields, .hint fields ∈ events → fields ≠ [] ∧ fields.Nodup ∧
        ∀ lower, .min lower ∈ events → lower.map Prod.fst = fields) ∧
      ((∀ fields, .hint fields ∈ events → FitsBounds events fields) ↔ p.range.BoundsAgree) := by
  intro events
  have hmin (bound : Bound) : .min bound ∈ events ↔ .min bound ∈ restrictTrace p.range :=
    mem_init_iff h rfl
  have hmax (bound : Bound) : .max bound ∈ events ↔ .max bound ∈ restrictTrace p.range :=
    mem_init_iff h rfl
  have hhint (fields : List String) :
      .hint fields ∈ events ↔ .hint fields ∈ restrictTrace p.range := mem_init_iff h rfl
  have hdistinct := Partition.hasDistinctFields_of_ofArguments hp
  refine ⟨?first, ?lower, ?upper, ?fields, ?fits⟩
  case first =>
    apply HintsFirst.of_filter
    rw [filter_restricts_init h]
    exact hintsFirst_restrictTrace p.range
  case lower =>
    intro bound
    rw [hmin, min_mem_restrictTrace_iff]
  case upper =>
    intro bound
    rw [hmax, max_mem_restrictTrace_iff]
  case fields =>
    intro fields hmem
    rw [hhint] at hmem
    rcases fields_of_hint_mem hmem with ⟨lower, hlower, rfl⟩ | ⟨hnone, upper, hupper, rfl⟩
    · obtain ⟨hgiven, hne⟩ := min_mem_restrictTrace_iff.mp hlower
      refine ⟨by simpa using hne, hdistinct.lower lower hgiven, ?_⟩
      intro other hother
      rw [hmin, min_mem_restrictTrace_iff, hgiven] at hother
      rw [Option.some.inj hother.1]
    · obtain ⟨hgiven, hne⟩ := max_mem_restrictTrace_iff.mp hupper
      refine ⟨by simpa using hne, hdistinct.upper upper hgiven, ?_⟩
      intro other hother
      exact absurd ((hmin other).mp hother) (hnone other)
  case fits =>
    simp only [hhint, FitsBounds, hmin, hmax]
    exact fitsBounds_restrictTrace_iff p.range

/-- Bounds that name two fields in one order get a hint that fits both of them. -/
theorem init_hint_fits_iff_compound :
    let data : Value := .dict [(.text "hosts", .list [.text "h"]),
      (.text "partition_range", .dict [
        (.text "min_key", .dict [(.text "b", .int 0), (.text "a", .int 3)]),
        (.text "max_key", .dict [(.text "b", .int 9), (.text "a", .null)])])]
    let p : Partition := ⟨0, ["h"], ⟨some [("b", .int 0), ("a", .int 3)],
      some [("b", .int 9), ("a", .null)]⟩⟩
    let r : Reader := .fresh ⟨"db", "docs", [], "_id", none, 5000, 10000, []⟩ [] []
    let w : Server := ⟨[], fun _ => [], 0⟩
    Partition.ofArguments data = .ok p ∧ (init p r w).result = .ok () ∧
      .hint ["b", "a"] ∈ (init p r w).events ∧ HintsFirst (init p r w).events ∧
      FitsBounds (init p r w).events ["b", "a"] := by
  intro data p r w
  have hp : Partition.ofArguments data = .ok p := by decide +kernel
  have hok : (init p r w).result = .ok () := by decide +kernel
  have hhint : .hint ["b", "a"] ∈ (init p r w).events := by decide +kernel
  obtain ⟨hfirst, -, -, -, hfits⟩ := init_hint_fits_iff hp hok
  have hagree : p.range.BoundsAgree := by
    intro lower upper hlower hupper _ _
    cases hlower
    cases hupper
    rfl
  exact ⟨hp, hok, hhint, hfirst, hfits.mpr hagree _ hhint⟩

/-- A lower bound that names one field of an index, and an upper one that names two,
are accepted together, and the hint names one field. -/
theorem init_hint_misfits :
    ¬ ∀ (data : Value) (p : Partition) (r : Reader) (w : Server),
      Partition.ofArguments data = .ok p → (init p r w).result = .ok () →
      ∀ fields, .hint fields ∈ (init p r w).events → FitsBounds (init p r w).events fields := by
  intro hall
  let data : Value := .dict [(.text "hosts", .list [.text "h"]),
    (.text "partition_range", .dict [(.text "min_key", .dict [(.text "a", .int 1)]),
      (.text "max_key", .dict [(.text "a", .int 5), (.text "b", .int 0)])])]
  let upper : Bound := [("a", .int 5), ("b", .int 0)]
  let p : Partition := ⟨0, ["h"], ⟨some [("a", .int 1)], some upper⟩⟩
  let r : Reader := .fresh ⟨"db", "docs", [], "_id", none, 5000, 10000, []⟩ [] []
  let w : Server := ⟨[], fun _ => [], 0⟩
  have hp : Partition.ofArguments data = .ok p := by decide +kernel
  have hok : (init p r w).result = .ok () := by decide +kernel
  have hhint : .hint ["a"] ∈ (init p r w).events := by decide +kernel
  have hmax : .max upper ∈ (init p r w).events := by decide +kernel
  have hfits := hall data p r w hp hok ["a"] hhint upper (.inr hmax)
  exact absurd hfits (by decide)

end Reader

end DocScan
