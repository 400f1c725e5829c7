import DocScan.Text.Similarity
import Mathlib.Tactic

/-!
# What close matches depend on

The close matches of a word are found by its characters, one against one.  So a
character that no candidate has can be exchanged for any other such character
without a change to them, and a word made of such characters has none.
-/

namespace DocScan.Similarity

/-- The same characters, or two that both lie outside an alphabet. -/
def Exchangeable (alphabet : Char → Prop) (b c : Char) : Prop :=
  b = c ∨ ¬ alphabet b ∧ ¬ alphabet c

/-- Two words that differ only in characters outside an alphabet. -/
abbrev SameOver (alphabet : Char → Prop) (bs cs : List Char) : Prop :=
  List.Forall₂ (Exchangeable alphabet) bs cs

variable {alphabet : Char → Prop} {a b c : Char} {as bs cs : List Char}
  {admits admits' : Char → Bool}

theorem Exchangeable.eq_iff (h : Exchangeable alphabet b c) (ha : alphabet a) :
    a = b ↔ a = c := by
  rcases h with rfl | ⟨hb, hc⟩
  · rfl
  · constructor
    · rintro rfl
      exact absurd ha hb
    · rintro rfl
      exact absurd ha hc

theorem SameOver.count_eq (h : SameOver alphabet bs cs) (ha : alphabet a) :
    bs.count a = cs.count a := by
  induction h with
  | nil => rfl
  | @cons b c bs cs hchar _ ih =>
    have hsame : b = a ↔ c = a := by
      rw [eq_comm, hchar.eq_iff ha, eq_comm]
    simp [List.count_cons, ih, hsame]

theorem SameOver.isCommon_eq (h : SameOver alphabet bs cs) (ha : alphabet a) :
    isCommon bs a = isCommon cs a := by
  simp only [isCommon, h.length_eq, h.count_eq ha]

/-! ## Exchanged characters -/

section Exchange

variable (hadmits : ∀ a, alphabet a → admits a = admits' a)

include hadmits

theorem SameOver.sharedStart_eq (h : SameOver alphabet bs cs) (has : ∀ a ∈ as, alphabet a) :
    sharedStart admits as bs = sharedStart admits' as cs := by
  induction as generalizing bs cs with
  | nil => simp only [sharedStart]
  | cons a as ih =>
    rw [List.forall_mem_cons] at has
    cases h with
    | nil => simp only [sharedStart]
    | @cons b c bs cs hchar hrest =>
      simp only [sharedStart, ih hrest has.2]
      by_cases hab : a = b
      · have hac : a = c := (hchar.eq_iff has.1).mp hab
        simp only [← hab, ← hac, hadmits a has.1]
      · have hac : ¬ a = c := fun hac => hab ((hchar.eq_iff has.1).mpr hac)
        simp only [hab, hac, decide_false, Bool.false_and]

theorem SameOver.bestAt_eq (h : SameOver alphabet bs cs) (has : ∀ a ∈ as, alphabet a)
    (left right : ℕ) (best : Block) :
    bestAt admits as left bs right best = bestAt admits' as left cs right best := by
  induction h generalizing right best with
  | nil => rfl
  | @cons b c bs cs hchar hrest ih =>
    have hword : SameOver alphabet (b :: bs) (c :: cs) := .cons hchar hrest
    simp only [bestAt, hword.sharedStart_eq hadmits has, ih]

theorem SameOver.bestBlock_eq (h : SameOver alphabet bs cs) (has : ∀ a ∈ as, alphabet a)
    (left : ℕ) (best : Block) :
    bestBlock admits bs as left best = bestBlock admits' cs as left best := by
  induction as generalizing left best with
  | nil => rfl
  | cons a as ih =>
    have hbest := h.bestAt_eq hadmits has left 0 best
    simp only [bestBlock, hbest, ih (List.forall_mem_cons.mp has).2]

omit hadmits in
theorem SameOver.grow_eq (h : SameOver alphabet bs cs) (has : ∀ a ∈ as, alphabet a)
    (block : Block) : block.grow as bs = block.grow as cs := by
  have hany : ∀ a, alphabet a → (fun _ : Char => true) a = (fun _ : Char => true) a :=
    fun _ _ => rfl
  have hbefore : SameOver alphabet (bs.take block.right).reverse (cs.take block.right).reverse :=
    List.forall₂_reverse_iff.mpr (List.forall₂_take block.right h)
  have hbehind : SameOver alphabet (bs.drop (block.right + block.size))
      (cs.drop (block.right + block.size)) := List.forall₂_drop _ h
  have hback : ∀ a ∈ (as.take block.left).reverse, alphabet a :=
    fun a ha => has a (List.mem_of_mem_take (List.mem_reverse.mp ha))
  have hahead : ∀ a ∈ as.drop (block.left + block.size), alphabet a :=
    fun a ha => has a (List.mem_of_mem_drop ha)
  simp only [Block.grow, hbefore.sharedStart_eq hany hback, hbehind.sharedStart_eq hany hahead]

theorem SameOver.longestBlock_eq (h : SameOver alphabet bs cs) (has : ∀ a ∈ as, alphabet a) :
    longestBlock admits as bs = longestBlock admits' as cs := by
  rw [longestBlock, h.bestBlock_eq hadmits has, h.grow_eq has, longestBlock]

theorem SameOver.sharedCount_eq (h : SameOver alphabet bs cs) (has : ∀ a ∈ as, alphabet a) :
    sharedCount admits as bs = sharedCount admits' as cs := by
  induction hlength : as.length using Nat.strong_induction_on generalizing as bs cs with
  | h length ih =>
    subst hlength
    unfold sharedCount
    rw [h.longestBlock_eq hadmits has]
    rcases longestBlock admits' as cs with ⟨left, right, size⟩
    simp only
    split
    · rename_i hblock
      -- Both sides of the block are shorter than the whole.
      have hleft := ih (as.take left).length (by simp only [List.length_take]; omega)
        (List.forall₂_take right h) (fun a ha => has a (List.mem_of_mem_take ha)) rfl
      have hright := ih (as.drop (left + size)).length (by simp only [List.length_drop]; omega)
        (List.forall₂_drop (right + size) h) (fun a ha => has a (List.mem_of_mem_drop ha)) rfl
      rw [hleft, hright]
    · rfl

end Exchange

/-- Words that differ only in characters that no candidate has are close to the
same candidates. -/
theorem closeMatches_eq {word other : String} {candidates : List String}
    (hletters : ∀ text ∈ candidates, ∀ a ∈ text.toList, alphabet a)
    (h : SameOver alphabet word.toList other.toList) :
    closeMatches word candidates = closeMatches other candidates := by
  have hadmits : ∀ a, alphabet a →
      (!isCommon word.toList a) = !isCommon other.toList a :=
    fun a ha => by rw [h.isCommon_eq ha]
  have hscored : (candidates.map fun text =>
        Candidate.mk text
          (sharedCount (fun c => !isCommon word.toList c) text.toList word.toList)) =
      candidates.map fun text =>
        Candidate.mk text
          (sharedCount (fun c => !isCommon other.toList c) text.toList other.toList) := by
    apply List.map_congr_left
    intro text htext
    rw [h.sharedCount_eq hadmits (hletters text htext)]
  simp only [closeMatches, hscored, h.length_eq]

/-! ## Words without a character of any candidate -/

theorem sharedStart_eq_zero (h : ∀ a ∈ as, a ∉ bs) : sharedStart admits as bs = 0 := by
  cases as with
  | nil => simp only [sharedStart]
  | cons a as =>
    cases bs with
    | nil => simp only [sharedStart]
    | cons b bs =>
      have hne : ¬ a = b := by
        rintro rfl
        exact h a List.mem_cons_self List.mem_cons_self
      simp [sharedStart, hne]

theorem bestAt_eq_best (h : ∀ a ∈ as, a ∉ bs) (left right : ℕ) (best : Block) :
    bestAt admits as left bs right best = best := by
  induction bs generalizing right with
  | nil => rfl
  | cons b bs ih =>
    have hrest : ∀ a ∈ as, a ∉ bs := fun a ha hmem => h a ha (List.mem_cons_of_mem b hmem)
    simp [bestAt, sharedStart_eq_zero h, ih hrest]

theorem bestBlock_eq_best (h : ∀ a ∈ as, a ∉ bs) (left : ℕ) (best : Block) :
    bestBlock admits bs as left best = best := by
  induction as generalizing left with
  | nil => rfl
  | cons a as ih =>
    rw [bestBlock, bestAt_eq_best h, ih (List.forall_mem_cons.mp h).2]

theorem sharedCount_eq_zero (h : ∀ a ∈ as, a ∉ bs) : sharedCount admits as bs = 0 := by
  have hahead : sharedStart (fun _ => true) as bs = 0 := sharedStart_eq_zero h
  have hblock : (longestBlock admits as bs).size = 0 := by
    rw [longestBlock, bestBlock_eq_best h]
    simp [Block.grow, hahead, sharedStart]
  unfold sharedCount
  rcases hlongest : longestBlock admits as bs with ⟨left, right, size⟩
  rw [hlongest] at hblock
  simp only at hblock ⊢
  rw [if_neg (by omega)]

theorem closeMatches_eq_nil {word : String} {candidates : List String}
    (hne : ∀ text ∈ candidates, text ≠ "")
    (h : ∀ text ∈ candidates, ∀ a ∈ text.toList, a ∉ word.toList) :
    closeMatches word candidates = [] := by
  have hnone : ((candidates.map fun text => Candidate.mk text
        (sharedCount (fun c => !isCommon word.toList c) text.toList word.toList)).filter
      fun candidate => 3 * (candidate.text.length + word.toList.length) ≤
        10 * candidate.shared) = [] := by
    rw [List.filter_eq_nil_iff]
    intro candidate hcandidate
    obtain ⟨text, htext, rfl⟩ := List.mem_map.mp hcandidate
    have hlength : text.length ≠ 0 := by simpa using hne text htext
    simp only [sharedCount_eq_zero (h text htext), decide_eq_true_eq]
    omega
  simp [closeMatches, hnone]

end DocScan.Similarity
