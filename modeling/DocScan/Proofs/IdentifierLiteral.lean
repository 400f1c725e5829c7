import DocScan.Query.Identifier
import Mathlib.Tactic

/-!
# Which texts are literals of identifiers

A literal is a run of word characters between quotes, inside `ObjectId(…)`.  A
quote is no word character, so the run is determined by the text, and the reading
of a text depends on nothing but that run: it is valid when it consists of
twenty-four hexadecimal digits.
-/

namespace DocScan

/-! ## Runs of hexadecimal digits -/

namespace Hex

def IsDigit (c : Char) : Prop := (digitValue? c).isSome = true

theorem length_of_decode? {cs : List Char} {bytes : List UInt8} (h : decode? cs = some bytes) :
    cs.length = 2 * bytes.length ∧ ∀ c ∈ cs, IsDigit c := by
  fun_induction decode? cs generalizing bytes with
  | case1 =>
    cases h
    exact ⟨rfl, List.forall_mem_nil _⟩
  | case2 => contradiction
  | case3 high low rest x y decoded hrest hlow hhigh ih =>
    cases h
    obtain ⟨hlength, hdigits⟩ := ih hrest
    refine ⟨?_, ?_⟩
    · simp only [List.length_cons, hlength]
      omega
    · rw [List.forall_mem_cons, List.forall_mem_cons]
      exact ⟨by simp [IsDigit, hhigh], by simp [IsDigit, hlow], hdigits⟩
  | case4 => contradiction

theorem exists_decode? {count : ℕ} {cs : List Char} (hlength : cs.length = 2 * count)
    (hdigits : ∀ c ∈ cs, IsDigit c) : ∃ bytes, decode? cs = some bytes ∧ bytes.length = count := by
  induction count generalizing cs with
  | zero =>
    rw [List.length_eq_zero_iff.mp hlength]
    exact ⟨[], rfl, rfl⟩
  | succ count ih =>
    obtain ⟨high, low, rest, rfl⟩ : ∃ high low rest, cs = high :: low :: rest := by
      match cs with
      | [] | [_] =>
        simp only [List.length_nil, List.length_cons] at hlength
        omega
      | high :: low :: rest => exact ⟨high, low, rest, rfl⟩
    rw [List.forall_mem_cons, List.forall_mem_cons] at hdigits
    obtain ⟨x, hx⟩ := Option.isSome_iff_exists.mp hdigits.1
    obtain ⟨y, hy⟩ := Option.isSome_iff_exists.mp hdigits.2.1
    simp only [List.length_cons] at hlength
    obtain ⟨bytes, hbytes, hcount⟩ := ih (by omega) hdigits.2.2
    refine ⟨UInt8.ofNat (16 * x + y) :: bytes, ?_, congrArg (· + 1) hcount⟩
    simp only [decode?, hx, hy, hbytes]

end Hex

/-- Exactly the runs of twenty-four hexadecimal digits stand for identifiers. -/
theorem ObjectId.isSome_ofHex? {digits : List Char} :
    (ObjectId.ofHex? digits).isSome = true ↔
      digits.length = 24 ∧ ∀ c ∈ digits, Hex.IsDigit c := by
  unfold ObjectId.ofHex?
  constructor
  · intro h
    split at h
    · rename_i bytes hbytes
      split at h
      · rename_i hlength
        obtain ⟨hdouble, hdigits⟩ := Hex.length_of_decode? hbytes
        exact ⟨by omega, hdigits⟩
      · contradiction
    · contradiction
  · rintro ⟨hlength, hdigits⟩
    have hdouble : digits.length = 2 * 12 := hlength
    obtain ⟨bytes, hbytes, hcount⟩ := Hex.exists_decode? hdouble hdigits
    rw [hbytes]
    simp [hcount]

namespace Identifier

variable {s : String} {body : List Char}

/-- A text is a literal around a run of word characters. -/
def IsLiteral (s : String) (body : List Char) : Prop :=
  ∃ q r, isQuote q = true ∧ isQuote r = true ∧ (∀ c ∈ body, Text.isWordCharacter c = true) ∧
    s.toList = opening ++ q :: (body ++ [r, ')'])

/-- A literal whose run of word characters is not twenty-four hexadecimal
digits. -/
def IsMalformed (s : String) : Prop :=
  ∃ body, IsLiteral s body ∧ ¬ (body.length = 24 ∧ ∀ c ∈ body, Hex.IsDigit c)

theorem isWordCharacter_of_isQuote {c : Char} (h : isQuote c = true) :
    Text.isWordCharacter c = false := by
  unfold isQuote at h
  simp only [Bool.or_eq_true, decide_eq_true_eq] at h
  rcases h with rfl | rfl <;> decide

theorem afterOpening?_eq_some_iff {cs rest : List Char} :
    afterOpening? cs = some rest ↔ cs = opening ++ rest := by
  unfold afterOpening?
  constructor
  · intro h
    split at h
    · rename_i hopening
      obtain ⟨after, rfl⟩ := List.isPrefixOf_iff_prefix.mp hopening
      rw [List.drop_left, Option.some.injEq] at h
      rw [h]
    · contradiction
  · rintro rfl
    rw [if_pos (List.isPrefixOf_iff_prefix.mpr (List.prefix_append _ _)), List.drop_left]

/-- The run ends at the first quote after it begins. -/
theorem span_literal {r : Char} (hr : isQuote r = true)
    (hbody : ∀ c ∈ body, Text.isWordCharacter c = true) :
    (body ++ [r, ')']).span Text.isWordCharacter = (body, [r, ')']) := by
  have hend : Text.isWordCharacter r = false := isWordCharacter_of_isQuote hr
  rw [List.span_eq_takeWhile_dropWhile, List.takeWhile_append_of_pos hbody,
    List.dropWhile_append_of_pos hbody]
  simp [hend]

theorem literalBody?_eq_some_iff : literalBody? s = some body ↔ IsLiteral s body := by
  constructor
  · intro h
    unfold literalBody? at h
    split at h
    · rename_i q rest hafter
      rw [afterOpening?_eq_some_iff] at hafter
      rw [List.span_eq_takeWhile_dropWhile] at h
      split at h
      · rename_i run r hspan
        simp only [Prod.mk.injEq] at hspan
        obtain ⟨rfl, hdrop⟩ := hspan
        simp only [Bool.and_eq_true, Option.ite_none_right_eq_some, Option.some.injEq] at h
        obtain ⟨⟨hq, hr⟩, rfl⟩ := h
        refine ⟨q, r, hq, hr, fun c hc => ?_, ?_⟩
        · exact List.all_eq_true.mp List.all_takeWhile c hc
        · rw [hafter, ← hdrop, List.takeWhile_append_dropWhile]
      · contradiction
    · contradiction
  · rintro ⟨q, r, hq, hr, hbody, htext⟩
    unfold literalBody?
    rw [afterOpening?_eq_some_iff.mpr htext]
    simp only [span_literal hr hbody, hq, hr, Bool.and_self, if_true]

theorem read_eq_invalid_iff : read s = .invalid ↔ IsMalformed s := by
  unfold IsMalformed
  simp only [← literalBody?_eq_some_iff, ← ObjectId.isSome_ofHex?]
  unfold read
  cases literalBody? s with
  | none => simp
  | some body =>
    cases hhex : ObjectId.ofHex? body with
    | none => simp [hhex]
    | some id => simp [hhex]

end Identifier

end DocScan
