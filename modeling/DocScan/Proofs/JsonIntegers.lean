import DocScan.JsonText.Token
import Mathlib.Tactic

/-!
# Integers in JSON text

A number is an integer when no fraction and no exponent follows its digits.  How
many digits it has is all that keeps an integer from being read: reading a scalar
stops at the digit limit exactly if the scalar is an integer with more digits.
-/

namespace DocScan.JsonText

open Decimal (maxDigits)

variable {cs rest start : List Char} {negative : Bool} {n : ℕ}

def digitFirst (cs : List Char) : Bool := cs.head?.any Decimal.isDigit

/-- What stands behind the digits of an integer does not carry on the number: it is
no further digit, no fraction, and no exponent, with a sign or without. -/
structure EndsInteger (rest : List Char) : Prop where
  noDigit : digitFirst rest = false
  noFraction : ∀ more, rest = '.' :: more → digitFirst more = false
  noExponent : ∀ mark more, rest = mark :: more → mark = 'e' ∨ mark = 'E' →
    digitFirst more = false ∧
      ∀ after, more = '+' :: after ∨ more = '-' :: after → digitFirst after = false

/-- A run begins with so many digits, of which the first is no zero, and which are
those of an integer.  A zero alone is left out: its digit is never one too many. -/
def BeginsWithDigits (cs : List Char) (count : ℕ) : Prop :=
  ∃ digits rest, cs = digits ++ rest ∧ digits.length = count ∧ digits ≠ [] ∧
    (∀ d ∈ digits, Decimal.isDigit d = true) ∧ digits.head? ≠ some '0' ∧ EndsInteger rest

/-- A run begins with an integer of so many digits. -/
def BeginsWithInteger (cs : List Char) (count : ℕ) : Prop :=
  BeginsWithDigits cs count ∨ ∃ rest, cs = '-' :: rest ∧ BeginsWithDigits rest count

theorem length_skipBlanks_lt {c : Char} (h : cs = c :: rest) :
    (skipBlanks rest).length < cs.length := by
  rw [h, List.length_cons]
  exact Nat.lt_succ_of_le (length_skipBlanks_le rest)

/-! ## What follows the digits -/

theorem isEmpty_leadingDigits : (leadingDigits cs).value.isEmpty = !digitFirst cs := by
  cases cs with
  | nil => rfl
  | cons c cs => by_cases hc : Decimal.isDigit c <;> simp [leadingDigits, digitFirst, hc]

theorem fraction_of_value_eq_nil (h : (fraction cs).value = []) : (fraction cs).rest = cs := by
  unfold fraction at h ⊢
  split
  · rename_i rest
    simp only at h ⊢
    split
    · rfl
    · rename_i hdigits
      rw [if_neg hdigits] at h
      exact absurd (List.isEmpty_iff.mpr h) hdigits
  · rfl

theorem fraction_eq_nil_iff :
    (fraction cs).value = [] ↔ ∀ more, cs = '.' :: more → digitFirst more = false := by
  unfold fraction
  split
  · rename_i rest
    cases hfirst : digitFirst rest with
    | false => simp [isEmpty_leadingDigits, hfirst]
    | true =>
      have hdigits : (leadingDigits rest).value ≠ [] := by
        rw [← List.isEmpty_eq_false_iff, isEmpty_leadingDigits, hfirst]
        rfl
      simp [isEmpty_leadingDigits, hfirst, hdigits]
  · rename_i hother
    simp only [true_iff]
    intro more hmore
    exact absurd hmore (hother more)

theorem digitFirst_sign :
    digitFirst (sign cs).rest = false ↔
      digitFirst cs = false ∧
        ∀ after, cs = '+' :: after ∨ cs = '-' :: after → digitFirst after = false := by
  have hminus : Decimal.isDigit '-' = false := rfl
  have hplus : Decimal.isDigit '+' = false := rfl
  unfold sign
  split
  · simp [digitFirst, hminus]
  · simp [digitFirst, hplus]
  · rename_i hnoMinus hnoPlus
    simp only [iff_self_and]
    rintro - after (hafter | hafter)
    · exact absurd hafter (hnoPlus after)
    · exact absurd hafter (hnoMinus after)

theorem exponent_eq_none_iff :
    (exponent cs).value = none ↔
      ∀ mark more, cs = mark :: more → mark = 'e' ∨ mark = 'E' →
        digitFirst more = false ∧
          ∀ after, more = '+' :: after ∨ more = '-' :: after → digitFirst after = false := by
  simp only [← digitFirst_sign]
  cases cs with
  | nil => simp [exponent]
  | cons mark more =>
    by_cases hmark : mark = 'e' ∨ mark = 'E'
    · cases hfirst : digitFirst (sign more).rest with
      | false => simp [exponent, hmark, isEmpty_leadingDigits, hfirst]
      | true =>
        have hdigits : (leadingDigits (sign more).rest).value.isEmpty = false := by
          rw [isEmpty_leadingDigits, hfirst]
          rfl
        simp only [exponent, if_pos hmark, hdigits, Bool.false_eq_true, if_false, reduceCtorEq,
          false_iff]
        intro hall
        rw [hall mark more rfl hmark] at hfirst
        contradiction
    · simp [exponent, hmark]

/-! ## The digit limit -/

theorem numberOfParts_eq_limit_iff {whole fraction : List Char} {exponent : Option ℤ} :
    numberOfParts negative whole fraction exponent = .error (.digitLimit n) ↔
      fraction = [] ∧ exponent = none ∧ whole.length = n ∧ maxDigits < n := by
  unfold numberOfParts
  cases exponent with
  | some e => simp
  | none =>
    cases fraction with
    | cons d ds => simp
    | nil =>
      by_cases hlength : maxDigits < whole.length
      · simp only [List.isEmpty_nil, Option.isNone_none, Bool.and_self, if_true, if_pos hlength,
          Except.error.injEq, Stop.digitLimit.injEq, true_and]
        constructor
        · rintro rfl
          exact ⟨rfl, hlength⟩
        · exact And.left
      · simp only [List.isEmpty_nil, Option.isNone_none, Bool.and_self, if_true, if_neg hlength,
          reduceCtorEq, true_and, false_iff]
        rintro ⟨rfl, hn⟩
        exact hlength hn

theorem digitFirst_dropWhile (cs : List Char) :
    digitFirst (cs.dropWhile Decimal.isDigit) = false := by
  induction cs with
  | nil => rfl
  | cons c cs ih =>
    by_cases hc : Decimal.isDigit c
    · rw [List.dropWhile_cons_of_pos hc, ih]
    · rw [List.dropWhile_cons_of_neg hc]
      simpa [digitFirst] using hc

theorem leadingDigits_append {digits : List Char}
    (hdigits : ∀ d ∈ digits, Decimal.isDigit d = true) (hrest : digitFirst rest = false) :
    (leadingDigits (digits ++ rest)).value = digits ∧
      (leadingDigits (digits ++ rest)).rest = rest := by
  have hstop : rest.takeWhile Decimal.isDigit = [] ∧ rest.dropWhile Decimal.isDigit = rest := by
    cases rest with
    | nil => exact ⟨rfl, rfl⟩
    | cons c rest =>
      have hc : Decimal.isDigit c = false := hrest
      simp [hc]
  simp only [leadingDigits]
  rw [List.takeWhile_append_of_pos hdigits, List.dropWhile_append_of_pos hdigits, hstop.1,
    hstop.2, List.append_nil]
  exact ⟨rfl, rfl⟩

/-- The digits that are taken are a zero alone or all the leading ones. -/
theorem takeWhole?_cases {whole : Taken (List Char) cs} (h : takeWhole? cs = some whole) :
    whole.value = ['0'] ∨
      (cs = whole.value ++ whole.rest ∧ whole.value ≠ [] ∧
        (∀ d ∈ whole.value, Decimal.isDigit d = true) ∧ whole.value.head? ≠ some '0' ∧
        digitFirst whole.rest = false) := by
  unfold takeWhole? at h
  split at h
  · cases h
    exact .inl rfl
  · rename_i c more hzero
    split at h
    · rename_i hc
      cases h
      refine .inr ⟨?_, List.cons_ne_nil _ _, ?_, ?_, digitFirst_dropWhile more⟩
      · simp [leadingDigits]
      · exact List.forall_mem_cons.mpr ⟨hc, List.all_eq_true.mp List.all_takeWhile⟩
      · rintro hfirst
        cases hfirst
        exact hzero rfl
    · contradiction
  · contradiction

theorem takeWhole?_append {digits : List Char} (hne : digits ≠ [])
    (hdigits : ∀ d ∈ digits, Decimal.isDigit d = true) (hfirst : digits.head? ≠ some '0')
    (hrest : digitFirst rest = false) :
    ∃ whole, takeWhole? (digits ++ rest) = some whole ∧ whole.value = digits ∧
      whole.rest = rest := by
  cases digits with
  | nil => contradiction
  | cons d ds =>
    rw [List.forall_mem_cons] at hdigits
    have hzero : d ≠ '0' := by
      rintro rfl
      exact hfirst rfl
    obtain ⟨hvalue, hbehind⟩ := leadingDigits_append hdigits.2 hrest
    rw [List.cons_append, takeWhole?]
    · rw [if_pos hdigits.1]
      exact ⟨_, rfl, congrArg _ hvalue, hbehind⟩
    · exact hzero

theorem takeUnsigned_eq_limit_iff :
    takeUnsigned start negative cs = .error (.digitLimit n) ↔
      BeginsWithDigits cs n ∧ maxDigits < n := by
  have hparts : ∀ whole : Taken (List Char) cs, takeWhole? cs = some whole →
      (takeUnsigned start negative cs = .error (.digitLimit n) ↔
        numberOfParts negative whole.value (fraction whole.rest).value
          (exponent (fraction whole.rest).rest).value = .error (.digitLimit n)) := by
    intro whole hwhole
    simp only [takeUnsigned, hwhole]
    cases numberOfParts negative whole.value (fraction whole.rest).value
      (exponent (fraction whole.rest).rest).value with
    | ok value => simp
    | error stop => simp
  constructor
  · intro h
    cases hwhole : takeWhole? cs with
    | none => simp [takeUnsigned, hwhole] at h
    | some whole =>
      rw [hparts whole hwhole, numberOfParts_eq_limit_iff] at h
      obtain ⟨hfraction, hexponent, hlength, hlimit⟩ := h
      rw [fraction_of_value_eq_nil hfraction] at hexponent
      refine ⟨?_, hlimit⟩
      rcases takeWhole?_cases hwhole with hzero | ⟨hsplit, hne, hdigits, hfirst, hrest⟩
      · rw [hzero] at hlength
        subst hlength
        contradiction
      · exact ⟨_, _, hsplit, hlength, hne, hdigits, hfirst, hrest, fraction_eq_nil_iff.mp hfraction,
          exponent_eq_none_iff.mp hexponent⟩
  · rintro ⟨⟨digits, rest, rfl, hlength, hne, hdigits, hfirst, hend⟩, hlimit⟩
    obtain ⟨whole, hwhole, hvalue, hbehind⟩ := takeWhole?_append hne hdigits hfirst hend.noDigit
    have hfraction : (fraction whole.rest).value = [] := by
      rw [hbehind]
      exact fraction_eq_nil_iff.mpr hend.noFraction
    rw [hparts whole hwhole, numberOfParts_eq_limit_iff, fraction_of_value_eq_nil hfraction, hvalue,
      hbehind]
    rw [hbehind] at hfraction
    exact ⟨hfraction, exponent_eq_none_iff.mpr hend.noExponent, hlength, hlimit⟩

theorem BeginsWithDigits.digitFirst (h : BeginsWithDigits cs n) : digitFirst cs = true := by
  obtain ⟨digits, rest, rfl, -, hne, hdigits, -, -⟩ := h
  cases digits with
  | nil => contradiction
  | cons d ds => exact hdigits d List.mem_cons_self

theorem takeNumber_eq_limit_iff :
    takeNumber cs = .error (.digitLimit n) ↔ BeginsWithInteger cs n ∧ maxDigits < n := by
  unfold takeNumber
  split
  · rename_i rest
    have hunsigned : ¬ BeginsWithDigits ('-' :: rest) n := by
      intro hdigits
      have hminus : JsonText.digitFirst ('-' :: rest) = false := rfl
      rw [hdigits.digitFirst] at hminus
      contradiction
    have hbegins : BeginsWithInteger ('-' :: rest) n ↔ BeginsWithDigits rest n := by
      unfold BeginsWithInteger
      rw [or_iff_right hunsigned]
      simp
    rw [hbegins, ← @takeUnsigned_eq_limit_iff rest ('-' :: rest) true]
    cases takeUnsigned ('-' :: rest) true rest <;> simp
  · rename_i hsign
    have hbegins : BeginsWithInteger cs n ↔ BeginsWithDigits cs n := by
      unfold BeginsWithInteger
      refine or_iff_left ?_
      rintro ⟨rest, rfl, -⟩
      exact hsign rest rfl
    rw [hbegins, takeUnsigned_eq_limit_iff]

/-- Reading a scalar stops at the digit limit for integers with more digits. -/
theorem takeScalar_eq_limit_iff :
    takeScalar cs = .error (.digitLimit n) ↔ BeginsWithInteger cs n ∧ maxDigits < n := by
  have hletters : ∀ c ∈ ['n', 't', 'f', 'N', 'I'], Decimal.isDigit c = false := by
    simp [Decimal.isDigit]
  rw [← takeNumber_eq_limit_iff]
  unfold takeScalar
  split
  -- the names do not begin with a digit, nor does what follows the sign of one
  all_goals simp [takeNumber, takeUnsigned, takeWhole?, hletters]

end DocScan.JsonText
