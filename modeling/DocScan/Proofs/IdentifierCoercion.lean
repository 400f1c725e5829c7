import DocScan.Proofs.IdentifierLiteral
import DocScan.Query.Compilation
import Mathlib.Tactic

/-!
# What literals of identifiers stand for

On the identifier field a literal stands for the identifier whose digits it
gives, in either case.  A literal around anything else is refused.  Whatever is
no literal stays as it is, and so does every value on another field.  An
identifier written as a literal is read again as itself, and what was coerced
once is not changed by coercing it again.
-/

namespace DocScan

/-! ## Digits in either case -/

namespace Hex

variable {c : Char} {bytes : List UInt8}

/-- The digits are among the characters up to the letter f, so that what holds of
all digits can be checked one by one. -/
theorem forall_isDigit {P : Char → Prop}
    (h : ∀ k : Fin 103, IsDigit (Char.ofNat k) → P (Char.ofNat k)) (hc : IsDigit c) : P c := by
  have hrange : c.toNat ≤ 'f'.toNat := by
    have hdigits : '9'.toNat ≤ 'f'.toNat := by decide
    have hletters : 'F'.toNat ≤ 'f'.toNat := by decide
    unfold IsDigit digitValue? at hc
    split at hc
    · rename_i hdigit
      exact le_trans hdigit.2 hdigits
    · split at hc
      · rename_i hlower
        exact hlower.2
      · split at hc
        · rename_i hupper
          exact le_trans hupper.2 hletters
        · contradiction
  have hcase := h ⟨c.toNat, Nat.lt_succ_of_le hrange⟩
  rw [Char.ofNat_toNat] at hcase
  exact hcase hc

/-- A digit is written again in lower case. -/
theorem digit_of_digitValue? {n : ℕ} (h : digitValue? c = some n) :
    n < 16 ∧ digit n = c.toLower := by
  have hall : ∀ m ∈ digitValue? c, m < 16 ∧ digit m = c.toLower := by
    apply forall_isDigit (P := fun c => ∀ m ∈ digitValue? c, m < 16 ∧ digit m = c.toLower)
    · unfold IsDigit
      decide
    · rw [IsDigit, h]
      rfl
  exact hall n h

theorem isWordCharacter_of_isDigit (h : IsDigit c) : Text.isWordCharacter c = true := by
  apply forall_isDigit (P := fun c => Text.isWordCharacter c = true) ?_ h
  unfold IsDigit
  decide

theorem encode_of_decode? {cs : List Char} (h : decode? cs = some bytes) :
    encode bytes = cs.map Char.toLower := by
  fun_induction decode? cs generalizing bytes with
  | case1 =>
    cases h
    rfl
  | case2 => contradiction
  | case3 high low rest x y decoded hrest hlow hhigh ih =>
    cases h
    obtain ⟨hx, hhighDigit⟩ := digit_of_digitValue? hhigh
    obtain ⟨hy, hlowDigit⟩ := digit_of_digitValue? hlow
    have hbyte : (UInt8.ofNat (16 * x + y)).toNat = 16 * x + y := by
      rw [UInt8.toNat_ofNat']
      omega
    have hdiv : (16 * x + y) / 16 = x := by omega
    have hmod : (16 * x + y) % 16 = y := by omega
    rw [encode, hbyte, hdiv, hmod, hhighDigit, hlowDigit, ih hrest]
    rfl
  | case4 => contradiction

theorem encode_injective {a b : List UInt8} (h : encode a = encode b) : a = b := by
  have hdecoded := decode?_encode a
  rw [h, decode?_encode] at hdecoded
  exact (Option.some.inj hdecoded).symm

theorem isDigit_of_mem_encode (h : c ∈ encode bytes) : IsDigit c :=
  (length_of_decode? (decode?_encode bytes)).2 c h

end Hex

/-- The identifier of twenty-four digits is the one whose own digits are the same in
lower case. -/
theorem ObjectId.ofHex?_eq_some_iff {digits : List Char} {id : ObjectId} :
    ofHex? digits = some id ↔
      (digits.length = 24 ∧ ∀ c ∈ digits, Hex.IsDigit c) ∧
        Hex.encode id.bytes = digits.map Char.toLower := by
  have hwritten : ∀ {other}, ofHex? digits = some other →
      Hex.encode other.bytes = digits.map Char.toLower := by
    intro other hother
    unfold ofHex? at hother
    split at hother
    · rename_i bytes hbytes
      split at hother
      · cases hother
        exact Hex.encode_of_decode? hbytes
      · contradiction
    · contradiction
  constructor
  · intro h
    exact ⟨isSome_ofHex?.mp (Option.isSome_iff_exists.mpr ⟨id, h⟩), hwritten h⟩
  · rintro ⟨hdigits, hid⟩
    obtain ⟨other, hother⟩ := Option.isSome_iff_exists.mp (isSome_ofHex?.mpr hdigits)
    have hbytes := Hex.encode_injective ((hwritten hother).trans hid.symm)
    cases other
    cases id
    cases hbytes
    exact hother

/-! ## What a text is read as -/

namespace Identifier

variable {s : String} {body : List Char} {id : ObjectId}

theorem read_eq_noLiteral_iff : read s = .noLiteral ↔ ∀ body, ¬ IsLiteral s body := by
  simp only [← literalBody?_eq_some_iff]
  unfold read
  cases literalBody? s with
  | none => simp
  | some body => cases hhex : ObjectId.ofHex? body <;> simp [hhex]

theorem read_eq_valid_iff :
    read s = .valid id ↔ ∃ body, IsLiteral s body ∧ ObjectId.ofHex? body = some id := by
  simp only [← literalBody?_eq_some_iff]
  unfold read
  cases literalBody? s with
  | none => simp
  | some body => cases hhex : ObjectId.ofHex? body <;> simp [hhex]

theorem isLiteral_append {before after : String} {q r : Char} (hq : isQuote q = true)
    (hr : isQuote r = true) (hbefore : before.toList = opening ++ [q])
    (hafter : after.toList = [r, ')']) (hbody : ∀ c ∈ body, Text.isWordCharacter c = true) :
    IsLiteral (before ++ String.ofList body ++ after) body := by
  refine ⟨q, r, hq, hr, hbody, ?_⟩
  rw [String.toList_append, String.toList_append, String.toList_ofList, hbefore, hafter]
  simp

/-- The literals of an identifier, between quotes of either kind. -/
theorem isLiteral_hex (id : ObjectId) :
    IsLiteral ("ObjectId(\"" ++ id.hex ++ "\")") (Hex.encode id.bytes) ∧
      IsLiteral ("ObjectId('" ++ id.hex ++ "')") (Hex.encode id.bytes) := by
  have hword : ∀ c ∈ Hex.encode id.bytes, Text.isWordCharacter c = true := fun c hc =>
    Hex.isWordCharacter_of_isDigit (Hex.isDigit_of_mem_encode hc)
  have hdouble : isQuote '"' = true := rfl
  have hsingle : isQuote '\'' = true := rfl
  exact ⟨isLiteral_append hdouble hdouble rfl rfl hword,
    isLiteral_append hsingle hsingle rfl rfl hword⟩

theorem read_of_isLiteral_hex (h : IsLiteral s (Hex.encode id.bytes)) : read s = .valid id := by
  have hlower : (Hex.encode id.bytes).map Char.toLower = Hex.encode id.bytes :=
    (Hex.encode_of_decode? (Hex.decode?_encode id.bytes)).symm
  have hlength : (Hex.encode id.bytes).length = 24 := by
    rw [Hex.length_encode, id.length_bytes]
  refine read_eq_valid_iff.mpr ⟨_, h, ObjectId.ofHex?_eq_some_iff.mpr ⟨⟨hlength, ?_⟩, ?_⟩⟩
  · exact fun c hc => Hex.isDigit_of_mem_encode hc
  · exact hlower.symm

end Identifier

/-! ## What values are coerced to -/

/-- What a value on a field is coerced to, or how it is refused. -/
inductive Coerces (idField field : String) : Value → Except CompileError Value → Prop where
  | otherField (value : Value) (h : field ≠ idField) : Coerces idField field value (.ok value)
  | noLiteral {value : Value}
      (h : ∀ s body, value = .text s → ¬ Identifier.IsLiteral s body) :
      Coerces idField field value (.ok value)
  | identifier {s : String} {body : List Char} {id : ObjectId} (hfield : field = idField)
      (hliteral : Identifier.IsLiteral s body)
      (hdigits : body.length = 24 ∧ ∀ c ∈ body, Hex.IsDigit c)
      (hid : Hex.encode id.bytes = body.map Char.toLower) :
      Coerces idField field (.text s) (.ok (.objectId id))
  | malformed {s : String} (hfield : field = idField) (hliteral : Identifier.IsMalformed s) :
      Coerces idField field (.text s) (.error (.invalidIdentifier field s))

variable {idField field : String} {value : Value} {outcome : Except CompileError Value}

theorem coerceIdentifier_of_noLiteral
    (h : ∀ s body, value = .text s → ¬ Identifier.IsLiteral s body) :
    coerceIdentifier idField field value = .ok value := by
  unfold coerceIdentifier
  split
  · cases value with
    | text s =>
      have hread := Identifier.read_eq_noLiteral_iff.mpr fun body => h s body rfl
      simp only [hread]
    | _ => rfl
  · rfl

theorem coerceIdentifier_of_coerces (h : Coerces idField field value outcome) :
    coerceIdentifier idField field value = outcome := by
  cases h with
  | otherField _ hfield => exact if_neg hfield
  | noLiteral hvalue => exact coerceIdentifier_of_noLiteral hvalue
  | identifier hfield hliteral hdigits hid =>
    have hhex := ObjectId.ofHex?_eq_some_iff.mpr ⟨hdigits, hid⟩
    have hread := Identifier.read_eq_valid_iff.mpr ⟨_, hliteral, hhex⟩
    simp only [coerceIdentifier, if_pos hfield, hread]
  | malformed hfield hliteral =>
    have hread := Identifier.read_eq_invalid_iff.mpr hliteral
    simp only [coerceIdentifier, if_pos hfield, hread]

theorem coerces_coerceIdentifier (idField field : String) (value : Value) :
    Coerces idField field value (coerceIdentifier idField field value) := by
  by_cases hfield : field = idField
  swap
  · rw [show coerceIdentifier idField field value = .ok value from if_neg hfield]
    exact .otherField value hfield
  by_cases hvalue : ∃ s body, value = .text s ∧ Identifier.IsLiteral s body
  swap
  · have hother : ∀ s body, value = .text s → ¬ Identifier.IsLiteral s body := by
      intro s body hs hliteral
      exact hvalue ⟨s, body, hs, hliteral⟩
    rw [coerceIdentifier_of_noLiteral hother]
    exact .noLiteral hother
  obtain ⟨s, body, rfl, hliteral⟩ := hvalue
  by_cases hdigits : body.length = 24 ∧ ∀ c ∈ body, Hex.IsDigit c
  · obtain ⟨id, hid⟩ := Option.isSome_iff_exists.mp (ObjectId.isSome_ofHex?.mpr hdigits)
    have hcoerces : Coerces idField field (.text s) (.ok (.objectId id)) :=
      .identifier hfield hliteral hdigits (ObjectId.ofHex?_eq_some_iff.mp hid).2
    rw [coerceIdentifier_of_coerces hcoerces]
    exact hcoerces
  · have hcoerces : Coerces idField field (.text s) (.error (.invalidIdentifier field s)) :=
      .malformed hfield ⟨body, hliteral, hdigits⟩
    rw [coerceIdentifier_of_coerces hcoerces]
    exact hcoerces

theorem coerceIdentifier_of_objectId (id : ObjectId) :
    coerceIdentifier idField field (.objectId id) = .ok (.objectId id) :=
  coerceIdentifier_of_noLiteral nofun

/-- A value is coerced exactly as what it stands for says, and refused as malformed
where it is refused.  Both literals of an identifier are coerced to it, and what a
value was coerced to is left as it is. -/
theorem coerceIdentifier_exact (idField field : String) (value : Value) :
    (∀ outcome, coerceIdentifier idField field value = outcome ↔
      Coerces idField field value outcome) ∧
    (∀ e, coerceIdentifier idField field value = .error e → e.refusal? = some .malformed) ∧
    (∀ id : ObjectId,
      coerceIdentifier idField idField (.text ("ObjectId(\"" ++ id.hex ++ "\")")) =
          .ok (.objectId id) ∧
        coerceIdentifier idField idField (.text ("ObjectId('" ++ id.hex ++ "')")) =
          .ok (.objectId id)) ∧
    ∀ coerced, coerceIdentifier idField field value = .ok coerced →
      coerceIdentifier idField field coerced = .ok coerced := by
  have hcoerces := coerces_coerceIdentifier idField field value
  refine ⟨?exact, ?refused, ?literals, ?again⟩
  case exact =>
    intro outcome
    constructor
    · rintro rfl
      exact hcoerces
    · exact coerceIdentifier_of_coerces
  case refused =>
    intro e h
    rw [h] at hcoerces
    cases hcoerces
    rfl
  case literals =>
    intro id
    obtain ⟨hdouble, hsingle⟩ := Identifier.isLiteral_hex id
    simp only [coerceIdentifier, if_pos, Identifier.read_of_isLiteral_hex hdouble,
      Identifier.read_of_isLiteral_hex hsingle, and_self]
  case again =>
    intro coerced h
    rw [h] at hcoerces
    cases hcoerces with
    | otherField | noLiteral => exact h
    | identifier => exact coerceIdentifier_of_objectId _

/-- A literal in letters of both cases is coerced to its identifier and stays it, and
one that is too short is refused. -/
theorem coerceIdentifier_exact_mixed_case :
    let id : ObjectId :=
      ⟨[0x50, 0x7F, 0x19, 0x1E, 0x81, 0x0C, 0x19, 0x72, 0x9D, 0xE8, 0x60, 0xEA], rfl⟩
    let literal : Value := .text "ObjectId('507F191e810c19729DE860ea\")"
    Coerces "_id" "_id" literal (.ok (.objectId id)) ∧
      coerceIdentifier "_id" "_id" (.objectId id) = .ok (.objectId id) ∧
      (CompileError.invalidIdentifier "_id" "ObjectId(\"50\")").refusal? = some .malformed := by
  intro id literal
  have hliteral : coerceIdentifier "_id" "_id" literal = .ok (.objectId id) := by decide +kernel
  have hshort : coerceIdentifier "_id" "_id" (.text "ObjectId(\"50\")") =
      .error (.invalidIdentifier "_id" "ObjectId(\"50\")") := by decide +kernel
  have hexact := coerceIdentifier_exact "_id" "_id" literal
  exact ⟨(hexact.1 _).mp hliteral, hexact.2.2.2 _ hliteral,
    (coerceIdentifier_exact "_id" "_id" _).2.1 _ hshort⟩

end DocScan
