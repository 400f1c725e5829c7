import DocScan.Filter.JsonForm
import DocScan.Proofs.JsonIntegers
import DocScan.Proofs.WireGrammar

/-!
# Values in JSON text can be shown

Integers are read with at most as many digits as they are shown with, and all values
that are read are made from what is read.  So what a JSON text holds can be shown, and
a fault of the filters in it always makes the text refused.
-/

namespace DocScan

/-! ## Numbers -/

namespace Decimal

theorem digitValue_lt {c : Char} (h : isDigit c = true) : digitValue c < 10 := by
  have hbounds : '0' ≤ c ∧ c ≤ '9' := by simpa [isDigit] using h
  have hlast : c.toNat ≤ 57 := hbounds.2
  unfold digitValue
  omega

theorem foldl_digits_lt {digits : List Char} (h : ∀ d ∈ digits, isDigit d = true) (start : ℕ) :
    digits.foldl (fun n c => 10 * n + digitValue c) start < (start + 1) * 10 ^ digits.length := by
  induction digits generalizing start with
  | nil => simp
  | cons d ds ih =>
    rw [List.forall_mem_cons] at h
    have hdigit := digitValue_lt h.1
    calc (d :: ds).foldl (fun n c => 10 * n + digitValue c) start
      _ < (10 * start + digitValue d + 1) * 10 ^ ds.length := ih h.2 _
      _ ≤ (10 * (start + 1)) * 10 ^ ds.length := Nat.mul_le_mul_right _ (by omega)
      _ = (start + 1) * 10 ^ (d :: ds).length := by rw [List.length_cons, pow_succ]; ring

theorem ofDigits_lt {digits : List Char} (h : ∀ d ∈ digits, isDigit d = true) :
    ofDigits digits < 10 ^ digits.length := by
  simpa [ofDigits] using foldl_digits_lt h 0

end Decimal

namespace JsonText

open Value (isLegible_list_iff isLegible_dict_iff)

variable {cs rest start : List Char} {negative : Bool}

theorem isLegible_of_numberOfParts {whole fraction : List Char} {exponent : Option ℤ}
    {value : Value} (hwhole : ∀ d ∈ whole, Decimal.isDigit d = true)
    (h : numberOfParts negative whole fraction exponent = .ok value) : value.IsLegible := by
  unfold numberOfParts at h
  split at h
  · split at h
    · contradiction
    · rename_i hlength
      cases h
      have hshort : Decimal.ofDigits whole < 10 ^ Decimal.maxDigits :=
        calc Decimal.ofDigits whole
          _ < 10 ^ whole.length := Decimal.ofDigits_lt hwhole
          _ ≤ 10 ^ Decimal.maxDigits := Nat.pow_le_pow_right (by decide) (Nat.le_of_not_lt hlength)
      cases negative <;> simpa [Value.IsLegible, Value.integers, Decimal.Fits] using hshort
  · cases h
    simp [Value.IsLegible, Value.integers]

theorem isLegible_of_takeUnsigned {number : Taken Value cs}
    (h : takeUnsigned start negative cs = .ok number) : number.value.IsLegible := by
  unfold takeUnsigned at h
  split at h
  · contradiction
  · rename_i whole hwhole
    simp only at h
    split at h
    · contradiction
    · rename_i value hvalue
      cases h
      refine isLegible_of_numberOfParts ?_ hvalue
      rcases takeWhole?_cases hwhole with hzero | ⟨-, -, hdigits, -⟩
      · simp [hzero, Decimal.isDigit]
      · exact hdigits

theorem isLegible_of_takeNumber {number : Taken Value cs} (h : takeNumber cs = .ok number) :
    number.value.IsLegible := by
  unfold takeNumber at h
  split at h
  · split at h
    · contradiction
    · rename_i unsigned hunsigned
      have hvalue := isLegible_of_takeUnsigned hunsigned
      cases h
      exact hvalue
  · exact isLegible_of_takeUnsigned h

theorem isLegible_of_takeScalar {scalar : Taken Value cs} (h : takeScalar cs = .ok scalar) :
    scalar.value.IsLegible := by
  unfold takeScalar at h
  split at h
  case h_7 => exact isLegible_of_takeNumber h
  all_goals
    cases h
    simp [Value.IsLegible, Value.integers]

/-! ## Lists and objects -/

theorem isLegible_setEntry {key value : Value} {entries : List (Value × Value)}
    (hkey : key.IsLegible) (hvalue : value.IsLegible)
    (h : ∀ entry ∈ entries, entry.1.IsLegible ∧ entry.2.IsLegible) :
    ∀ entry ∈ Value.setEntry key value entries, entry.1.IsLegible ∧ entry.2.IsLegible := by
  induction entries with
  | nil => simpa [Value.setEntry] using ⟨hkey, hvalue⟩
  | cons entry rest ih =>
    rw [List.forall_mem_cons] at h
    rw [Value.setEntry]
    split
    · exact List.forall_mem_cons.mpr ⟨⟨h.1.1, hvalue⟩, h.2⟩
    · exact List.forall_mem_cons.mpr ⟨h.1, ih h.2⟩

theorem isLegible_dictOf {entries : List (Value × Value)}
    (h : (Value.dict entries).IsLegible) : (Value.dictOf entries).IsLegible := by
  rw [isLegible_dict_iff] at h
  unfold Value.dictOf
  rw [isLegible_dict_iff]
  have hempty : ∀ entry ∈ ([] : List (Value × Value)), entry.1.IsLegible ∧ entry.2.IsLegible :=
    List.forall_mem_nil _
  generalize ([] : List (Value × Value)) = set at hempty
  induction entries generalizing set with
  | nil => exact hempty
  | cons entry rest ih =>
    rw [List.forall_mem_cons] at h
    exact ih h.2 _ (isLegible_setEntry h.1.1 h.1.2 hempty)

theorem takeItems_eq_ok {items : Taken (List Value) cs} (h : takeItems cs = .ok items) :
    ∃ item, takeValue cs = .ok item ∧
      (items.value = [item.value] ∨
        ∃ rest tail, skipBlanks item.rest = ',' :: rest ∧
          takeItems (skipBlanks rest) = .ok tail ∧ items.value = item.value :: tail.value) := by
  rw [takeItems] at h
  split at h
  · contradiction
  · rename_i item hitem
    refine ⟨item, hitem, ?_⟩
    simp only at h
    split at h
    · cases h
      exact .inl rfl
    · rename_i rest hcomma
      split at h
      · contradiction
      · rename_i tail htail
        cases h
        exact .inr ⟨rest, tail, hcomma, htail, rfl⟩
    · contradiction

theorem takeMembers_eq_ok {members : Taken (List (Value × Value)) cs}
    (h : takeMembers cs = .ok members) :
    ∃ opened name rest member, cs = '"' :: opened ∧
      takeText ('"' :: opened) opened = .ok name ∧ skipBlanks name.rest = ':' :: rest ∧
      takeValue (skipBlanks rest) = .ok member ∧
      (members.value = [(.text (String.ofList name.value), member.value)] ∨
        ∃ more tail, skipBlanks member.rest = ',' :: more ∧
          takeMembers (skipBlanks more) = .ok tail ∧
          members.value = (.text (String.ofList name.value), member.value) :: tail.value) := by
  rw [takeMembers.eq_def] at h
  split at h
  · rename_i opened
    split at h
    · contradiction
    · rename_i name hname
      simp only at h
      split at h
      · rename_i rest hcolon
        split at h
        · contradiction
        · rename_i member hmember
          refine ⟨opened, name, rest, member, rfl, hname, hcolon, hmember, ?_⟩
          split at h
          · cases h
            exact .inl rfl
          · rename_i more hcomma
            split at h
            · contradiction
            · rename_i tail htail
              cases h
              exact .inr ⟨more, tail, hcomma, htail, rfl⟩
          · contradiction
      · contradiction
  · contradiction

theorem takeValue_eq_ok {value : Taken Value cs} (h : takeValue cs = .ok value) :
    (∃ text, value.value = .text text) ∨ value.value = .list [] ∨ value.value = .dict [] ∨
      (∃ rest items, cs = '[' :: rest ∧ takeItems (skipBlanks rest) = .ok items ∧
        value.value = .list items.value) ∨
      (∃ rest members, cs = '\x7b' :: rest ∧ takeMembers (skipBlanks rest) = .ok members ∧
        value.value = Value.dictOf members.value) ∨
      takeScalar cs = .ok value := by
  rw [takeValue.eq_def] at h
  split at h
  · contradiction
  · split at h
    · contradiction
    · cases h
      exact .inl ⟨_, rfl⟩
  · rename_i rest
    split at h
    · cases h
      exact .inr (.inl rfl)
    · simp only at h
      split at h
      · contradiction
      · rename_i items hitems
        cases h
        exact .inr (.inr (.inr (.inl ⟨rest, items, rfl, hitems, rfl⟩)))
  · rename_i rest
    split at h
    · cases h
      exact .inr (.inr (.inl rfl))
    · simp only at h
      split at h
      · contradiction
      · rename_i members hmembers
        cases h
        exact .inr (.inr (.inr (.inr (.inl ⟨rest, members, rfl, hmembers, rfl⟩))))
  · exact .inr (.inr (.inr (.inr (.inr h))))

-- one theorem for each function of the reader, with its recursion and its measure
mutual

theorem isLegible_of_takeValue (cs : List Char) (value : Taken Value cs)
    (h : takeValue cs = .ok value) : value.value.IsLegible := by
  rcases takeValue_eq_ok h with ⟨text, htext⟩ | hlist | hdict | ⟨rest, items, hcs, hitems, hvalue⟩ |
    ⟨rest, members, hcs, hmembers, hvalue⟩ | hscalar
  · simp [htext, Value.IsLegible, Value.integers]
  · simp [hlist, isLegible_list_iff]
  · simp [hdict, isLegible_dict_iff]
  · have hshorter := length_skipBlanks_lt hcs
    rw [hvalue]
    exact isLegible_of_takeItems _ items hitems
  · have hshorter := length_skipBlanks_lt hcs
    rw [hvalue]
    exact isLegible_dictOf (isLegible_of_takeMembers _ members hmembers)
  · exact isLegible_of_takeScalar hscalar
termination_by 2 * cs.length

theorem isLegible_of_takeItems (cs : List Char) (items : Taken (List Value) cs)
    (h : takeItems cs = .ok items) : (Value.list items.value).IsLegible := by
  rcases takeItems_eq_ok h with ⟨item, hitem, hlast | ⟨rest, tail, hcomma, htail, hvalue⟩⟩
  · rw [hlast, isLegible_list_iff, List.forall_mem_singleton]
    exact isLegible_of_takeValue cs item hitem
  · have hshorter : (skipBlanks rest).length < cs.length :=
      calc (skipBlanks rest).length
        _ < (skipBlanks item.rest).length := length_skipBlanks_lt hcomma
        _ ≤ item.rest.length := length_skipBlanks_le item.rest
        _ < cs.length := item.shorter
    rw [hvalue, isLegible_list_iff, List.forall_mem_cons]
    exact ⟨isLegible_of_takeValue cs item hitem,
      isLegible_list_iff.mp (isLegible_of_takeItems _ tail htail)⟩
termination_by 2 * cs.length + 1

theorem isLegible_of_takeMembers (cs : List Char) (members : Taken (List (Value × Value)) cs)
    (h : takeMembers cs = .ok members) : (Value.dict members.value).IsLegible := by
  rcases takeMembers_eq_ok h with
    ⟨opened, name, rest, member, hcs, -, hcolon, hmember,
      hlast | ⟨more, tail, hcomma, htail, hvalue⟩⟩
  all_goals
    have hvalueShorter : (skipBlanks rest).length < cs.length :=
      calc (skipBlanks rest).length
        _ < (skipBlanks name.rest).length := length_skipBlanks_lt hcolon
        _ ≤ name.rest.length := length_skipBlanks_le name.rest
        _ < opened.length := name.shorter
        _ < cs.length := by simp [hcs]
    have hkey : (Value.text (String.ofList name.value)).IsLegible := by
      simp [Value.IsLegible, Value.integers]
    have hmember := isLegible_of_takeValue _ member hmember
  · rw [hlast, isLegible_dict_iff, List.forall_mem_singleton]
    exact ⟨hkey, hmember⟩
  · have hshorter : (skipBlanks more).length < cs.length :=
      calc (skipBlanks more).length
        _ < (skipBlanks member.rest).length := length_skipBlanks_lt hcomma
        _ ≤ member.rest.length := length_skipBlanks_le member.rest
        _ < (skipBlanks rest).length := member.shorter
        _ < cs.length := hvalueShorter
    rw [hvalue, isLegible_dict_iff, List.forall_mem_cons]
    exact ⟨⟨hkey, hmember⟩, isLegible_dict_iff.mp (isLegible_of_takeMembers _ tail htail)⟩
termination_by 2 * cs.length + 1

end

theorem isLegible_of_read {text : String} {value : Value} (h : read text = .ok value) :
    value.IsLegible := by
  unfold read at h
  split at h
  · rename_i found hread
    cases h
    unfold readAll at hread
    split at hread
    · split at hread
      · contradiction
      · split at hread
        · contradiction
        · rename_i taken htaken
          split at hread
          · cases hread
            exact isLegible_of_takeValue _ taken htaken
          · contradiction
    · contradiction
  · contradiction

end JsonText

/-! ## Filters -/

namespace Filter

open Value (isLegible_list_iff)

theorem isLegible_of_ofWire {address : Address} {data : Value} {e : WireError}
    (h : ofWire address data = .error e) (hdata : data.IsLegible) : e.IsLegible :=
  isLegible_of_firstFault (firstFault_of_ofWire h) hdata

theorem isLegible_of_ofJsonItems {index : ℕ} {items : List Value} {e : WireError}
    (h : ofJsonItems index items = .error e) (hitems : ∀ item ∈ items, item.IsLegible) :
    e.IsLegible := by
  induction items generalizing index with
  | nil => contradiction
  | cons item rest ih =>
    rw [List.forall_mem_cons] at hitems
    rw [ofJsonItems] at h
    cases hhead : ofWire (Address.item index) item with
    | error failure =>
      have hsame : failure = e := by simpa [hhead, bind, Except.bind] using h
      exact hsame ▸ isLegible_of_ofWire hhead hitems.1
    | ok head =>
      cases htail : ofJsonItems (index + 1) rest with
      | error failure =>
        have hsame : failure = e := by simpa [hhead, htail, bind, Except.bind] using h
        exact ih (hsame ▸ htail) hitems.2
      | ok tail => simp [hhead, htail, bind, Except.bind, pure, Except.pure] at h

/-- A fault of filters in a JSON text can always be shown. -/
theorem isLegible_of_ofJson {text : String} {e : WireError}
    (h : ofJson text = .error (.node e)) : e.IsLegible := by
  unfold ofJson at h
  split at h
  · rename_i value hread
    have hvalue := JsonText.isLegible_of_read hread
    unfold ofJsonValue at h
    split at h
    · split at h
      · contradiction
      · rename_i failure hitems
        cases h
        exact isLegible_of_ofJsonItems hitems (isLegible_list_iff.mp hvalue)
    · split at h
      · contradiction
      · rename_i failure hfailure
        cases h
        exact isLegible_of_ofWire hfailure hvalue
    · cases h
  · cases h

end Filter

end DocScan
