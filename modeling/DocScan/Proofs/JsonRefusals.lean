import DocScan.Proofs.JsonLegibility

/-!
# How JSON texts are refused

What is wrong with a JSON text or with the filters in it makes the text refused.
The digit limit does not: it is reported as it is.  Texts, names and brackets never
run into it, so reading stops there exactly if it comes, past parts that are
well-formed, to an integer with more digits than are read.
-/

namespace DocScan

open Decimal (maxDigits)

namespace JsonText

variable {cs rest opening place : List Char} {n : ℕ}

/-! ## Where reading stops at the digit limit -/

theorem pairRest_ne_limit (unit : ℕ) : pairRest unit cs ≠ .error (.digitLimit n) := by
  unfold pairRest
  split
  · split
    · simp
    · split <;> simp
  · simp

theorem takeEscape_ne_limit : takeEscape cs ≠ .error (.digitLimit n) := by
  unfold takeEscape
  split
  case h_9 a b c d e rest =>
    split
    · simp
    · rename_i unit _
      split
      · split
        · rename_i stop hpair
          intro h
          cases h
          exact pairRest_ne_limit unit hpair
        · simp
      · simp
  all_goals simp

theorem takeText_ne_limit : takeText opening cs ≠ .error (.digitLimit n) := by
  fun_induction takeText opening cs with
  | case4 c rest stop hescape =>
    intro h
    cases h
    exact takeEscape_ne_limit hescape
  | case5 c rest escape hescape hshorter stop htail ih =>
    intro h
    cases h
    exact ih htail
  | case8 c rest _ _ _ _ stop htail ih =>
    intro h
    cases h
    exact ih htail
  | _ => simp

theorem takeItems_eq_limit_iff :
    takeItems cs = .error (.digitLimit n) ↔
      takeValue cs = .error (.digitLimit n) ∨
        ∃ item rest, takeValue cs = .ok item ∧ skipBlanks item.rest = ',' :: rest ∧
          takeItems (skipBlanks rest) = .error (.digitLimit n) := by
  rw [takeItems]
  cases hvalue : takeValue cs with
  | error stop => simp
  | ok item =>
    simp only [reduceCtorEq, false_or, Except.ok.injEq, exists_and_left, exists_eq_left']
    split
    · rename_i h
      simp [h]
    · rename_i rest h
      cases htail : takeItems (skipBlanks rest) with
      | error stop => simp [h, htail]
      | ok tail => simp [h, htail]
    · rename_i hcomma
      simp only [Except.error.injEq, reduceCtorEq, false_iff]
      rintro ⟨rest, hrest, -⟩
      exact hcomma rest hrest

theorem takeMembers_eq_limit_iff :
    takeMembers cs = .error (.digitLimit n) ↔
      ∃ opened name rest, cs = '"' :: opened ∧ takeText ('"' :: opened) opened = .ok name ∧
        skipBlanks name.rest = ':' :: rest ∧
        (takeValue (skipBlanks rest) = .error (.digitLimit n) ∨
          ∃ member more, takeValue (skipBlanks rest) = .ok member ∧
            skipBlanks member.rest = ',' :: more ∧
            takeMembers (skipBlanks more) = .error (.digitLimit n)) := by
  rw [takeMembers.eq_def]
  split
  · rename_i opened
    simp only [List.cons.injEq, true_and, exists_and_left, exists_eq_left']
    cases hname : takeText ('"' :: opened) opened with
    | error stop =>
      simp only [Except.error.injEq, reduceCtorEq, false_and, exists_false, iff_false]
      rintro rfl
      exact takeText_ne_limit hname
    | ok name =>
      simp only [Except.ok.injEq, exists_eq_left']
      split
      · rename_i afterColon hcolon
        simp only [hcolon, List.cons.injEq, true_and, exists_eq_left']
        cases hvalue : takeValue (skipBlanks afterColon) with
        | error stop => simp
        | ok member =>
          simp only [reduceCtorEq, false_or, Except.ok.injEq, exists_eq_left']
          split
          · rename_i h
            simp [h]
          · rename_i rest h
            cases htail : takeMembers (skipBlanks rest) with
            | error stop => simp [h, htail]
            | ok tail => simp [h, htail]
          · rename_i hcomma
            simp only [Except.error.injEq, reduceCtorEq, false_iff]
            rintro ⟨rest, hrest, -⟩
            exact hcomma rest hrest
      · rename_i hcolon
        simp only [Except.error.injEq, reduceCtorEq, false_iff]
        rintro ⟨afterColon, hafter, -⟩
        exact hcolon afterColon hafter
  · rename_i hquote
    simp only [Except.error.injEq, reduceCtorEq, false_iff]
    rintro ⟨opened, -, -, hopened, -⟩
    exact hquote opened hopened

/-- No item begins with a bracket that closes a list. -/
theorem takeItems_closed : takeItems (']' :: rest) ≠ .error (.digitLimit n) := by
  have hvalue : takeValue (']' :: rest) = .error (.fault .value (']' :: rest)) := by
    rw [takeValue]
    · rfl
    all_goals simp
  simp [takeItems, hvalue]

theorem takeMembers_closed : takeMembers ('\x7d' :: rest) ≠ .error (.digitLimit n) := by
  rw [takeMembers]
  · simp
  · simp

theorem takeValue_eq_limit_iff :
    takeValue cs = .error (.digitLimit n) ↔
      (∃ rest, cs = '[' :: rest ∧ takeItems (skipBlanks rest) = .error (.digitLimit n)) ∨
        (∃ rest, cs = '\x7b' :: rest ∧ takeMembers (skipBlanks rest) = .error (.digitLimit n)) ∨
          takeScalar cs = .error (.digitLimit n) := by
  -- no scalar begins with a quote, a bracket or a brace
  have hquote : ∀ rest, takeScalar ('"' :: rest) ≠ .error (.digitLimit n) := fun _ => nofun
  have hlist : ∀ rest, takeScalar ('[' :: rest) ≠ .error (.digitLimit n) := fun _ => nofun
  have hdict : ∀ rest, takeScalar ('\x7b' :: rest) ≠ .error (.digitLimit n) := fun _ => nofun
  rw [takeValue.eq_def]
  split
  case h_1 => simp [takeScalar, takeNumber, takeUnsigned, takeWhole?]
  case h_2 rest =>
    cases htext : takeText ('"' :: rest) rest with
    | error stop =>
      have hstop : stop ≠ .digitLimit n := by
        rintro rfl
        exact takeText_ne_limit htext
      simp [hquote, hstop]
    | ok text => simp [hquote]
  case h_3 rest =>
    simp only [List.cons.injEq, true_and, exists_eq_left', Char.reduceEq, false_and, exists_false,
      hlist, or_false]
    split
    · rename_i more hclose
      have hclosed : takeItems (']' :: more) ≠ .error (.digitLimit n) := takeItems_closed
      rw [← hclose] at hclosed
      simpa using hclosed
    · cases takeItems (skipBlanks rest) <;> simp
  case h_4 rest =>
    simp only [List.cons.injEq, true_and, exists_eq_left', Char.reduceEq, false_and, exists_false,
      hdict, or_false, false_or]
    split
    · rename_i more hclose
      have hclosed : takeMembers ('\x7d' :: more) ≠ .error (.digitLimit n) := takeMembers_closed
      rw [← hclose] at hclosed
      simpa using hclosed
    · cases takeMembers (skipBlanks rest) <;> simp
  case h_5 hnoList hnoDict =>
    rw [or_iff_right, or_iff_right]
    · rintro ⟨rest, hdict, -⟩
      exact hnoDict rest hdict
    · rintro ⟨rest, hlist, -⟩
      exact hnoList rest hlist

/-! ## Places of values -/

/-- What is read from a run of characters: a value, or what stands behind the opening
bracket of a list or the opening brace of an object. -/
inductive Part where
  | value
  | items
  | members

/-- Reading a part of a run of characters comes to a value at a place.  What stands
before the place is well-formed; of what follows nothing is said. -/
inductive ComesTo : Part → List Char → List Char → Prop where
  | here {cs : List Char} : ComesTo .value cs cs
  | list {rest place : List Char} :
      ComesTo .items (skipBlanks rest) place → ComesTo .value ('[' :: rest) place
  | dict {rest place : List Char} :
      ComesTo .members (skipBlanks rest) place → ComesTo .value ('\x7b' :: rest) place
  | item {cs place : List Char} : ComesTo .value cs place → ComesTo .items cs place
  | laterItem {cs rest place : List Char} {item : Taken Value cs} :
      takeValue cs = .ok item → skipBlanks item.rest = ',' :: rest →
        ComesTo .items (skipBlanks rest) place → ComesTo .items cs place
  | member {opened rest place : List Char} {name : Taken (List Char) opened} :
      takeText ('"' :: opened) opened = .ok name → skipBlanks name.rest = ':' :: rest →
        ComesTo .value (skipBlanks rest) place → ComesTo .members ('"' :: opened) place
  | laterMember {opened rest more place : List Char} {name : Taken (List Char) opened}
      {member : Taken Value (skipBlanks rest)} :
      takeText ('"' :: opened) opened = .ok name → skipBlanks name.rest = ':' :: rest →
        takeValue (skipBlanks rest) = .ok member → skipBlanks member.rest = ',' :: more →
          ComesTo .members (skipBlanks more) place → ComesTo .members ('"' :: opened) place

/-- Reading a part stops at the digit limit. -/
def Part.StopsAtLimit (n : ℕ) : Part → List Char → Prop
  | .value, cs => takeValue cs = .error (.digitLimit n)
  | .items, cs => takeItems cs = .error (.digitLimit n)
  | .members, cs => takeMembers cs = .error (.digitLimit n)

theorem ComesTo.stopsAtLimit {part : Part} (h : ComesTo part cs place)
    (hplace : BeginsWithInteger place n) (hn : maxDigits < n) : part.StopsAtLimit n cs := by
  induction h with
  | here =>
    exact takeValue_eq_limit_iff.mpr (.inr (.inr (takeScalar_eq_limit_iff.mpr ⟨hplace, hn⟩)))
  | list _ ih => exact takeValue_eq_limit_iff.mpr (.inl ⟨_, rfl, ih hplace⟩)
  | dict _ ih => exact takeValue_eq_limit_iff.mpr (.inr (.inl ⟨_, rfl, ih hplace⟩))
  | item _ ih => exact takeItems_eq_limit_iff.mpr (.inl (ih hplace))
  | laterItem hitem hcomma _ ih =>
    exact takeItems_eq_limit_iff.mpr (.inr ⟨_, _, hitem, hcomma, ih hplace⟩)
  | member hname hcolon _ ih =>
    exact takeMembers_eq_limit_iff.mpr ⟨_, _, _, rfl, hname, hcolon, .inl (ih hplace)⟩
  | laterMember hname hcolon hmember hcomma _ ih =>
    exact takeMembers_eq_limit_iff.mpr
      ⟨_, _, _, rfl, hname, hcolon, .inr ⟨_, _, hmember, hcomma, ih hplace⟩⟩

-- one theorem for each function of the reader, with its recursion and its measure
mutual

theorem exists_of_takeValue_eq_limit (cs : List Char) (h : takeValue cs = .error (.digitLimit n)) :
    ∃ place, ComesTo .value cs place ∧ BeginsWithInteger place n ∧ maxDigits < n := by
  rcases takeValue_eq_limit_iff.mp h with ⟨rest, hcs, hitems⟩ | ⟨rest, hcs, hmembers⟩ | hscalar
  · have hshorter := length_skipBlanks_lt hcs
    obtain ⟨place, hplace, hbegins⟩ := exists_of_takeItems_eq_limit _ hitems
    exact ⟨place, hcs ▸ .list hplace, hbegins⟩
  · have hshorter := length_skipBlanks_lt hcs
    obtain ⟨place, hplace, hbegins⟩ := exists_of_takeMembers_eq_limit _ hmembers
    exact ⟨place, hcs ▸ .dict hplace, hbegins⟩
  · exact ⟨cs, .here, takeScalar_eq_limit_iff.mp hscalar⟩
termination_by 2 * cs.length

theorem exists_of_takeItems_eq_limit (cs : List Char) (h : takeItems cs = .error (.digitLimit n)) :
    ∃ place, ComesTo .items cs place ∧ BeginsWithInteger place n ∧ maxDigits < n := by
  rcases takeItems_eq_limit_iff.mp h with hvalue | ⟨item, rest, hitem, hcomma, hlater⟩
  · obtain ⟨place, hplace, hbegins⟩ := exists_of_takeValue_eq_limit cs hvalue
    exact ⟨place, .item hplace, hbegins⟩
  · have hshorter : (skipBlanks rest).length < cs.length :=
      calc (skipBlanks rest).length
        _ < (skipBlanks item.rest).length := length_skipBlanks_lt hcomma
        _ ≤ item.rest.length := length_skipBlanks_le item.rest
        _ < cs.length := item.shorter
    obtain ⟨place, hplace, hbegins⟩ := exists_of_takeItems_eq_limit _ hlater
    exact ⟨place, .laterItem hitem hcomma hplace, hbegins⟩
termination_by 2 * cs.length + 1

theorem exists_of_takeMembers_eq_limit (cs : List Char)
    (h : takeMembers cs = .error (.digitLimit n)) :
    ∃ place, ComesTo .members cs place ∧ BeginsWithInteger place n ∧ maxDigits < n := by
  obtain ⟨opened, name, rest, hcs, hname, hcolon, hbehind⟩ := takeMembers_eq_limit_iff.mp h
  have hvalueShorter : (skipBlanks rest).length < cs.length :=
    calc (skipBlanks rest).length
      _ < (skipBlanks name.rest).length := length_skipBlanks_lt hcolon
      _ ≤ name.rest.length := length_skipBlanks_le name.rest
      _ < opened.length := name.shorter
      _ < cs.length := by simp [hcs]
  rcases hbehind with hvalue | ⟨member, more, hmember, hcomma, hlater⟩
  · obtain ⟨place, hplace, hbegins⟩ := exists_of_takeValue_eq_limit _ hvalue
    exact ⟨place, hcs ▸ .member hname hcolon hplace, hbegins⟩
  · have hshorter : (skipBlanks more).length < cs.length :=
      calc (skipBlanks more).length
        _ < (skipBlanks member.rest).length := length_skipBlanks_lt hcomma
        _ ≤ member.rest.length := length_skipBlanks_le member.rest
        _ < (skipBlanks rest).length := member.shorter
        _ < cs.length := hvalueShorter
    obtain ⟨place, hplace, hbegins⟩ := exists_of_takeMembers_eq_limit _ hlater
    exact ⟨place, hcs ▸ .laterMember hname hcolon hmember hcomma hplace, hbegins⟩
termination_by 2 * cs.length + 1

end

/-- Reading a value stops at the digit limit exactly if it comes to an integer with
more digits. -/
theorem takeValue_eq_limit_iff_comesTo :
    takeValue cs = .error (.digitLimit n) ↔
      ∃ place, ComesTo .value cs place ∧ BeginsWithInteger place n ∧ maxDigits < n := by
  constructor
  · exact exists_of_takeValue_eq_limit cs
  · rintro ⟨place, hplace, hbegins, hn⟩
    exact hplace.stopsAtLimit hbegins hn

/-- Reading a text comes to an integer of so many digits. -/
def MeetsInteger (cs : List Char) (count : ℕ) : Prop :=
  ∃ place, ComesTo .value (skipBlanks cs) place ∧ BeginsWithInteger place count

theorem readAll_eq_limit_iff :
    readAll cs = .error (.digitLimit n) ↔ MeetsInteger cs n ∧ maxDigits < n := by
  have hvalue : takeValue (skipBlanks cs) = .error (.digitLimit n) ↔
      MeetsInteger cs n ∧ maxDigits < n := by
    rw [takeValue_eq_limit_iff_comesTo]
    simp only [MeetsInteger, ← exists_and_right, and_assoc]
  rw [← hvalue]
  unfold readAll
  split
  · rename_i c rest
    split
    · rename_i hmark
      have hc : c = '\ufeff' := Char.ext (UInt32.toNat_inj.mp hmark)
      subst hc
      have hscalar : takeValue (skipBlanks ('\ufeff' :: rest)) ≠ .error (.digitLimit n) := by
        have hskip : skipBlanks ('\ufeff' :: rest) = '\ufeff' :: rest := rfl
        rw [hskip, ne_eq, takeValue_eq_limit_iff]
        simpa using (nofun : takeScalar ('\ufeff' :: rest) ≠ .error (.digitLimit n))
      simpa using hscalar
    · cases htaken : takeValue (skipBlanks (c :: rest)) with
      | error stop => simp
      | ok value =>
        simp only [reduceCtorEq, iff_false]
        split <;> simp
  · simp [skipBlanks, takeValue]

theorem read_eq_limit_iff {text : String} :
    read text = .error (.digitLimit n) ↔ MeetsInteger text.toList n ∧ maxDigits < n := by
  rw [← readAll_eq_limit_iff]
  unfold read
  cases readAll text.toList with
  | ok value => simp
  | error stop => cases stop <;> simp [Stop.inText]

end JsonText

namespace Filter

open JsonText

theorem refusal?_eq_none_iff {text : String} {e : JsonFormError} (h : ofJson text = .error e) :
    e.refusal? = none ↔ ∃ n, e = .text (.digitLimit n) := by
  cases e with
  | text e => cases e <;> simp [JsonFormError.refusal?]
  | scalar => simp [JsonFormError.refusal?]
  | node e => simp [JsonFormError.refusal?, WireError.refusal?_eq_none_iff, isLegible_of_ofJson h]

theorem ofJsonValue_ne_text {value : Value} {e : JsonText.Error} :
    ofJsonValue value ≠ .error (.text e) := by
  unfold ofJsonValue
  split
  · split <;> simp
  · split <;> simp
  · simp

theorem ofJson_eq_limit_iff {text : String} {n : ℕ} :
    ofJson text = .error (.text (.digitLimit n)) ↔
      MeetsInteger text.toList n ∧ maxDigits < n := by
  rw [← read_eq_limit_iff]
  unfold ofJson
  cases JsonText.read text with
  | error e => simp
  | ok value => simpa using ofJsonValue_ne_text

/-- A JSON text gives filters or is refused, exactly if reading it comes to no integer
with more digits than are read.  Where it does, its digits are what is reported. -/
theorem ofJson_answers_iff (text : String) :
    (((∃ filters, ofJson text = .ok filters) ∨
        ∃ e r, ofJson text = .error e ∧ e.refusal? = some r) ↔
      ∀ n, MeetsInteger text.toList n → n ≤ maxDigits) ∧
    ∀ n, MeetsInteger text.toList n → maxDigits < n →
      ofJson text = .error (.text (.digitLimit n)) := by
  constructor
  · constructor
    · intro hanswer n hmeets
      by_contra hn
      have hlimit := ofJson_eq_limit_iff.mpr ⟨hmeets, Nat.lt_of_not_le hn⟩
      obtain ⟨filters, hfilters⟩ | ⟨e, r, he, hr⟩ := hanswer
      · rw [hlimit] at hfilters
        contradiction
      · rw [hlimit] at he
        cases he
        contradiction
    · intro hshort
      cases hresult : ofJson text with
      | ok filters => exact .inl ⟨filters, rfl⟩
      | error e =>
        cases hrefusal : e.refusal? with
        | some r => exact .inr ⟨e, r, rfl, hrefusal⟩
        | none =>
          obtain ⟨n, rfl⟩ := (refusal?_eq_none_iff hresult).mp hrefusal
          obtain ⟨hmeets, hn⟩ := ofJson_eq_limit_iff.mp hresult
          exact absurd (hshort n hmeets) (Nat.not_le_of_lt hn)
  · intro n hmeets hn
    exact ofJson_eq_limit_iff.mpr ⟨hmeets, hn⟩

/-- The JSON text of an equality filter whose value has so many digits. -/
def textOfSevens (count : ℕ) : String :=
  "\x7b\"val\":" ++ String.ofList (List.replicate count '7') ++
    ",\"op\":\"=\",\"attr\":\"age\"\x7d"

theorem meetsInteger_textOfSevens {count : ℕ} (h : count ≠ 0) :
    MeetsInteger (textOfSevens count).toList count := by
  let behind := ",\"op\":\"=\",\"attr\":\"age\"\x7d".toList
  let digits := List.replicate count '7'
  have hdigits : BeginsWithDigits (digits ++ behind) count := by
    refine ⟨digits, behind, rfl, List.length_replicate, ?_, ?_, ?_, ⟨rfl, ?_, ?_⟩⟩
    · simpa [digits] using h
    · intro d hd
      rw [List.eq_of_mem_replicate hd]
      rfl
    · simp [digits, List.head?_replicate, h]
    · simp [behind]
    · simp [behind]
  have htext : (textOfSevens count).toList =
      '\x7b' :: '"' :: 'v' :: 'a' :: 'l' :: '"' :: ':' :: (digits ++ behind) := by
    simp [textOfSevens, digits, behind]
  have hskip : skipBlanks (digits ++ behind) = digits ++ behind := by
    cases count with
    | zero => contradiction
    | succ count => rfl
  obtain ⟨name, hname, hrest⟩ : ∃ name, takeText
      ('"' :: 'v' :: 'a' :: 'l' :: '"' :: ':' :: (digits ++ behind))
      ('v' :: 'a' :: 'l' :: '"' :: ':' :: (digits ++ behind)) = .ok name ∧
        name.rest = ':' :: (digits ++ behind) := by
    simp [takeText]
  have hcolon : skipBlanks name.rest = ':' :: (digits ++ behind) := by
    rw [hrest]
    rfl
  have hvalue : ComesTo .value (skipBlanks (digits ++ behind)) (digits ++ behind) := by
    rw [hskip]
    exact .here
  rw [htext]
  exact ⟨digits ++ behind, .dict (.member hname hcolon hvalue), .inl hdigits⟩

theorem ofJson_answers_iff_overlong :
    MeetsInteger (textOfSevens 4301).toList 4301 ∧ maxDigits < 4301 ∧
      ofJson (textOfSevens 4301) = .error (.text (.digitLimit 4301)) := by
  have hmeets : MeetsInteger (textOfSevens 4301).toList 4301 :=
    meetsInteger_textOfSevens (by decide)
  have hlimit : maxDigits < 4301 := by decide
  exact ⟨hmeets, hlimit, (ofJson_answers_iff (textOfSevens 4301)).2 4301 hmeets hlimit⟩

/-- Not every text gives filters or is refused: a filter whose value has a digit too
many is reported in another way. -/
theorem ofJson_leaves_overlong :
    ¬ ∀ text, (∃ filters, ofJson text = .ok filters) ∨
      ∃ e r, ofJson text = .error e ∧ e.refusal? = some r := by
  intro hall
  have hmeets : MeetsInteger (textOfSevens 4301).toList 4301 :=
    meetsInteger_textOfSevens (by decide)
  have hresult : ofJson (textOfSevens 4301) = .error (.text (.digitLimit 4301)) :=
    ofJson_eq_limit_iff.mpr ⟨hmeets, by decide⟩
  have hanswer := hall (textOfSevens 4301)
  simp [hresult, JsonFormError.refusal?] at hanswer

end Filter

end DocScan
