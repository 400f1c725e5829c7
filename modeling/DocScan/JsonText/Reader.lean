import DocScan.JsonText.Token
import DocScan.Value.Equality

/-!
# Reading JSON text

A text holds one value between blanks.  Of several members of an object with
one name, the last gives the value and the first the place.  Reading stops at
the first fault.
-/

namespace DocScan.JsonText

mutual

def takeValue (cs : List Char) : Except Stop (Taken Value cs) :=
  match cs with
  | [] => .error (.fault .value [])
  | '"' :: rest =>
    match takeText ('"' :: rest) rest with
    | .error stop => .error stop
    | .ok text => .ok ⟨.text (String.ofList text.value), text.rest, by
        have htext := text.shorter
        simp only [List.length_cons]
        omega⟩
  | '[' :: rest =>
    match h : skipBlanks rest with
    | ']' :: more => .ok ⟨.list [], more, by
        have hskip := length_skipBlanks_le rest
        simp only [h, List.length_cons] at *
        omega⟩
    | inside =>
      have hskip : inside.length ≤ rest.length := h ▸ length_skipBlanks_le rest
      match takeItems inside with
      | .error stop => .error stop
      | .ok items => .ok ⟨.list items.value, items.rest, by
          have hitems := items.shorter
          simp only [List.length_cons]
          omega⟩
  | '\x7b' :: rest =>
    match h : skipBlanks rest with
    | '\x7d' :: more => .ok ⟨.dict [], more, by
        have hskip := length_skipBlanks_le rest
        simp only [h, List.length_cons] at *
        omega⟩
    | inside =>
      have hskip : inside.length ≤ rest.length := h ▸ length_skipBlanks_le rest
      match takeMembers inside with
      | .error stop => .error stop
      | .ok members => .ok ⟨Value.dictOf members.value, members.rest, by
          have hmembers := members.shorter
          simp only [List.length_cons]
          omega⟩
  | other => takeScalar other
termination_by 2 * cs.length

/-- The items up to the closing bracket, at least one. -/
def takeItems (cs : List Char) : Except Stop (Taken (List Value) cs) :=
  match takeValue cs with
  | .error stop => .error stop
  | .ok item =>
    have hitem := item.shorter
    have hblanks := length_skipBlanks_le item.rest
    match h : skipBlanks item.rest with
    | ']' :: rest => .ok ⟨[item.value], rest, by
        simp only [h, List.length_cons] at *
        omega⟩
    | ',' :: rest =>
      have hnext := length_skipBlanks_le rest
      have hrest : rest.length < cs.length := by
        simp only [h, List.length_cons] at *
        omega
      match takeItems (skipBlanks rest) with
      | .error stop => .error stop
      | .ok tail => .ok ⟨item.value :: tail.value, tail.rest, by
          have htail := tail.shorter
          omega⟩
    | other => .error (.fault .comma other)
termination_by 2 * cs.length + 1

/-- The members up to the closing brace, at least one. -/
def takeMembers (cs : List Char) : Except Stop (Taken (List (Value × Value)) cs) :=
  match cs with
  | '"' :: opened =>
    match takeText ('"' :: opened) opened with
    | .error stop => .error stop
    | .ok name =>
      have hname := name.shorter
      have hcolon := length_skipBlanks_le name.rest
      match hname' : skipBlanks name.rest with
      | ':' :: afterColon =>
        have hvalue := length_skipBlanks_le afterColon
        have hafter : afterColon.length < opened.length := by
          simp only [hname', List.length_cons] at *
          omega
        match takeValue (skipBlanks afterColon) with
        | .error stop => .error stop
        | .ok member =>
          have hmember := member.shorter
          have hblanks := length_skipBlanks_le member.rest
          match h : skipBlanks member.rest with
          | '\x7d' :: rest =>
            .ok ⟨[(.text (String.ofList name.value), member.value)], rest, by
              simp only [h, List.length_cons] at *
              omega⟩
          | ',' :: rest =>
            have hnext := length_skipBlanks_le rest
            have hrest : rest.length < opened.length := by
              simp only [h, List.length_cons] at *
              omega
            match takeMembers (skipBlanks rest) with
            | .error stop => .error stop
            | .ok tail =>
              .ok ⟨(.text (String.ofList name.value), member.value) :: tail.value, tail.rest, by
                have htail := tail.shorter
                simp only [List.length_cons]
                omega⟩
          | other => .error (.fault .comma other)
      | other => .error (.fault .colon other)
  | other => .error (.fault .propertyName other)
termination_by 2 * cs.length + 1

end

def readAll (cs : List Char) : Except Stop Value :=
  match cs with
  | c :: _ =>
    if c.toNat = 0xFEFF then .error (.fault .byteOrderMark cs)
    else
      match takeValue (skipBlanks cs) with
      | .error stop => .error stop
      | .ok value =>
        match skipBlanks value.rest with
        | [] => .ok value.value
        | extra => .error (.fault .extraData extra)
  | [] => .error (.fault .value [])

def read (text : String) : Except Error Value :=
  match readAll text.toList with
  | .ok value => .ok value
  | .error stop => .error (stop.inText text.toList)

end DocScan.JsonText
