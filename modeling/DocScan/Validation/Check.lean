import DocScan.Validation.Fault
import DocScan.Validation.IntegerText
import DocScan.Value.Equality

/-!
# Checks of single settings

A text may be given as bytes in UTF-8.  An integer may be given as a truth
value, as a double without a fractional part or as decimal text.  The keys of
a dictionary of settings are texts.
-/

namespace DocScan.Check

def decodeText? (bytes : List UInt8) : Option String := String.fromUTF8? ⟨bytes.toArray⟩

/-- A text, given as such or as bytes. -/
def text : Value → Checked String
  | .text s => .ok s
  | .bytes bs =>
    match decodeText? bs with
    | some s => .ok s
    | none => .fail .undecodableText
  | _ => .fail .notText

def nonemptyText (v : Value) : Checked String :=
  match text v with
  | .ok s => if s = "" then .fail .emptyText else .ok s
  | .error fs => .error fs

def integerText (s : String) : Checked Int :=
  match IntegerText.read s.toList with
  | .value n => .ok n
  | .tooLong => .fail .integerSize
  | .none => .fail .integerText

/-- An integer given as a double.  Those outside the range of 64-bit words are
refused. -/
def integerDouble (x : Binary64) : Checked Int :=
  if !x.isFinite then .fail .notFinite
  else
    match x.toInt? with
    | some n => if n.natAbs < Nat.pow 2 63 then .ok n else .fail .integerSize
    | none => .fail .fractional

def integer : Value → Checked Int
  | .bool b => .ok (if b then 1 else 0)
  | .int n => .ok n
  | .float x => integerDouble x
  | .text s => integerText s
  | .bytes bs =>
    match decodeText? bs with
    | some s => integerText s
    | none => .fail .integerText
  | _ => .fail .notInteger

def positive (v : Value) : Checked Int :=
  match integer v with
  | .ok n => if 0 < n then .ok n else .fail .notPositive
  | .error fs => .error fs

def optionalPositive : Value → Checked (Option Int)
  | .null => .ok none
  | v =>
    match positive v with
    | .ok n => .ok (some n)
    | .error fs => .error fs

/-- The text of a key, or the kind of a key that has none. -/
def keyText (key : Value) : String :=
  key.plainText?.getD ("<unprintable " ++ key.kindName ++ " object>")

/-- A key as a step on the way to a setting: integers of 64 bits by number,
anything else by its text. -/
def keyPlace : Value → Place
  | .bool b => .number (if b then 1 else 0)
  | .int n =>
    if -(Nat.pow 2 63 : Int) ≤ n ∧ n < (Nat.pow 2 63 : Int) then .number n
    else .name (keyText (.int n))
  | key => .name (keyText key)

/-- The fault of a key of a dictionary. -/
def key (k : Value) : Checked String :=
  Checked.atPlace (keyPlace k) (Checked.atPlace (.name "[key]") (text k))

/-- Sets the value under a name: a name that is there keeps its place. -/
def setNamed (name : String) (value : Value) : List (String × Value) → List (String × Value)
  | [] => [(name, value)]
  | (n, v) :: rest =>
    if n = name then (n, value) :: rest else (n, v) :: setNamed name value rest

def namedValues : Value → Checked (List (String × Value))
  | .dict entries =>
    match Checked.all (entries.map fun entry => key entry.1) with
    | .ok names =>
      .ok ((names.zip (entries.map Prod.snd)).foldl
        (fun acc entry => setNamed entry.1 entry.2 acc) [])
    | .error fs => .error fs
  | _ => .fail .notDictionary

/-- A dictionary whose keys are texts, or null. -/
def optionalNamedValues : Value → Checked (Option (List (String × Value)))
  | .null => .ok none
  | v =>
    match namedValues v with
    | .ok entries => .ok (some entries)
    | .error fs => .error fs

def required {α : Type} (name : String) (check : Value → Checked α)
    (entries : List (Value × Value)) : Checked α :=
  Checked.atPlace (.name name) <|
    match Value.lookup? name entries with
    | some v => check v
    | none => .fail .missing

/-- A field with a value that stands when it is not given. -/
def withDefault {α : Type} (name : String) (default : α) (check : Value → Checked α)
    (entries : List (Value × Value)) : Checked α :=
  match Value.lookup? name entries with
  | some v => Checked.atPlace (.name name) (check v)
  | none => .ok default

end DocScan.Check
