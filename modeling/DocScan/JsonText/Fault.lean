import DocScan.Number.Decimal

/-!
# Faults of JSON text

A fault stands at a character of the text.  A reader knows it by the
characters that are left there; a report gives the line, the column and the
offset, counted from one, one and zero.
-/

namespace DocScan.JsonText

/-- What can be wrong at a place of a text. -/
inductive Fault where
  | byteOrderMark
  | value
  | propertyName
  | colon
  | comma
  | extraData
  | controlCharacter
  | unterminatedText
  | escape
  | codeEscape
  deriving DecidableEq, Repr

def Fault.text : Fault → String
  | .byteOrderMark => "Unexpected UTF-8 BOM (decode using utf-8-sig)"
  | .value => "Expecting value"
  | .propertyName => "Expecting property name enclosed in double quotes"
  | .colon => "Expecting ':' delimiter"
  | .comma => "Expecting ',' delimiter"
  | .extraData => "Extra data"
  | .controlCharacter => "Invalid control character at"
  | .unterminatedText => "Unterminated string starting at"
  | .escape => "Invalid \\escape"
  | .codeEscape => "Invalid \\uXXXX escape"

/-- Why reading stops: a fault with the characters left there, or an integer
with more digits than are read. -/
inductive Stop where
  | fault (fault : Fault) (left : List Char)
  | digitLimit (digits : Nat)
  deriving DecidableEq, Repr

/-- A place in a text. -/
structure Position where
  line : Nat
  column : Nat
  offset : Nat
  deriving DecidableEq, Repr

/-- The place after the given run of characters. -/
def Position.after (before : List Char) : Position :=
  { line := before.count '\n' + 1
    column := (before.reverse.takeWhile (· ≠ '\n')).length + 1
    offset := before.length }

def Position.text (p : Position) : String :=
  "line " ++ toString p.line ++ " column " ++ toString p.column
    ++ " (char " ++ toString p.offset ++ ")"

/-- Why a text is not read. -/
inductive Error where
  | malformed (fault : Fault) (position : Position)
  | digitLimit (digits : Nat)
  deriving DecidableEq, Repr

def Error.message : Error → String
  | .malformed fault position => fault.text ++ ": " ++ position.text
  | .digitLimit digits =>
    "Exceeds the limit (" ++ toString Decimal.maxDigits
      ++ " digits) for integer string conversion: value has " ++ toString digits
      ++ " digits; use sys.set_int_max_str_digits() to increase the limit"

/-- The report of a stop within a text. -/
def Stop.inText (text : List Char) : Stop → Error
  | .fault what left => .malformed what (Position.after (text.take (text.length - left.length)))
  | .digitLimit digits => .digitLimit digits

end DocScan.JsonText
