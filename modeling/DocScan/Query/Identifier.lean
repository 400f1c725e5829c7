import DocScan.Text.Hex
import DocScan.Text.WordCharacter
import DocScan.Value

/-!
# Identifier literals

A text of the form `ObjectId("…")`, with a run of word characters between
quotes of either kind, is a literal of a document identifier.  It is a valid
one when the run consists of twenty-four hexadecimal digits.
-/

namespace DocScan

/-- The identifier that twenty-four hexadecimal digits stand for. -/
def ObjectId.ofHex? (digits : List Char) : Option ObjectId :=
  match Hex.decode? digits with
  | some bytes => if h : bytes.length = 12 then some ⟨bytes, h⟩ else none
  | none => none

namespace Identifier

def isQuote (c : Char) : Bool := c = '"' || c = '\''

def opening : List Char := "ObjectId(".toList

def afterOpening? (cs : List Char) : Option (List Char) :=
  if opening.isPrefixOf cs then some (cs.drop opening.length) else none

/-- The run of word characters between the quotes of a literal. -/
def literalBody? (s : String) : Option (List Char) :=
  match afterOpening? s.toList with
  | some (q :: rest) =>
    match rest.span Text.isWordCharacter with
    | (body, [r, ')']) => if isQuote q && isQuote r then some body else none
    | _ => none
  | _ => none

/-- What a text is as an identifier. -/
inductive Reading where
  | noLiteral
  | valid (id : ObjectId)
  | invalid

def read (s : String) : Reading :=
  match literalBody? s with
  | none => .noLiteral
  | some body =>
    match ObjectId.ofHex? body with
    | some id => .valid id
    | none => .invalid

end Identifier

end DocScan
