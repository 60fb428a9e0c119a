import AutomatonShell.Archive.ElementType
import AutomatonShell.Decimal.Shortest
import AutomatonShell.Text.Quoted

/-!
# Typed arrays

What a snapshot stores are rectangular arrays whose elements have one type: texts of bounded length,
byte strings, integers of fixed width, floating-point numbers, truth values, times, or groups of
such values.

* `Element` — one element.
* `Label`, `Element.label` — how an element is shown.
* `NdArray` — a type, a shape, and the elements with the last index running fastest.
* `NdArray.texts` — the array of some texts, as wide as the longest of them.
-/

namespace AutomatonShell.Archive

/-- An element of an array. -/
inductive Element where
  | text (value : String)
  /-- A text with code points that no character has. -/
  | garbled (codes : List Nat)
  | bytes (value : List UInt8)
  | int (value : Int)
  /-- A floating-point number, given by its bits. -/
  | float (bits : UInt64)
  /-- A complex number, given by the bits of its real and its imaginary part. -/
  | complex (real imaginary : UInt64)
  | bool (value : Bool)
  /-- A time that is none, or has no unit to be told in. -/
  | none
  /-- A group of values, or a value of another kind, as it is written. -/
  | record (written : String)
  deriving Repr, DecidableEq

/-- How an element is shown: as a text, or as code points that make up none. -/
inductive Label where
  | text (value : String)
  | garbled (codes : List Nat)
  deriving Repr, DecidableEq

namespace Label

/-- The text that a label is, if it is one. -/
def text? : Label → Option String
  | text value => some value
  | garbled _ => none

/-- The readable characters of a label. -/
def readable : Label → String
  | text value => value
  | garbled codes => String.ofList ((codes.filter fun n => n.isValidChar).map Char.ofNat)

/-- A label between quotes. -/
def quoted : Label → String
  | text value => Text.quoted value
  | garbled codes => Text.quotedCodes codes

/-- Whether a label cannot even be taken over: it is a single code point beyond the last one. -/
def isBeyond : Label → Bool
  | garbled [code] => 0x10FFFF < code
  | _ => false

end Label

/-- How an element is shown. -/
def Element.label : Element → Label
  | text value => .text value
  | garbled codes => .garbled codes
  | bytes value => .text (Text.quotedBytes value)
  | int value => .text (toString value)
  | float bits => .text (Decimal.floatText bits)
  | complex real imaginary => .text (Decimal.complexText real imaginary)
  | bool value => .text (if value then "True" else "False")
  | none => .text "None"
  | record written => .text written

/-- How an element is shown within a group: texts are quoted. -/
def Element.writtenInGroup : Element → String
  | text value => Text.quoted value
  | garbled codes => Text.quotedCodes codes
  | other => other.label.readable

/-- Some elements in parentheses, with a comma behind a single one. -/
def Element.writtenGroup : List Element → String
  | [single] => "(" ++ single.writtenInGroup ++ ",)"
  | parts => "(" ++ String.intercalate ", " (parts.map writtenInGroup) ++ ")"

/-- The group of some elements.  A part that cannot be taken over stands for all of them. -/
def Element.group (parts : List Element) : Element :=
  match parts.find? (·.label.isBeyond) with
  | some part => part
  | .none => .record (writtenGroup parts)

/-- A rectangular array; the elements are listed with the last index running fastest. -/
structure NdArray where
  /-- What the elements are. -/
  type : ElementType
  /-- How many indices each dimension has; a single element has no dimension. -/
  shape : List Nat
  /-- The elements. -/
  values : List Element
  deriving Repr, DecidableEq

namespace NdArray

/-- The type of some texts: as wide as the longest of them, and at least one character. -/
def widthOf (texts : List String) : ElementType :=
  .textOf ((texts.map String.length).foldl Nat.max 1)

/-- The array of some texts in a shape. -/
def texts (shape : List Nat) (values : List String) : NdArray :=
  ⟨widthOf values, shape, values.map .text⟩

/-- The row of some texts. -/
def row (values : List String) : NdArray := texts [values.length] values

/-- The elements as they are shown. -/
def labels (a : NdArray) : List Label := a.values.map Element.label

end NdArray

end AutomatonShell.Archive
