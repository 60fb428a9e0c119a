/-!
# Element types

The elements of an array all have one type: a kind, a width in bytes and an order of bytes.  A type
is written as a letter for its kind and its width, with a sign for the order in front, or by one of
many names.

* `ElementKind`, `ElementType` — the types.
* `ElementType.code` — the short form of a type, as it is written.
* `ElementType.ofCode?` — the type that a short form or a name stands for.
-/

namespace AutomatonShell.Archive

/-- What the elements of an array are. -/
inductive ElementKind where
  /-- Texts, four bytes a character, filled up with NULs. -/
  | text
  /-- Byte strings, filled up with NULs. -/
  | bytes
  /-- Bytes without a meaning, all of which count. -/
  | blob
  /-- Signed integers. -/
  | signed
  /-- Unsigned integers. -/
  | unsigned
  /-- Floating-point numbers. -/
  | float
  /-- Pairs of floating-point numbers: a real and an imaginary part. -/
  | complex
  /-- Truth values, one byte each. -/
  | bool
  /-- Points in time, counted in units that are not given. -/
  | instant
  /-- Spans of time, counted in units that are not given. -/
  | span
  /-- Groups of values of other types. -/
  | record
  /-- References to other values, which no file can hold. -/
  | object
  deriving Repr, DecidableEq

/-- The type of the elements of an array. -/
structure ElementType where
  /-- What the elements are. -/
  kind : ElementKind
  /-- The size of an element in bytes. -/
  width : Nat
  /-- Whether the high byte of a number comes first. -/
  bigEndian : Bool := false
  deriving Repr, DecidableEq

namespace ElementType

/-- The type of texts of at most `length` characters. -/
def textOf (length : Nat) : ElementType := ⟨.text, 4 * length, false⟩

/-- The type of signed integers of 64 bits. -/
def int64 : ElementType := ⟨.signed, 8, false⟩

/-- The letter of a kind. -/
def letter : ElementKind → Char
  | .text => 'U'
  | .bytes => 'S'
  | .blob | .record => 'V'
  | .signed => 'i'
  | .unsigned => 'u'
  | .float => 'f'
  | .complex => 'c'
  | .bool => 'b'
  | .instant => 'M'
  | .span => 'm'
  | .object => 'O'

/-- Whether the order of bytes matters: not for byte strings and not for single bytes. -/
def hasOrder (t : ElementType) : Bool :=
  match t.kind with
  | .text => true
  | .bytes | .blob | .record | .object => false
  | _ => t.width != 1

/-- The short form of a type: byte order, letter and width, which counts characters for texts. -/
def code (t : ElementType) : String :=
  let order := if !t.hasOrder then '|' else if t.bigEndian then '>' else '<'
  let width := if t.kind = .text then t.width / 4 else t.width
  String.ofList (order :: letter t.kind :: Nat.toDigits 10 width)

/-! ## Reading a short form -/

/-- The widest element there is. -/
def maxWidth : Nat := 0x7FFFFFFF

/-- The type of a letter and a width; only texts and bytes may be empty. -/
def ofWidth? (bigEndian : Bool) (letter : Char) (width : Nat) : Option ElementType :=
  let fitting (kind : ElementKind) (widths : List Nat) : Option ElementType :=
    if widths.contains width then some ⟨kind, width, bigEndian⟩ else none
  let upTo (kind : ElementKind) (unit : Nat) : Option ElementType :=
    if unit * width ≤ maxWidth then some ⟨kind, unit * width, bigEndian⟩ else none
  match letter with
  | 'U' => upTo .text 4
  | 'S' | 'a' => upTo .bytes 1
  | 'V' => upTo .blob 1
  | 'b' => fitting .bool [1]
  | 'i' => fitting .signed [1, 2, 4, 8]
  | 'u' => fitting .unsigned [1, 2, 4, 8]
  | 'f' => fitting .float [2, 4, 8]
  | 'c' => fitting .complex [8, 16]
  | 'M' => fitting .instant [8]
  | 'm' => fitting .span [8]
  | 'O' => fitting .object [4, 8]
  | _ => none

/-- The types that a single letter stands for. -/
def ofLetter? : Char → Option (ElementKind × Nat)
  | '?' => some (.bool, 1)
  | 'b' => some (.signed, 1)
  | 'B' => some (.unsigned, 1)
  | 'h' => some (.signed, 2)
  | 'H' => some (.unsigned, 2)
  | 'i' => some (.signed, 4)
  | 'I' => some (.unsigned, 4)
  | 'l' | 'q' | 'p' | 'n' => some (.signed, 8)
  | 'L' | 'Q' | 'P' | 'N' => some (.unsigned, 8)
  | 'e' => some (.float, 2)
  | 'f' => some (.float, 4)
  | 'd' => some (.float, 8)
  | 'F' => some (.complex, 8)
  | 'D' => some (.complex, 16)
  | 'U' => some (.text, 0)
  | 'S' | 'a' => some (.bytes, 0)
  | 'c' => some (.bytes, 1)
  | 'V' => some (.blob, 0)
  | 'M' => some (.instant, 8)
  | 'm' => some (.span, 8)
  | 'O' => some (.object, 8)
  | _ => none

/-- The names of types. -/
def named : List (List String × ElementKind × Nat) := [
  (["bool", "bool_"], .bool, 1), (["int8", "byte"], .signed, 1), (["int16", "short"], .signed, 2),
  (["int32", "intc"], .signed, 4),
  (["int64", "long", "longlong", "intp", "int_", "int"], .signed, 8),
  (["uint8", "ubyte"], .unsigned, 1), (["uint16", "ushort"], .unsigned, 2),
  (["uint32", "uintc"], .unsigned, 4),
  (["uint64", "ulong", "ulonglong", "uintp", "uint"], .unsigned, 8),
  (["float16", "half"], .float, 2), (["float32", "single"], .float, 4),
  (["float64", "double", "float"], .float, 8), (["complex64", "csingle"], .complex, 8),
  (["complex128", "cdouble", "complex"], .complex, 16), (["object", "object_"], .object, 8),
  (["bytes", "bytes_"], .bytes, 0), (["str", "str_", "unicode"], .text, 0), (["void"], .blob, 0),
  (["datetime64"], .instant, 8), (["timedelta64"], .span, 8)]

/-- The type of a name. -/
def ofName? (name : String) : Option ElementType :=
  (named.find? fun row => row.1.contains name).map fun row => ⟨row.2.1, row.2.2, false⟩

/-- The number that the whole of a text stands for.  Blanks and a sign may stand in front; a number
with a minus sign only counts if it is zero. -/
def number? (text : List Char) : Option Nat :=
  let text := text.dropWhile fun c => c == ' ' || (9 ≤ c.toNat && c.toNat ≤ 13)
  let (negative, digits) :=
    match text with
    | '-' :: rest => (true, rest)
    | '+' :: rest => (false, rest)
    | _ => (false, text)
  if digits.isEmpty || !digits.all Char.isDigit then none
  else
    let n := Nat.ofDigitChars 10 digits 0
    if negative && n != 0 then none else some n

/-- The type behind the byte order of a short form: a letter alone, or a letter and a width. -/
def ofLetters? (bigEndian : Bool) : List Char → Option ElementType
  | [] => none
  | [c] => (ofLetter? c).map fun (kind, width) => ⟨kind, width, bigEndian⟩
  | c :: width => (number? width).bind (ofWidth? bigEndian c)

/-- **The type that a short form or a name stands for.**  The byte order may be left out. -/
def ofCode? (code : String) : Option ElementType :=
  match code.toList with
  | '>' :: rest => ofLetters? true rest
  | '<' :: rest | '=' :: rest | '|' :: rest => ofLetters? false rest
  | rest => (ofLetters? false rest).orElse fun _ => ofName? code

end ElementType

end AutomatonShell.Archive
