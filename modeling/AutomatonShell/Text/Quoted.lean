import AutomatonShell.Text.Unprintable

/-!
# Quoted text

Error texts show the offending text between quotes, with everything that would not be readable
there written as an escape.  Single quotes are used unless the text holds a single quote and no
double quote.

* `escapeChar`, `escapeCode` — one character of a quoted text, or its code point.
* `quoted`, `quotedCodes` — a text between quotes, the second given by its code points.
* `quotedBytes` — a byte string between quotes, with a `b` in front.
-/

namespace AutomatonShell.Text

/-- The lower-case hexadecimal form of a number, on at least `width` digits. -/
def hexPadded (width n : Nat) : List Char :=
  let digits := Nat.toDigits 16 n
  List.replicate (width - digits.length) '0' ++ digits

/-- The quote that needs no escape if that is possible: double quotes only around a text that
holds a single quote and no double one. -/
def quoteFor (text : List Char) : Char :=
  if text.contains '\'' && !text.contains '"' then '"' else '\''

/-- A code point written by its number. -/
def escapeNumber (code : Nat) : List Char :=
  if code < 0x100 then '\\' :: 'x' :: hexPadded 2 code
  else if code < 0x10000 then '\\' :: 'u' :: hexPadded 4 code
  else '\\' :: 'U' :: hexPadded 8 code

/-- One character between quotes: the quote, the backslash and the three common controls have short
escapes, what is not printable is written by its code point, and the rest stands for itself. -/
def escapeChar (quote c : Char) : List Char :=
  if c = quote || c = '\\' then ['\\', c]
  else if c = '\t' then ['\\', 't']
  else if c = '\n' then ['\\', 'n']
  else if c = '\r' then ['\\', 'r']
  else if isPrintable c then [c]
  else escapeNumber c.toNat

/-- A text between quotes. -/
def quoted (text : String) : String :=
  let quote := quoteFor text.toList
  String.ofList (quote :: text.toList.flatMap (escapeChar quote) ++ [quote])

/-- One code point between quotes.  One that no character has is written by its number. -/
def escapeCode (quote : Char) (code : Nat) : List Char :=
  if code.isValidChar then escapeChar quote (Char.ofNat code) else escapeNumber code

/-- A text between quotes, given by its code points. -/
def quotedCodes (codes : List Nat) : String :=
  let quote := quoteFor (codes.map Char.ofNat)
  String.ofList (quote :: codes.flatMap (escapeCode quote) ++ [quote])

/-- One byte between quotes: bytes above ASCII are always written by their number. -/
def escapeByte (quote : Char) (b : UInt8) : List Char :=
  if b.toNat < 0x80 then escapeChar quote (Char.ofNat b.toNat)
  else '\\' :: 'x' :: hexPadded 2 b.toNat

/-- A byte string between quotes, with a `b` in front. -/
def quotedBytes (bytes : List UInt8) : String :=
  let quote := quoteFor (bytes.map fun b => Char.ofNat b.toNat)
  String.ofList ('b' :: quote :: bytes.flatMap (escapeByte quote) ++ [quote])

/-- A list of texts, each quoted, between square brackets. -/
def quotedList (texts : List String) : String :=
  "[" ++ String.intercalate ", " (texts.map quoted) ++ "]"

end AutomatonShell.Text
