import AutomatonShell.Archive.Literal

/-!
# The pieces of a header

A header is cut into pieces before it is read.  Cutting never fails as such: what begins nothing is
a piece of its own, so that complaints about brackets and texts left open can be told from all other
mistakes.

* `Lexeme` — the pieces; put together, their spellings are what was cut up.
* `readNumber?` — the number at the beginning of a text.
* `closeText?` — the rest of a text in quotes, up to its closing quotes.
-/

namespace AutomatonShell.Archive

/-- A piece of a header. -/
inductive Lexeme where
  /-- A number, as it is written, and its value. -/
  | number (written : List Char) (value : Literal)
  /-- A word. -/
  | word (written : List Char)
  /-- A text: the letters in front of it, its quote, whether the quote stands three times, and what
  stands between the quotes, as it is written. -/
  | text (style : List Char) (quote : Char) (tripled : Bool) (body : List Char)
  /-- Three dots. -/
  | dots
  /-- Any other character, be it punctuation or a mistake. -/
  | mark (c : Char)
  /-- A text that broke off at the end of a line. -/
  | broken (written : List Char)
  /-- The end of the value. -/
  | lineEnd (written : List Char)
  /-- The end of a line inside brackets, or of an empty one. -/
  | lineBreak (written : List Char)
  /-- A comment. -/
  | comment (written : List Char)
  /-- Blanks, or the mark of a line that goes on in the next one. -/
  | gap (written : List Char)
  /-- Blanks that indent a line. -/
  | indent (written : List Char)

/-- Quotes as they stand on either side of a text. -/
def quotes (quote : Char) (tripled : Bool) : List Char :=
  List.replicate (if tripled then 3 else 1) quote

/-- A piece as it is written. -/
def Lexeme.written : Lexeme → List Char
  | number w _ | word w | broken w | lineEnd w | lineBreak w | comment w | gap w | indent w => w
  | text style quote tripled body =>
    style ++ quotes quote tripled ++ body ++ quotes quote tripled
  | dots => ['.', '.', '.']
  | mark c => [c]

/-! ## Numbers -/

/-- Digits of one class, each but the first with at most one underscore in front. -/
def digitRun (isDigit : Char → Bool) : List Char → List Char × List Char
  | [] => ([], [])
  | c :: rest =>
    if isDigit c || (c == '_' && (rest.head?.map isDigit).getD false) then
      let (run, rest) := digitRun isDigit rest
      (c :: run, rest)
    else ([], c :: rest)

/-- A run of decimal digits that begins with one. -/
def decimalRun (text : List Char) : List Char × List Char :=
  if text.head? = some '_' then ([], text) else digitRun Char.isDigit text

/-- The value of a digit up to fifteen. -/
def digitValue (c : Char) : Nat :=
  if c.isDigit then c.toNat - 48 else c.toLower.toNat - 87

/-- The number that digits stand for; underscores do not count. -/
def digitsValue (base : Nat) (digits : List Char) : Nat :=
  (digits.filter (· != '_')).foldl (fun n c => base * n + digitValue c) 0

/-- An exponent, if there is a complete one. -/
def exponentPart (text : List Char) : List Char × List Char :=
  match text with
  | e :: rest =>
    if e != 'e' && e != 'E' then ([], text)
    else
      let (sign, after) :=
        match rest with
        | '+' :: after => (['+'], after)
        | '-' :: after => (['-'], after)
        | _ => ([], rest)
      match decimalRun after with
      | ([], _) => ([], text)
      | (digits, rest) => (e :: sign ++ digits, rest)
  | [] => ([], [])

/-- The base that a letter behind a zero announces. -/
def baseOf? : Char → Option Nat
  | 'x' | 'X' => some 16
  | 'o' | 'O' => some 8
  | 'b' | 'B' => some 2
  | _ => none

/-- Whether a character is a digit in a base up to sixteen. -/
def isDigitIn (base : Nat) (c : Char) : Bool :=
  (c.isDigit || ('a' ≤ c && c ≤ 'f') || ('A' ≤ c && c ≤ 'F')) && digitValue c < base

/-- A whole number in another base than ten: a zero, a letter and at least one digit. -/
def basedNumber? : List Char → Option (List Char × Literal × List Char)
  | '0' :: letter :: rest => do
    let base ← baseOf? letter
    match digitRun (isDigitIn base) rest with
    | ([], _) => none
    | (digits, rest) => some ('0' :: letter :: digits, .int (digitsValue base digits), rest)
  | _ => none

/-- The number at the beginning of a text, its value, and what follows it.  A zero only begins a
whole number of zeros. -/
def readNumber? (text : List Char) : Option (List Char × Literal × List Char) :=
  let (whole, afterWhole) := decimalRun text
  let (point, afterPoint) :=
    match afterWhole with
    | '.' :: rest =>
      let (fraction, rest) := decimalRun rest
      if whole.isEmpty && fraction.isEmpty then ([], afterWhole) else ('.' :: fraction, rest)
    | _ => ([], afterWhole)
  if whole.isEmpty && point.isEmpty then none
  else
    let (exponent, afterExponent) := exponentPart afterPoint
    let written := whole ++ point ++ exponent
    match afterExponent with
    | 'j' :: rest => some (written ++ ['j'], .complex, rest)
    | 'J' :: rest => some (written ++ ['J'], .complex, rest)
    | _ =>
      if written.length ≠ whole.length then some (written, .float, afterExponent)
      else
        match basedNumber? text with
        | some result => some result
        | none =>
          if whole.head? = some '0' then
            let (zeros, rest) := digitRun (· == '0') text
            some (zeros, .int 0, rest)
          else some (whole, .int (digitsValue 10 whole), afterWhole)

/-! ## Texts -/

/-- The letters that may stand in front of a text. -/
def textStyles : List (List Char) :=
  [[], ['b'], ['r'], ['u'], ['f'], ['b', 'r'], ['r', 'b'], ['f', 'r'], ['r', 'f']]

/-- The letters and the quote that a text begins with, and what follows the quote. -/
def openText? (text : List Char) : Option (List Char × Char × List Char) :=
  textStyles.findSome? fun style =>
    match text.drop style.length with
    | quote :: rest =>
      let letters := text.take style.length
      if (quote == '\'' || quote == '"') && letters.map Char.toLower == style then
        some (letters, quote, rest)
      else none
    | [] => none

/-- What stands in front of the closing quotes, and what follows them; nothing if they are not on
this line.  A backslash takes away the meaning of the character behind it. -/
def closeText? (quote : Char) (tripled : Bool) : List Char → Option (List Char × List Char)
  | [] => none
  | [c] => if !tripled && c == quote then some ([], []) else none
  | c :: d :: rest =>
    if c == '\\' then
      if d == '\n' then none
      else (closeText? quote tripled rest).map fun (body, rest) => (c :: d :: body, rest)
    else if c == quote && (!tripled || (d :: rest).take 2 == [quote, quote]) then
      some ([], (d :: rest).drop (if tripled then 2 else 0))
    else (closeText? quote tripled (d :: rest)).map fun (body, rest) => (c :: body, rest)

/-- Whether a line ends in a backslash, which joins the next line to it. -/
def joinsNext (line : List Char) : Bool :=
  match line.reverse with
  | '\n' :: '\\' :: _ => true
  | '\n' :: '\r' :: '\\' :: _ => true
  | _ => false

/-- Whether the backslash at the end of a line that begins a text joins the next line to it: not if
another backslash takes away its meaning. -/
def textGoesOn : List Char → Bool
  | ['\\', '\n'] => true
  | ['\\', '\r', '\n'] => true
  | '\\' :: _ :: rest => textGoesOn rest
  | _ :: rest => textGoesOn rest
  | [] => false

end AutomatonShell.Archive
