import AutomatonShell.Archive.Scanner
import AutomatonShell.Text.Lines

/-!
# Reading a literal

A value in writing is cut into pieces and put together from them.  Blanks, comments and line breaks
inside brackets mean nothing; any value may stand in parentheses; a comma may follow the last item
of a tuple, list, set or table.

* `textContent?` — what a text between quotes stands for.
* `readValue` — the value that pieces begin with.
* `readLiteral?` — **the value that a text spells**, if it spells one.
-/

namespace AutomatonShell.Archive

/-! ## Texts between quotes -/

/-- The characters with names of their own among those that a header is made of. -/
def namedChars : List (String × Char) := [
  ("space", ' '), ("plus sign", '+'), ("comma", ','), ("hyphen-minus", '-'), ("full stop", '.'),
  ("digit zero", '0'), ("digit one", '1'), ("digit two", '2'), ("digit three", '3'),
  ("digit four", '4'), ("digit five", '5'), ("digit six", '6'), ("digit seven", '7'),
  ("digit eight", '8'), ("digit nine", '9'), ("less-than sign", '<'), ("equals sign", '='),
  ("greater-than sign", '>'), ("question mark", '?'), ("low line", '_'), ("vertical line", '|')]

/-- The character of a name, in any letter case: a letter, or one of those with own names. -/
def charNamed? (name : List Char) : Option Char :=
  let name := String.ofList (name.map Char.toLower)
  let letter (intro : String) : Option Char :=
    match (name.toList.drop intro.length) with
    | [c] => if c.isLower && intro.toList.isPrefixOf name.toList then some c else none
    | _ => none
  match letter "latin small letter ", letter "latin capital letter " with
  | some c, _ => some c
  | _, some c => some c.toUpper
  | none, none => namedChars.lookup name

/-- The character of a code point up to the last one.  One that no character has stands for no key
and no element type, and neither does the replacement character that is put in its place. -/
def charOfCode? (code : Nat) : Option Char :=
  if code < 0x110000 then some (if code.isValidChar then Char.ofNat code else Char.ofNat 0xFFFD)
  else none

/-- The character that a number of hexadecimal digits stands for, and what follows them. -/
def hexChar? (count : Nat) (text : List Char) : Option (Char × List Char) :=
  let digits := text.take count
  if digits.length = count && digits.all (isDigitIn 16) then
    (charOfCode? (digitsValue 16 digits)).map fun c => (c, text.drop count)
  else none

/-- What a backslash and the text behind it stand for, and what follows; nothing if an escape is not
complete.  Names and longer numbers only count in texts, not in byte strings. -/
def readEscape? (inBytes : Bool) (text : List Char) : Option (List Char × List Char) :=
  let single : Option (Char × List Char) → Option (List Char × List Char) :=
    Option.map fun (c, rest) => ([c], rest)
  match text with
  | [] => none
  | c :: rest =>
    match c with
    | '\n' => some ([], rest)
    | '\\' | '\'' | '"' => some ([c], rest)
    | 'a' => some ([Char.ofNat 7], rest)
    | 'b' => some ([Char.ofNat 8], rest)
    | 't' => some (['\t'], rest)
    | 'n' => some (['\n'], rest)
    | 'v' => some ([Char.ofNat 11], rest)
    | 'f' => some ([Char.ofNat 12], rest)
    | 'r' => some (['\r'], rest)
    | 'x' => single (hexChar? 2 rest)
    | _ =>
      let octal := (text.take 3).takeWhile (isDigitIn 8)
      if !octal.isEmpty then
        single ((charOfCode? (digitsValue 8 octal)).map fun c => (c, text.drop octal.length))
      else if inBytes then some (['\\', c], rest)
      else if c == 'u' then single (hexChar? 4 rest)
      else if c == 'U' then single (hexChar? 8 rest)
      else if c == 'N' then
        match rest with
        | '\x7b' :: inside =>
          if inside.contains '\x7d' then
            single ((charNamed? (inside.takeWhile (· != '\x7d'))).map fun c =>
              (c, (inside.dropWhile (· != '\x7d')).drop 1))
          else none
        | _ => none
      else some (['\\', c], rest)

/-- The content of what stands between quotes.  In a raw text a backslash is just that, though it
keeps the quote behind it from closing the text.  A line may only end inside triple quotes or behind
a backslash. -/
def unescape (raw inBytes tripled : Bool) : (limit : Nat) → List Char → Option (List Char)
  | 0, _ => some []
  | limit + 1, text =>
    match text with
    | [] => some []
    | c :: rest =>
      if c == '\\' then do
        let (content, rest) ←
          if raw then some (c :: rest.take 1, rest.drop 1) else readEscape? inBytes rest
        return content ++ (← unescape raw inBytes tripled limit rest)
      else if c == '\n' && !tripled then none
      else (unescape raw inBytes tripled limit rest).map (c :: ·)

/-- The value of a text piece: a text, or a byte string, which only holds ASCII. -/
def textContent? (style : List Char) (tripled : Bool) (body : List Char) : Option Literal := do
  let letters := style.map Char.toLower
  let inBytes := letters.contains 'b'
  let content ← unescape (letters.contains 'r') inBytes tripled body.length body
  if letters.contains 'f' then none
  else if inBytes then if body.all (·.toNat < 128) then some .bytes else none
  else some (.text content)

/-! ## Values -/

/-- Whether pieces mean nothing to the value. -/
def Lexeme.isBlank : Lexeme → Bool
  | gap _ | comment _ | lineBreak _ => true
  | _ => false

/-- The longest whole number in decimal digits that is read. -/
def maxDecimalDigits : Nat := 4300

/-- Whether a number has too many decimal digits. -/
def tooLong (written : List Char) (value : Literal) : Bool :=
  match value with
  | .int n => n != 0 && written.all (fun c => c.isDigit || c == '_')
      && maxDecimalDigits < (written.filter Char.isDigit).length
  | _ => false

/-- What a value may still become a part of. -/
inductive Standing where
  /-- A number without a sign: it may get one, or be a part of a complex number. -/
  | plain
  /-- A number with a sign: it may be the real part of a complex number. -/
  | signed
  /-- Anything else. -/
  | complete
  deriving DecidableEq

/-- What has been read from the beginning of some pieces, and the pieces behind it. -/
abbrev Ahead (α : Type) := α × List Lexeme

/-- A text continued by the texts that stand right behind it.  Texts and byte strings do not mix. -/
def joinTexts (value : Literal) : List Lexeme → Option (Ahead Literal)
  | .text style _ tripled body :: rest => do
    match value, ← textContent? style tripled body with
    | .text a, .text b => joinTexts (.text (a ++ b)) rest
    | .bytes, .bytes => joinTexts .bytes rest
    | _, _ => none
  | rest => some (value, rest)

/-- A number with its sign turned over. -/
def negated : Literal → Literal
  | .int n => .int (-n)
  | value => value

mutual

/-- The value that pieces begin with, and how it stands: a number with a sign, the sum of a real and
an imaginary number, or any other value. -/
def readValue : (limit : Nat) → List Lexeme → Option (Ahead (Literal × Standing))
  | 0, _ => none
  | limit + 1, lexemes => do
    let ((value, standing), rest) ← readSigned limit lexemes
    match rest with
    | .mark c :: rest =>
      if c != '+' && c != '-' then some ((value, standing), .mark c :: rest)
      else
        match ← readAtom limit rest with
        | ((.complex, .plain), rest) =>
          if standing != .complete && value.isReal then some ((.complex, .complete), rest) else none
        | _ => none
    | rest => some ((value, standing), rest)

/-- A value that may have a sign. -/
def readSigned : (limit : Nat) → List Lexeme → Option (Ahead (Literal × Standing))
  | 0, _ => none
  | limit + 1, lexemes =>
    match lexemes with
    | .mark c :: rest =>
      if c != '+' && c != '-' then readAtom limit lexemes
      else do
        let ((value, standing), rest) ← readAtom limit rest
        if standing != .plain then none
        else some ((if c == '-' then negated value else value, .signed), rest)
    | _ => readAtom limit lexemes

/-- A value without a sign. -/
def readAtom : (limit : Nat) → List Lexeme → Option (Ahead (Literal × Standing))
  | 0, _ => none
  | limit + 1, lexemes =>
    let complete (value : Literal) (rest : List Lexeme) : Option (Ahead (Literal × Standing)) :=
      some ((value, .complete), rest)
    match lexemes with
    | .number written value :: rest =>
      if tooLong written value then none else some ((value, .plain), rest)
    | .text style _ tripled body :: rest => do
      let (value, rest) ← joinTexts (← textContent? style tripled body) rest
      complete value rest
    | .dots :: rest => complete .ellipsis rest
    | .word w :: rest =>
      if w = "True".toList then complete (.bool true) rest
      else if w = "False".toList then complete (.bool false) rest
      else if w = "None".toList then complete .none rest
      else if w = "set".toList then
        match rest with
        | .mark '(' :: .mark ')' :: rest => complete (.set []) rest
        | _ => none
      else none
    | .mark '(' :: .mark ')' :: rest => complete (.tuple []) rest
    | .mark '(' :: rest => do
      let ((value, standing), rest) ← readValue limit rest
      match rest with
      | .mark ')' :: rest => some ((value, standing), rest)
      | .mark ',' :: rest =>
        let (items, rest) ← readItems ')' limit rest
        complete (.tuple (value :: items)) rest
      | _ => none
    | .mark '[' :: rest => do
      let (items, rest) ← readItems ']' limit rest
      complete (.list items) rest
    | .mark '\x7b' :: .mark '\x7d' :: rest => complete (.dict []) rest
    | .mark '\x7b' :: rest => do
      let ((first, _), rest) ← readValue limit rest
      match rest with
      | .mark ':' :: rest =>
        let ((value, _), rest) ← readValue limit rest
        let (entries, rest) ← readPairs limit rest
        complete (.dict ((first, value) :: entries)) rest
      | .mark '\x7d' :: rest => complete (.set [first]) rest
      | .mark ',' :: rest =>
        let (items, rest) ← readItems '\x7d' limit rest
        complete (.set (first :: items)) rest
      | _ => none
    | _ => none

/-- Values with commas between them, up to a closing bracket. -/
def readItems (closing : Char) : (limit : Nat) → List Lexeme → Option (Ahead (List Literal))
  | 0, _ => none
  | limit + 1, lexemes =>
    match lexemes with
    | .mark c :: rest =>
      if c = closing then some ([], rest) else readItemsFrom closing limit lexemes
    | _ => readItemsFrom closing limit lexemes

/-- At least one value, and what `readItems` reads behind it. -/
def readItemsFrom (closing : Char) : (limit : Nat) → List Lexeme → Option (Ahead (List Literal))
  | 0, _ => none
  | limit + 1, lexemes => do
    let ((value, _), rest) ← readValue limit lexemes
    match rest with
    | .mark c :: rest =>
      if c = ',' then
        let (items, rest) ← readItems closing limit rest
        some (value :: items, rest)
      else if c = closing then some ([value], rest)
      else none
    | _ => none

/-- The entries of a table behind its first one, up to the closing brace. -/
def readPairs : (limit : Nat) → List Lexeme → Option (Ahead (List (Literal × Literal)))
  | 0, _ => none
  | limit + 1, lexemes =>
    match lexemes with
    | .mark '\x7d' :: rest => some ([], rest)
    | .mark ',' :: .mark '\x7d' :: rest => some ([], rest)
    | .mark ',' :: rest => do
      let ((key, _), rest) ← readValue limit rest
      match rest with
      | .mark ':' :: rest =>
        let ((value, _), rest) ← readValue limit rest
        let (entries, rest) ← readPairs limit rest
        some ((key, value) :: entries, rest)
      | _ => none
    | _ => none

end

/-! ## The whole -/

/-- The most brackets that may be open at once. -/
def maxBrackets : Int := 200

/-- Whether more brackets are open than allowed, beginning with `level`. -/
def tooDeep (level : Int) : List Lexeme → Bool
  | .mark c :: rest =>
    maxBrackets < level + bracketStep c || tooDeep (level + bracketStep c) rest
  | _ :: rest => tooDeep level rest
  | [] => false

/-- Whether a piece is the end of the value. -/
def Lexeme.endsValue : Lexeme → Bool
  | lineEnd _ => true
  | _ => false

/-- **The value that a text spells.**  There is nothing else in the text, and no NUL. -/
def readLiteral? (text : List Char) : Option Literal :=
  if text.contains (Char.ofNat 0) then none
  else
    let text := Text.unifyNewlines (text.dropWhile fun c => c == ' ' || c == '\t')
    match scan text with
    | .error _ => none
    | .ok lexemes =>
      let lexemes := lexemes.filter fun lexeme => !lexeme.isBlank
      if tooDeep 0 lexemes then none
      else
        match readValue (8 * lexemes.length + 8) lexemes with
        | some ((value, _), rest) => if rest.all Lexeme.endsValue then some value else none
        | none => none

end AutomatonShell.Archive
