import AutomatonShell.Archive.Lexeme

/-!
# Cutting up a header

A header is cut up line by line.  Inside brackets, and behind a backslash at the end of a line, the
next line belongs to the value; elsewhere the end of a line ends it, and the blanks that a line
begins with are measured.

* `scan` — the pieces of a header, or the complaint that it leads to: it ends inside brackets, a
  text or a joined line, or its lines are indented unevenly.
-/

namespace AutomatonShell.Archive

/-- A text whose closing quotes have not come yet: the letters in front of it, its quotes, where it
began, and what was read of it. -/
structure PendingText where
  style : List Char
  quote : Char
  tripled : Bool
  line : Nat
  column : Nat
  body : List Char

/-- What is known between two lines. -/
structure ScanState where
  /-- How many brackets are open; closing ones may outnumber them. -/
  level : Int := 0
  /-- The indents of the lines above, the innermost first. -/
  indents : List Nat := [0]
  /-- Whether the last line is joined to the next one. -/
  joined : Bool := false
  /-- The text that is open, if one is. -/
  pending : Option PendingText := none

/-- The blanks within a line. -/
def isGap (c : Char) : Bool := c == ' ' || c == '\t' || c == Char.ofNat 12

/-- The characters of words: letters, digits and the underscore.  From U+0100 on every character
counts as one; a header with any of them outside of texts and comments is refused in the end. -/
def isWordChar (c : Char) : Bool :=
  let n := c.toNat
  c.isAlphanum || c == '_' || [0xAA, 0xB2, 0xB3, 0xB5, 0xB9, 0xBA, 0xBC, 0xBD, 0xBE].contains n
    || (0xC0 ≤ n && n != 0xD7 && n != 0xF7)

/-- How a character changes the number of open brackets. -/
def bracketStep (c : Char) : Int :=
  if c == '(' || c == '[' || c == '\x7b' then 1
  else if c == ')' || c == ']' || c == '\x7d' then -1
  else 0

/-- The end of a line, if one is there, and what follows it. -/
def lineEnd? : List Char → Option (List Char × List Char)
  | '\n' :: rest => some (['\n'], rest)
  | '\r' :: '\n' :: rest => some (['\r', '\n'], rest)
  | _ => none

/-- The text at the beginning of the rest of a line: complete, or pending with nothing left of the
line.  There is none if its quotes are not closed on a line that has to close them. -/
def scanText? (line column : Nat) (text : List Char) :
    Option (Lexeme × List Char ⊕ PendingText) := do
  let (style, quote, inside) ← openText? text
  let tripled := inside.take 2 == [quote, quote]
  let inside := if tripled then inside.drop 2 else inside
  match closeText? quote tripled inside with
  | some (body, rest) => some (.inl (.text style quote tripled body, rest))
  | none =>
    if tripled || textGoesOn inside then some (.inr ⟨style, quote, tripled, line, column, inside⟩)
    else none

/-- The pieces of the rest of a line; `length` is that of the whole line. -/
def scanRest (line length : Nat) : (limit : Nat) → ScanState → List Char → List Lexeme × ScanState
  | 0, s, _ => ([], s)
  | limit + 1, s, text =>
    let piece (lexeme : Lexeme) (s : ScanState) (rest : List Char) : List Lexeme × ScanState :=
      let (lexemes, s) := scanRest line length limit s rest
      (lexeme :: lexemes, s)
    match text with
    | [] => ([], s)
    | c :: rest =>
      if isGap c then piece (.gap (text.takeWhile isGap)) s (text.dropWhile isGap)
      else if c == '#' then
        let inComment (c : Char) : Bool := c != '\r' && c != '\n'
        piece (.comment (text.takeWhile inComment)) s (text.dropWhile inComment)
      else
        match lineEnd? text with
        | some (written, rest) =>
          piece (if 0 < s.level then .lineBreak written else .lineEnd written) s rest
        | none =>
          match if c == '\\' then lineEnd? rest else none with
          | some (written, rest) => piece (.gap (c :: written)) { s with joined := true } rest
          | none =>
            match scanText? line (length - text.length) text with
            | some (.inl (lexeme, rest)) => piece lexeme s rest
            | some (.inr pending) => ([], { s with pending := some pending })
            | none =>
              match readNumber? text with
              | some (written, value, rest) => piece (.number written value) s rest
              | none =>
                if ['.', '.', '.'].isPrefixOf text then piece .dots s (rest.drop 2)
                else if isWordChar c then
                  piece (.word (text.takeWhile isWordChar)) s (text.dropWhile isWordChar)
                else piece (.mark c) { s with level := s.level + bracketStep c } rest

/-- The column that blanks lead to: tabulators go to the next multiple of eight, a form feed goes
back to the margin. -/
def columnAfter (blanks : List Char) : Nat :=
  blanks.foldl (fun column c =>
    if c == ' ' then column + 1 else if c == '\t' then (column / 8 + 1) * 8 else 0) 0

/-- The pieces of a line on which a value may begin. -/
def scanStatement (line : Nat) (s : ScanState) (text : List Char) :
    Reading (List Lexeme × ScanState) :=
  let blanks := text.takeWhile isGap
  let rest := text.dropWhile isGap
  let column := columnAfter blanks
  let indent : List Lexeme := if column = 0 then [.gap blanks] else [.indent blanks]
  match rest with
  | [] => .ok (indent, s)
  | '\r' :: _ | '\n' :: _ => .ok ([.gap blanks, .lineBreak rest], s)
  | '#' :: _ =>
    let atEnd (c : Char) : Bool := c == '\r' || c == '\n'
    let ending := (rest.reverse.takeWhile atEnd).reverse
    .ok ([.gap blanks, .comment (rest.take (rest.length - ending.length)), .lineBreak ending], s)
  | _ =>
    let above := s.indents.dropWhile (column < ·)
    if column < s.indents.headD 0 && above.head? != some column then
      .error (.fault (.unevenIndent line))
    else
      let indents := if above.head? = some column then above else column :: above
      let (lexemes, s) := scanRest line text.length rest.length { s with indents } rest
      .ok (indent ++ lexemes, s)

/-- The pieces of a line on which an open text goes on. -/
def scanPending (line : Nat) (s : ScanState) (p : PendingText) (text : List Char) :
    List Lexeme × ScanState :=
  match closeText? p.quote p.tripled text with
  | some (body, rest) =>
    let (lexemes, s) := scanRest line text.length rest.length { s with pending := none } rest
    (.text p.style p.quote p.tripled (p.body ++ body) :: lexemes, s)
  | none =>
    if p.tripled || joinsNext text then
      ([], { s with pending := some { p with body := p.body ++ text } })
    else
      let written := p.style ++ quotes p.quote p.tripled ++ p.body ++ text
      ([.broken written], { s with pending := none })

/-- The pieces of lines, each of them given with its end; `line` is the number of the first. -/
def scanLines (line : Nat) (s : ScanState) : List (List Char) → Reading (List Lexeme)
  | [] =>
    match s.pending with
    | some p => .error (.fault (.openText p.line p.column))
    | none =>
      if s.level ≠ 0 || s.joined then .error (.fault (.openStatement line)) else .ok []
  | text :: rest => do
    let (lexemes, s) ←
      match s.pending with
      | some p => .ok (scanPending line s p text)
      | none =>
        if s.level = 0 && !s.joined then scanStatement line s text
        else .ok (scanRest line text.length text.length { s with joined := false } text)
    return lexemes ++ (← scanLines (line + 1) s rest)

/-- A text cut behind every newline. -/
def cutLines : List Char → List (List Char)
  | [] => []
  | c :: rest =>
    if c == '\n' then [c] :: cutLines rest
    else
      match cutLines rest with
      | [] => [[c]]
      | first :: others => (c :: first) :: others

/-- **The pieces of a header**, or the complaint that it leads to. -/
def scan (text : List Char) : Reading (List Lexeme) := scanLines 1 {} (cutLines text)

end AutomatonShell.Archive
