/-!
# Name patterns

Which file names a compiled automaton may be written to is decided by a regular expression.  It is
matched at the start of the name; whether it also has to reach the end is up to the expression.

* `Pattern` — expressions over character sets, with anchors, sequence, choice and repetition.
* `Pattern.ends` — everything a match can leave behind; this is the meaning of an expression.
* `Pattern.accepts` — whether there is a match at the start of a name.
* `Pattern.archiveNames` — names of letters, digits, dots, underscores and hyphens that end in
  `.fsm` or `.bin`.
-/

namespace AutomatonShell

/-- A set of characters. -/
inductive CharSet where
  /-- One character. -/
  | literal (c : Char)
  /-- Every character but a newline. -/
  | any
  /-- The characters of some ranges, ends included, or all others. -/
  | ranges (negated : Bool) (members : List (Char × Char))
  deriving Repr, DecidableEq

/-- Whether a set holds a character. -/
def CharSet.mem : CharSet → Char → Bool
  | literal d, c => c == d
  | any, c => c != '\n'
  | ranges negated members, c =>
    (members.any fun range => range.1 ≤ c && c ≤ range.2) != negated

/-- A regular expression. -/
inductive Pattern where
  /-- Nothing. -/
  | empty
  /-- One character of a set. -/
  | char (set : CharSet)
  /-- The start of the text. -/
  | startAnchor
  /-- The end of the text, or the place before one newline that ends it. -/
  | endAnchor
  /-- One expression and then another. -/
  | seq (first second : Pattern)
  /-- One expression or another. -/
  | alt (first second : Pattern)
  /-- An expression any number of times. -/
  | star (body : Pattern)
  /-- An expression at least once. -/
  | plus (body : Pattern)
  /-- An expression or nothing. -/
  | optional (body : Pattern)
  deriving Repr, DecidableEq

namespace Pattern

/-- What any number of steps leave behind.  A step that reads nothing adds nothing, so as many
steps as there are characters are enough. -/
def repeatEnds (step : List Char → List (List Char)) : Nat → List Char → List (List Char)
  | 0, text => [text]
  | limit + 1, text =>
    text :: ((step text).filter fun rest => rest.length < text.length).flatMap
      (repeatEnds step limit)

/-- **What a match leaves behind**: the rests of a text after every way to match an expression at
its front.  The whole text has `total` characters, which tells the start anchor where it stands. -/
def ends (total : Nat) : Pattern → List Char → List (List Char)
  | empty, text => [text]
  | char set, text =>
    match text with
    | [] => []
    | c :: rest => if set.mem c then [rest] else []
  | startAnchor, text => if text.length = total then [text] else []
  | endAnchor, text => if text = [] ∨ text = ['\n'] then [text] else []
  | seq first second, text => (first.ends total text).flatMap (second.ends total)
  | alt first second, text => first.ends total text ++ second.ends total text
  | star body, text => repeatEnds (body.ends total) text.length text
  | plus body, text =>
    (body.ends total text).flatMap fun rest => repeatEnds (body.ends total) rest.length rest
  | optional body, text => text :: body.ends total text

/-- Whether an expression matches at the start of a name. -/
def accepts (p : Pattern) (name : String) : Bool :=
  !(p.ends name.toList.length name.toList).isEmpty

/-- Expressions one after the other. -/
def seqAll : List Pattern → Pattern
  | [] => empty
  | [p] => p
  | p :: rest => seq p (seqAll rest)

/-- The letters of a word one after the other. -/
def word (letters : List Char) : Pattern := seqAll (letters.map fun c => char (.literal c))

/-- **The names of compiled automata**: letters, digits, dots, underscores and hyphens, and then
`.fsm` or `.bin`. -/
def archiveNames : Pattern :=
  seqAll [
    startAnchor,
    plus (char (.ranges false
      [('A', 'Z'), ('a', 'z'), ('0', '9'), ('.', '.'), ('_', '_'), ('-', '-')])),
    char (.literal '.'),
    alt (word ['f', 's', 'm']) (word ['b', 'i', 'n']),
    endAnchor]

end Pattern

end AutomatonShell
