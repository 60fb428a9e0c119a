import AutomatonShell.Pattern.Basic

/-!
# Reading patterns

A pattern is written as characters that stand for themselves, `.` for any character but a newline,
`[...]` and `[^...]` for sets, `^` and `$` for the anchors, `(...)` for grouping, `|` for choice and
`*`, `+`, `?` behind an item for repetition.  A backslash takes the special meaning from a
punctuation character and makes control characters of some letters.

Regular expressions have more to them: counted repetitions, extended groups, classes and places
behind a backslash.  None of this is read here, and a text that uses it is refused as such.

Reading goes in two passes, each once over its input: the text is cut into tokens, and the tokens
are put together on a stack of open groups.

* `PatternError` — what makes a text no pattern, with its place and wording.
* `Pattern.Token`, `Pattern.tokens` — the first pass.  An error is a token too, so that the first
  error of the text is the one that is reported.
* `Pattern.parse` — the pattern a text spells.
-/

namespace AutomatonShell

/-- What makes a text no pattern, and where. -/
inductive PatternError where
  /-- A group is not closed. -/
  | unterminatedGroup (position : Nat)
  /-- A group is closed that was not opened. -/
  | unbalancedGroup (position : Nat)
  /-- A set is not closed. -/
  | unterminatedSet (position : Nat)
  /-- A range in a set runs backwards. -/
  | badRange (first last : Char) (position : Nat)
  /-- There is no item in front of a repetition. -/
  | nothingToRepeat (position : Nat)
  /-- A repetition is repeated. -/
  | multipleRepeat (position : Nat)
  /-- A backslash gives no meaning to what follows it. -/
  | badEscape (c : Char) (position : Nat)
  /-- A backslash ends the text. -/
  | trailingEscape (position : Nat)
  /-- What is written there means something that patterns do not have here. -/
  | unsupported (position : Nat)
  deriving Repr, DecidableEq

/-- A wording with the place behind it. -/
def PatternError.placed (wording : String) (position : Nat) : String :=
  wording ++ " at position " ++ toString position

/-- The wording of a pattern error. -/
def PatternError.message : PatternError → String
  | .unterminatedGroup p => placed "missing ), unterminated subpattern" p
  | .unbalancedGroup p => placed "unbalanced parenthesis" p
  | .unterminatedSet p => placed "unterminated character set" p
  | .badRange first last p =>
    placed ("bad character range " ++ String.singleton first ++ "-" ++ String.singleton last) p
  | .nothingToRepeat p => placed "nothing to repeat" p
  | .multipleRepeat p => placed "multiple repeat" p
  | .badEscape c p => placed ("bad escape \\" ++ String.singleton c) p
  | .trailingEscape p => placed "bad escape (end of pattern)" p
  | .unsupported p => placed "unsupported syntax" p

namespace Pattern

/-- The pieces a pattern is written in; the last one may be an error. -/
inductive Token where
  | item (p : Pattern)
  | openGroup
  | closeGroup
  | bar
  | star
  | plus
  | optional
  | bad (error : PatternError)
  deriving Repr, DecidableEq

/-- The control character a letter stands for behind a backslash. -/
def control? : Char → Option Char
  | 'n' => some '\n'
  | 't' => some '\t'
  | 'r' => some '\r'
  | 'f' => some (Char.ofNat 12)
  | 'v' => some (Char.ofNat 11)
  | 'a' => some (Char.ofNat 7)
  | _ => none

/-- Whether a letter or digit behind a backslash stands for a class, a place, a code point or an
earlier group. -/
def isClassEscape (c : Char) : Bool :=
  c.isDigit || ['A', 'Z', 'b', 'B', 'd', 'D', 'w', 'W', 's', 'S', 'x', 'u', 'U', 'N'].contains c

/-- The character that a character stands for behind a backslash. -/
def escaped (c : Char) (position : Nat) : Except PatternError Char :=
  if isClassEscape c then .error (.unsupported position)
  else
    match control? c with
    | some d => .ok d
    | none => if c.isAlphanum then .error (.badEscape c position) else .ok c

/-- Whether the text behind an opening brace makes it a counted repetition. -/
def startsCount (text : List Char) : Bool :=
  let behindFirst := text.dropWhile Char.isDigit
  let behindSecond :=
    match behindFirst with
    | ',' :: rest => rest.dropWhile Char.isDigit
    | rest => rest
  text.head? != some '}' && behindSecond.head? == some '}'

/-- A set that is still being read: where it began, whether it is negated, and its members. -/
structure OpenSet where
  start : Nat
  negated : Bool
  members : List (Char × Char) := []
  isFresh : Bool := true

/-- An open set with one more range. -/
def OpenSet.push (s : OpenSet) (range : Char × Char) : OpenSet :=
  { s with members := s.members ++ [range], isFresh := false }

/-- The token that a character outside a set is, in front of the rest of the text. -/
def plainToken (position : Nat) (c : Char) (rest : List Char) : Token :=
  match c with
  | '.' => .item (.char .any)
  | '^' => .item .startAnchor
  | '$' => .item .endAnchor
  | '(' => if rest.head? = some '?' then .bad (.unsupported position) else .openGroup
  | ')' => .closeGroup
  | '|' => .bar
  | '*' => .star
  | '+' => .plus
  | '?' => .optional
  | '{' => if startsCount rest then .bad (.unsupported position) else .item (.char (.literal '{'))
  | c => .item (.char (.literal c))

/-- The tokens of a text from a position on, each with its position.  Inside a set, `]` ends it
unless it is the first member. -/
def tokens (position : Nat) (inside : Option OpenSet) : List Char → List (Nat × Token)
  | [] =>
    match inside with
    | none => []
    | some s => [(position, .bad (.unterminatedSet s.start))]
  | '\\' :: rest =>
    match rest with
    | [] =>
      match inside with
      | none => [(position, .bad (.trailingEscape position))]
      | some s => [(position, .bad (.unterminatedSet s.start))]
    | c :: rest =>
      match inside, escaped c position with
      | _, .error e => [(position, .bad e)]
      | none, .ok d => (position, .item (.char (.literal d))) :: tokens (position + 2) none rest
      | some s, .ok d =>
        -- a range that begins with an escaped character
        if rest.head? = some '-' ∧ rest.tail.head? ≠ some ']' then
          [(position, .bad (.unsupported position))]
        else tokens (position + 2) (some (s.push (d, d))) rest
  | c :: rest =>
    match inside with
    | none =>
      match c, rest with
      | '[', '^' :: rest => tokens (position + 2) (some ⟨position, true, [], true⟩) rest
      | '[', rest => tokens (position + 1) (some ⟨position, false, [], true⟩) rest
      | c, rest => (position, plainToken position c rest) :: tokens (position + 1) none rest
    | some s =>
      if c = ']' ∧ ¬s.isFresh then
        (s.start, .item (.char (.ranges s.negated s.members))) :: tokens (position + 1) none rest
      else
        match rest with
        | '-' :: d :: rest' =>
          if d = ']' then tokens (position + 1) (some (s.push (c, c))) ('-' :: d :: rest')
          else if d = '\\' then [(position, .bad (.unsupported position))]
          else if d < c then [(position, .bad (.badRange c d position))]
          else tokens (position + 3) (some (s.push (c, d))) rest'
        | rest => tokens (position + 1) (some (s.push (c, c))) rest

/-- A group that is still being read: where it was opened, the choices that are complete, the items
of the last one, and the groups around it. -/
structure OpenGroup where
  start : Nat
  choices : List Pattern := []
  items : List Pattern := []

/-- The pattern of a group whose end is reached. -/
def OpenGroup.close (g : OpenGroup) : Pattern :=
  g.choices.foldr alt (seqAll g.items)

/-- Whether an expression is a repetition. -/
def isRepetition : Pattern → Bool
  | star _ | plus _ | optional _ => true
  | _ => false

/-- Whether an expression is an anchor, which cannot be repeated. -/
def isAnchor : Pattern → Bool
  | startAnchor | endAnchor => true
  | _ => false

/-- A group that is complete, as one item: it can be repeated, whatever it holds. -/
def grouped (p : Pattern) : Pattern := if isRepetition p || isAnchor p then seq p empty else p

/-- A repetition put around the last item of a group.  Behind another repetition, `+` and `?` would
say how much that one reads. -/
def repeatLast (position : Nat) (make : Pattern → Pattern) (items : List Pattern) :
    Except PatternError (List Pattern) :=
  match items.getLast? with
  | none => .error (.nothingToRepeat position)
  | some p =>
    if isAnchor p then .error (.nothingToRepeat position)
    else if isRepetition p then
      match make p with
      | star _ => .error (.multipleRepeat position)
      | _ => .error (.unsupported position)
    else .ok (items.dropLast ++ [make p])

/-- Tokens put together; `here` is the innermost open group and `outer` are those around it. -/
def assemble (here : OpenGroup) (outer : List OpenGroup) :
    List (Nat × Token) → Except PatternError Pattern
  | [] =>
    match outer with
    | [] => .ok here.close
    | _ => .error (.unterminatedGroup here.start)
  | (position, token) :: rest =>
    match token with
    | .bad e => .error e
    | .item p => assemble { here with items := here.items ++ [p] } outer rest
    | .openGroup => assemble ⟨position, [], []⟩ (here :: outer) rest
    | .closeGroup =>
      match outer with
      | [] => .error (.unbalancedGroup position)
      | next :: outer =>
        assemble { next with items := next.items ++ [grouped here.close] } outer rest
    | .bar =>
      assemble { here with choices := here.choices ++ [seqAll here.items], items := [] } outer rest
    | .star => do assemble { here with items := ← repeatLast position star here.items } outer rest
    | .plus => do assemble { here with items := ← repeatLast position plus here.items } outer rest
    | .optional => do
      assemble { here with items := ← repeatLast position optional here.items } outer rest

/-- **The pattern a text spells**, or the first error in it. -/
def parse (text : String) : Except PatternError Pattern :=
  assemble ⟨0, [], []⟩ [] (tokens 0 none text.toList)

end Pattern

end AutomatonShell
