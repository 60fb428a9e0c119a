import AutomatonShell.Text.LowerTable
import AutomatonShell.Text.WordEnd

/-!
# Letter case

Names are compared in upper case and file-name endings in lower case.

Declared names are plain ASCII, so a text can only be equal to one when its whole upper-case form
is ASCII.  `upperChar` is therefore exact on the characters whose upper-case form is ASCII — the
letters `a` to `z`, and ten others such as the dotless i, the long s and the ligatures — and leaves
every other character alone.  A character left alone is not ASCII, so it still equals no name.

Endings may be any text, so `lower` is the full Unicode mapping, one character to one or two.

* `upper` — upper case, as far as names can tell.
* `lower` — full lower case.
-/

namespace AutomatonShell.Text

/-- The upper-case form of a character, if that form is ASCII; else the character itself. -/
def upperChar (c : Char) : List Char :=
  if c.isLower then [c.toUpper]
  else if c = 'ß' then ['S', 'S']
  else if c = 'ı' then ['I']
  else if c = 'ſ' then ['S']
  else if c = 'ﬀ' then ['F', 'F']
  else if c = 'ﬁ' then ['F', 'I']
  else if c = 'ﬂ' then ['F', 'L']
  else if c = 'ﬃ' then ['F', 'F', 'I']
  else if c = 'ﬄ' then ['F', 'F', 'L']
  else if c = 'ﬅ' then ['S', 'T']
  else if c = 'ﬆ' then ['S', 'T']
  else [c]

/-- A text in upper case, as far as ASCII names can tell. -/
def upper (text : String) : String := String.ofList (text.toList.flatMap upperChar)

/-- The lower-case form of a single character, from its offset in `lowerTable`. -/
def lowerChar (c : Char) : Char :=
  if c.isUpper then c.toLower
  else if c.toNat < 128 then c
  else
    match lowerTable.find? fun row =>
        row.first ≤ c.toNat && c.toNat ≤ row.last && (c.toNat - row.first) % row.step == 0 with
    | some row => Char.ofNat (c.toNat + row.offset).toNat
    | none => c

/-- Whether the next character that is not case-ignorable is a letter that has a case. -/
def meetsCased (text : List Char) : Bool :=
  match text.dropWhile isCaseIgnorable with
  | [] => false
  | c :: _ => isCased c

/-- Lower case from left to right; `before` is what was read, the nearest character first.  A
capital sigma that ends a word becomes the final sigma, and a dotted capital I becomes an i and
a combining dot. -/
def lowerFrom (before : List Char) : List Char → List Char
  | [] => []
  | c :: rest =>
    let image :=
      if c = 'Σ' then [if meetsCased before && !meetsCased rest then 'ς' else 'σ']
      else if c = 'İ' then ['i', Char.ofNat 0x307]
      else [lowerChar c]
    image ++ lowerFrom (c :: before) rest

/-- A text in lower case. -/
def lower (text : String) : String := String.ofList (lowerFrom [] text.toList)

end AutomatonShell.Text
