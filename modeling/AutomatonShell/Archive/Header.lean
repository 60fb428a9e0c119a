import AutomatonShell.Archive.Layout

/-!
# The header of an array file

The header is a table with three fields: the element type, whether the first index runs fastest, and
the shape.

* `Header` — the three.
* `headerText` — a header in writing.
* `readHeader` — **the header that a text stands for**, in whatever way its table is spelled.
  Headers of the first two versions may have an `L` behind their numbers.
-/

namespace AutomatonShell.Archive

/-- What a header says of an array. -/
structure Header where
  /-- The elements. -/
  layout : ElementLayout
  /-- Whether the elements are stored with the first index running fastest. -/
  firstIndexFastest : Bool
  /-- How many indices each dimension has; a negative size stands for what is left. -/
  sizes : List Int
  deriving Repr, DecidableEq

/-! ## Writing -/

/-- A shape in writing: the sizes between parentheses, and a comma behind a single one. -/
def shapeText : List Nat → String
  | [] => "()"
  | [n] => "(" ++ toString n ++ ",)"
  | shape => "(" ++ String.intercalate ", " (shape.map toString) ++ ")"

/-- The fields of a header in writing. -/
def headerText (t : ElementType) (firstIndexFastest : Bool) (shape : List Nat) : String :=
  "\x7b'descr': '" ++ t.code ++ "', 'fortran_order': "
    ++ (if firstIndexFastest then "True" else "False") ++ ", 'shape': " ++ shapeText shape
    ++ ", \x7d"

/-! ## Reading the table -/

/-- Pieces without the words `L` that stand right behind a number. -/
def dropLongMarks : (afterNumber : Bool) → List Lexeme → List Lexeme
  | _, [] => []
  | _, .number written value :: rest => .number written value :: dropLongMarks true rest
  | afterNumber, .gap written :: rest => .gap written :: dropLongMarks afterNumber rest
  | afterNumber, .word written :: rest =>
    if afterNumber && written = ['L'] then .gap [' '] :: dropLongMarks true rest
    else .word written :: dropLongMarks false rest
  | _, lexeme :: rest => lexeme :: dropLongMarks false rest

/-- A piece as it is written, with every blank as a space. -/
def Lexeme.spaced : Lexeme → List Char
  | gap w | indent w => w.map fun c => if isGap c then ' ' else c
  | lexeme => lexeme.written

/-- Pieces put together again.  Blanks at the very end are left out. -/
def respelled (lexemes : List Lexeme) : List Char :=
  let kept :=
    match lexemes.reverse with
    | .indent _ :: rest => rest.reverse
    | _ => lexemes
  kept.flatMap Lexeme.spaced

/-- The value that a header spells.  An old one is read once more without the marks of long numbers
if it spells nothing as it stands; only then is it complained about. -/
def headerValue (old : Bool) (text : List Char) : Reading Literal := do
  let value ←
    match readLiteral? text with
    | some value => .ok value
    | none =>
      if !old then .damaged
      else .ofOption (readLiteral? (respelled (dropLongMarks false (← scan text))))
  match value.fault? with
  | some f => .error (.fault f)
  | none => return value

/-! ## Reading the fields -/

/-- The names of the fields. -/
def fieldNames : List String := ["descr", "fortran_order", "shape"]

/-- The last value of a key among the entries of a table. -/
def valueOf? (entries : List (Literal × Literal)) (name : String) : Option Literal :=
  entries.reverse.findSome? fun (key, value) =>
    match key with
    | .text content => if content = name.toList then some value else none
    | _ => none

/-- Whether a key is one of the field names. -/
def isFieldName : Literal → Bool
  | .text content => fieldNames.contains (String.ofList content)
  | _ => false

/-- The complaint about keys that cannot be put in order: neighbours are compared. -/
def disorder? : List Literal → Option ReadFault
  | a :: b :: rest =>
    if Literal.comparable a b then disorder? (b :: rest)
    else some (.unordered b.kindName a.kindName)
  | _ => none

/-- The sizes of a shape. -/
def shapeSizes : Literal → Reading (List Int)
  | .tuple items => .ofOption (items.mapM Literal.int?)
  | _ => .damaged

/-- **The header that a text stands for.**  The table has the three fields and no other; of several
entries for one field the last one counts. -/
def readHeader (old : Bool) (text : List Char) : Reading Header := do
  match ← headerValue old text with
  | .dict entries =>
    let keys := entries.map Prod.fst
    match keys.all isFieldName, valueOf? entries "descr", valueOf? entries "fortran_order",
        valueOf? entries "shape" with
    | true, some descr, some (.bool firstIndexFastest), some shape =>
      let sizes ← shapeSizes shape
      let layout ← describedLayout descr
      return { layout, firstIndexFastest, sizes }
    | _, _, _, _ =>
      match disorder? keys with
      | some f => .error (.fault f)
      | none => .damaged
  | _ => .damaged

end AutomatonShell.Archive
