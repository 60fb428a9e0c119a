import AutomatonShell.Archive.ElementType
import AutomatonShell.Archive.LiteralReader

/-!
# Layouts of elements

A header describes the elements of an array by a value: a text that is the short form of a type, a
list of named types for elements that are groups, or a pair of such a value and the size of small
arrays.  A text may also be a list of formats.  A format is a short form that a count of repetitions
may stand in front of, and more than one of them make a group.

* `ElementLayout` — what is said of the elements.
* `ElementLayout.repeated` — the layout of small arrays.
* `Format.read` — the format that a text begins with.
* `describedLayout` — **the layout that a value describes**.
-/

namespace AutomatonShell.Archive

/-- What a header says of the elements of an array. -/
structure ElementLayout where
  /-- The type of the elements. -/
  type : ElementType
  /-- The types of the values in a group, if the elements are groups. -/
  parts : List ElementType := []
  /-- How many elements make up an entry: one, unless the type is that of small arrays. -/
  perEntry : Nat := 1
  deriving Repr, DecidableEq

namespace ElementLayout

/-- The layout of small arrays; `size` counts the elements of one.  Texts and bytes whose length is
open get it from a plain number. -/
def repeated (layout : ElementLayout) (size : Literal) : Option ElementLayout := do
  let kind := layout.type.kind
  let unsized :=
    layout.type.width = 0 && layout.perEntry = 1 && [.text, .bytes, .blob].contains kind
  match size.int? with
  | some n =>
    if n < 0 then none
    else if !unsized then some { layout with perEntry := layout.perEntry * n.toNat }
    else if ElementType.maxWidth < n.toNat then none
    else
      let unit := if kind = .text then 4 else 1
      some { layout with type := { layout.type with width := unit * n.toNat } }
  | none =>
    let items ← match size with
      | .tuple items | .list items => some items
      | _ => none
    let sizes ← items.mapM Literal.int?
    if (unsized && !sizes.isEmpty) || sizes.any (· < 0) then none
    else
      some { layout with perEntry := (sizes.map Int.toNat).foldl (· * ·) layout.perEntry }

/-- The layout of groups of values; references in them are as good as groups of references. -/
def ofParts (types : List ElementType) : ElementLayout :=
  if types.any (·.kind = .object) then { type := ⟨.object, 8, false⟩ }
  else { type := ⟨.record, (types.map ElementType.width).foldl (· + ·) 0, false⟩, parts := types }

end ElementLayout

/-! ## Lists of formats -/

/-- A format in writing. -/
structure Format where
  /-- The sign of the byte order, if there is one. -/
  order : Option Char
  /-- The count of repetitions; nothing if there is none. -/
  count : List Char
  /-- The letter and the width, or the name of a type. -/
  letters : List Char
  deriving Repr, DecidableEq

/-- Whether a character is a sign of the byte order. -/
def isOrderSign (c : Char) : Bool := "<>|=".toList.contains c

/-- The sign of the byte order that a text begins with, and the rest. -/
def takeOrder : List Char → Option Char × List Char
  | c :: rest => if isOrderSign c then (some c, rest) else (none, c :: rest)
  | [] => (none, [])

/-- A character that a text begins with, and the rest. -/
def takeChar (wanted : Char) : List Char → List Char × List Char
  | c :: rest => if c = wanted then ([c], rest) else ([], c :: rest)
  | [] => ([], [])

/-- The count of repetitions that a text begins with, and the rest: digits, commas and blanks, which
may stand in parentheses. -/
def takeCount (text : List Char) : List Char × List Char :=
  let (before, text) := text.span (· == ' ')
  let (opening, text) := takeChar '(' text
  let (sizes, text) := text.span fun c => c == ' ' || c == ',' || c.isDigit
  let (closing, text) := takeChar ')' text
  let (after, text) := text.span (· == ' ')
  (before ++ opening ++ sizes ++ closing ++ after, text)

/-- The sign of the byte order that two signs stand for, in front of a count and behind it.  If both
are given they mean the same. -/
def commonOrder? : Option Char → Option Char → Option (Option Char)
  | some a, some b =>
    let meaning (c : Char) : Char := if c = '=' then '<' else c
    if meaning a = meaning b then some (some a) else none
  | a, b => some (a <|> b)

/-- The format that a text begins with, and the rest. -/
def Format.read (text : List Char) : Option (Format × List Char) := do
  let (first, text) := takeOrder text
  let (count, text) := takeCount text
  let (second, text) := takeOrder text
  let (letters, text) := text.span fun c => c.isAlphanum || c == '.' || c == '?'
  return (⟨← commonOrder? first second, count, letters⟩, text)

/-- The value of a count.  Sizes with commas are a tuple, with or without parentheses. -/
def countValue? (count : List Char) : Option Literal :=
  if count.contains ',' && !count.contains '(' then readLiteral? ('(' :: count ++ [')'])
  else readLiteral? count

/-- The layout of a format. -/
def Format.layout? (f : Format) : Option ElementLayout := do
  let letters := if f.order = some '>' then '>' :: f.letters else f.letters
  let type ← ElementType.ofCode? (String.ofList letters)
  if f.count.isEmpty then some { type } else ElementLayout.repeated { type } (← countValue? f.count)

/-- Whether a character is a blank around a comma. -/
def isFormatBlank (c : Char) : Bool := c == ' ' || (9 ≤ c.toNat && c.toNat ≤ 13)

/-- The layouts of the formats of a list, and whether there was a comma behind one of them. -/
def readFormats : (limit : Nat) → List Char → Option (List ElementLayout × Bool)
  | 0, _ => none
  | limit + 1, text => do
    let (format, rest) ← Format.read text
    let layout ← format.layout?
    match rest.dropWhile isFormatBlank with
    | [] => return ([layout], false)
    | ',' :: rest =>
      match rest.dropWhile isFormatBlank with
      | [] => return ([layout], true)
      | rest =>
        let (layouts, _) ← readFormats limit rest
        return (layout :: layouts, true)
    | _ => none

/-- Whether a text has a comma outside brackets; `depth` counts the open ones. -/
def hasComma (depth : Int) : List Char → Bool
  | [] => false
  | ',' :: rest => depth == 0 || hasComma depth rest
  | '[' :: rest => hasComma (depth + 1) rest
  | ']' :: rest => hasComma (depth - 1) rest
  | _ :: rest => hasComma depth rest

/-- What the short forms of times begin with. -/
def timeForms : List (List Char) := ["M8", "m8", "datetime64", "timedelta64"].map String.toList

/-- Whether a text is a list of formats rather than a short form: it has a comma behind its first
character, or begins with a count. -/
def isFormatList (text : List Char) : Bool :=
  let counted :=
    match (takeOrder text).2 with
    | '(' :: ')' :: _ => true
    | c :: _ => c.isDigit
    | [] => false
  !(timeForms.any fun form => form.isPrefixOf text) && (counted || hasComma 0 (text.drop 1))

/-- The layout of a list of formats: a group, unless there is a single format without a comma.
Small arrays are not grouped. -/
def layoutOfFormats? (text : List Char) : Option ElementLayout := do
  let (layouts, grouped) ← readFormats (text.length + 1) text
  match layouts, grouped with
  | [layout], false => some layout
  | _, _ =>
    if layouts.any (·.perEntry ≠ 1) then none
    else some (ElementLayout.ofParts (layouts.map ElementLayout.type))

/-! ## Descriptions -/

/-- The layout that a text stands for. -/
def layoutOfText? (text : List Char) : Option ElementLayout :=
  if isFormatList text then layoutOfFormats? text
  else (ElementType.ofCode? (String.ofList text)).map fun type => { type }

/-- The type of a value in a group, with its name: a pair of both. -/
def describedPart : Literal → Option (List Char × ElementType)
  | .tuple [.text name, .text code] | .list [.text name, .text code] => do
    let type ← ElementType.ofCode? (String.ofList code)
    if name.isEmpty then none else some (name, type)
  | _ => none

/-- Whether a name is given twice. -/
def hasRepeat : List (List Char) → Bool
  | [] => false
  | name :: rest => rest.contains name || hasRepeat rest

/-- The layout of groups of values.  Their names differ. -/
def layoutOfGroup? (items : List Literal) : Option ElementLayout := do
  let parts ← items.mapM describedPart
  if hasRepeat (parts.map Prod.fst) then none
  else some (ElementLayout.ofParts (parts.map Prod.snd))

/-- **The layout that a value describes**: a text, a list of the parts of a group, or a pair of a
layout and the size of small arrays of it. -/
def describedLayout : Literal → Reading ElementLayout
  | .text code => .ofOption (layoutOfText? code)
  | .list items => .ofOption (layoutOfGroup? items)
  | .tuple [] => .error (.fault .incompleteType)
  | .tuple (base :: rest) => do
    let layout ← describedLayout base
    match rest with
    | [] => .error (.fault .incompleteType)
    | size :: _ => .ofOption (layout.repeated size)
  | _ => .damaged

end AutomatonShell.Archive
