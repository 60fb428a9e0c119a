import AutomatonShell.Archive.Unreadable

/-!
# Literals

The header of an array file is one value in writing: a table from texts to texts, truth values and
tuples of whole numbers.  It may be spelled in any way a literal can be spelled, so the reader has
to know the other kinds of value too, if only to turn them down.

* `Literal` — the values.  Of numbers that are not whole and of byte strings only the kind is kept.
* `Literal.kindName` — what a value is called in complaints.
* `Literal.fault?` — the first complaint that building the value leads to.
-/

namespace AutomatonShell.Archive

/-- A value that can be written down. -/
inductive Literal where
  | none
  | ellipsis
  | bool (value : Bool)
  | int (value : Int)
  | float
  | complex
  | text (content : List Char)
  | bytes
  | tuple (items : List Literal)
  | list (items : List Literal)
  | set (items : List Literal)
  | dict (entries : List (Literal × Literal))

namespace Literal

/-- What a value is called in complaints. -/
def kindName : Literal → String
  | none => "NoneType"
  | ellipsis => "ellipsis"
  | bool _ => "bool"
  | int _ => "int"
  | float => "float"
  | complex => "complex"
  | text _ => "str"
  | bytes => "bytes"
  | tuple _ => "tuple"
  | list _ => "list"
  | set _ => "set"
  | dict _ => "dict"

/-- Whether a value is a number that lies on the number line. -/
def isReal : Literal → Bool
  | int _ | float => true
  | _ => false

/-- The whole number that a value counts as; truth values count as zero and one. -/
def int? : Literal → Option Int
  | int n => some n
  | bool b => some (if b then 1 else 0)
  | _ => Option.none

/-- What values are ordered by: two of one class can be compared, others cannot. -/
def orderClass : Literal → Option Nat
  | bool _ | int _ | float => some 0
  | text _ => some 1
  | bytes => some 2
  | tuple _ => some 3
  | _ => Option.none

/-- Whether two values can be compared. -/
def comparable (a b : Literal) : Bool := a.orderClass.isSome && a.orderClass == b.orderClass

/-! ## Keys

A list, a set or a table cannot be a key or stand in a set, and no more can a tuple with one of them
inside. -/

mutual

/-- What keeps a value from being a key: the kind of the first part that may change. -/
def changeable? : Literal → Option String
  | tuple items => firstChangeable? items
  | list _ => some "list"
  | set _ => some "set"
  | dict _ => some "dict"
  | _ => Option.none

/-- What keeps one of some values from being a key. -/
def firstChangeable? : List Literal → Option String
  | [] => Option.none
  | item :: rest => (changeable? item).orElse fun _ => firstChangeable? rest

end

mutual

/-- The kind of the first value that is used as a key, or put into a set, and cannot be.  The values
are taken in the order they are written in; a key is only used once its entry is complete. -/
def misusedKind? : Literal → Option String
  | tuple items => misusedItem? items
  | list items => misusedItem? items
  | set items => misusedMember? items
  | dict entries => misusedEntry? entries
  | _ => Option.none

/-- The first misuse within the items of a list. -/
def misusedItem? : List Literal → Option String
  | [] => Option.none
  | item :: rest => (misusedKind? item).orElse fun _ => misusedItem? rest

/-- The first misuse among the members of a set. -/
def misusedMember? : List Literal → Option String
  | [] => Option.none
  | item :: rest =>
    ((misusedKind? item).orElse fun _ => changeable? item).orElse fun _ => misusedMember? rest

/-- The first misuse among the entries of a table. -/
def misusedEntry? : List (Literal × Literal) → Option String
  | [] => Option.none
  | (key, value) :: rest =>
    (((misusedKind? key).orElse fun _ => misusedKind? value).orElse fun _ =>
      changeable? key).orElse fun _ => misusedEntry? rest

end

/-- **The first complaint** that building a value leads to. -/
def fault? (value : Literal) : Option ReadFault := (misusedKind? value).map .unhashable

end Literal

end AutomatonShell.Archive
