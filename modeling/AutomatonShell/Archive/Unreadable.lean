import AutomatonShell.Archive.Inflate
import AutomatonShell.Text.Quoted

/-!
# What stops the reading of an archive

Bytes that are no archive, or no array, are *damaged*: whoever reads them says so in his own words.
Some bytes break the reading off with a complaint of its own instead.

* `ReadFault` — those complaints, with their wording.
* `Unreadable` — one or the other.
* `Reading` — the outcome of reading something.
-/

namespace AutomatonShell.Archive

/-- A complaint that breaks the reading of an archive off. -/
inductive ReadFault where
  /-- A member needs a later version of the format, given in tenths. -/
  | newerFormat (version : Nat)
  /-- A member is a patch to another one. -/
  | patchedData
  /-- A member is strongly encrypted. -/
  | strongEncryption
  /-- A member is encrypted. -/
  | encrypted (member : String)
  /-- A member is stored in a way that is not known. -/
  | unknownMethod
  /-- The compressed bytes of a member cannot be read. -/
  | compression (error : InflateError)
  /-- The bytes of a member are said to be compressed in a way that they are not. -/
  | otherCompression
  /-- A member starts in front of the file. -/
  | outsideFile
  /-- A header ends inside brackets, or behind a line that is to be continued. -/
  | openStatement (line : Nat)
  /-- A header ends inside a text that began there. -/
  | openText (line column : Nat)
  /-- A line of a header is indented less than the one before, but like none above it. -/
  | unevenIndent (line : Nat)
  /-- A header uses a value as a key or in a set that cannot be one. -/
  | unhashable (kind : String)
  /-- The keys of a header cannot be put in order. -/
  | unordered (kind other : String)
  /-- A header gives an element type in too few parts. -/
  | incompleteType
  /-- A header gives a size that no machine number holds. -/
  | sizeOutOfRange
  /-- An array holds a single code point that no character has. -/
  | codeOutOfRange
  deriving Repr, DecidableEq

/-- The wording of a complaint. -/
def ReadFault.message : ReadFault → String
  | .newerFormat version =>
    "zip file version " ++ toString (version / 10) ++ "." ++ toString (version % 10)
  | .patchedData => "compressed patched data (flag bit 5)"
  | .strongEncryption => "strong encryption (flag bit 6)"
  | .encrypted member =>
    "File " ++ Text.quoted member ++ " is encrypted, password required for extraction"
  | .unknownMethod => "That compression method is not supported"
  | .compression e => "Error -3 while decompressing data: " ++ e.message
  | .otherCompression => "Invalid data stream"
  | .outsideFile => "Invalid argument"
  | .openStatement line =>
    "('EOF in multi-line statement', (" ++ toString line ++ ", 0))"
  | .openText line column =>
    "('EOF in multi-line string', (" ++ toString line ++ ", " ++ toString column ++ "))"
  | .unevenIndent line =>
    "unindent does not match any outer indentation level (<tokenize>, line "
      ++ toString line ++ ")"
  | .unhashable kind => "unhashable type: '" ++ kind ++ "'"
  | .unordered kind other =>
    "'<' not supported between instances of '" ++ kind ++ "' and '" ++ other ++ "'"
  | .incompleteType => "tuple index out of range"
  | .sizeOutOfRange => "Python int too large to convert to C long"
  | .codeOutOfRange => "invalid maximum character passed to PyUnicode_New"

/-- Whether a complaint is one about the file as such. -/
def ReadFault.isAboutFile : ReadFault → Bool
  | .otherCompression | .outsideFile => true
  | _ => false

/-- Why something could not be read. -/
inductive Unreadable where
  /-- The bytes are not what they should be. -/
  | damaged
  /-- The reading broke off. -/
  | fault (f : ReadFault)
  deriving Repr, DecidableEq

/-- What reading something leads to. -/
abbrev Reading (α : Type) := Except Unreadable α

/-- The bytes are not what they should be. -/
def Reading.damaged : Reading α := .error .damaged

/-- A result, where there being none means damage. -/
def Reading.ofOption : Option α → Reading α
  | some x => .ok x
  | none => .error .damaged

end AutomatonShell.Archive
