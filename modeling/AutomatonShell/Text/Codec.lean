import AutomatonShell.Text.Encoding
import AutomatonShell.Text.Punycode

/-!
# Codecs

A text file is written and read through a codec, which the platform finds by a name.  A text is
handed to the codec piece by piece, and what a piece adds to the file may depend on the pieces in
front of it: some codecs open a file with a mark, others switch back and forth between tables of
characters.  A piece that cannot be expressed adds nothing, but it was handed over all the same.

* `Codec` — what pieces of a text add to a file, and the text of a whole file.
* `Codec.ofName?` — the codecs that are built in.
* `Codec.emit` — **the bytes of some pieces** for a writer that gives up at the first one refused.
-/

namespace AutomatonShell.Text

/-- Why bytes are no text. -/
inductive DecodingFailure where
  /-- Some of the bytes cannot stand where they stand. -/
  | refused
  /-- The bytes as a whole cannot be made sense of. -/
  | broken
  deriving Repr, DecidableEq

/-- What pieces of a text add to a file, and the text of a whole file. -/
structure Codec where
  /-- The bytes that a piece adds behind the pieces that were handed over before it; nothing if it
  cannot be expressed. -/
  encodeAfter : (given : List (List Char)) → (piece : List Char) → Option (List UInt8)
  /-- The text of the bytes of a file. -/
  decode : List UInt8 → Except DecodingFailure (List Char)

namespace Codec

/-! ## Built in -/

/-- A codec that writes character by character. -/
def ofEncoding (code : Encoding) : Codec where
  encodeAfter _ piece := code.encode piece
  decode bytes :=
    match code.decode bytes with
    | some text => .ok text
    | none => .error .refused

/-- Punycode: a piece is written as a whole. -/
def punycode : Codec where
  encodeAfter _ piece := some (Punycode.encode piece)
  decode bytes :=
    if bytes.any (0x80 ≤ ·) then .error .refused
    else
      match Punycode.decode bytes with
      | some text => .ok text
      | none => .error .broken

/-- The codec that writes and reads nothing. -/
def undefined : Codec where
  encodeAfter _ _ := none
  decode _ := .error .broken

/-- The codec that a name stands for, among those that are built in. -/
def ofName? (name : String) : Option Codec :=
  match Encoding.normalName name with
  | "punycode" => some punycode
  | "undefined" => some undefined
  | _ => (Encoding.ofName? name).map ofEncoding

/-! ## Writing -/

/-- The bytes of pieces that are handed over after others, up to the first one that is refused, and
whether one was. -/
def emitAfter (c : Codec) : (given pieces : List (List Char)) → List UInt8 × Bool
  | _, [] => ([], false)
  | given, piece :: rest =>
    match c.encodeAfter given piece with
    | none => ([], true)
    | some bytes =>
      let (more, refused) := c.emitAfter (given ++ [piece]) rest
      (bytes ++ more, refused)

/-- The bytes of pieces in a new file, up to the first one that is refused, and whether one was. -/
def emit (c : Codec) (pieces : List (List Char)) : List UInt8 × Bool := c.emitAfter [] pieces

end Codec

end AutomatonShell.Text
