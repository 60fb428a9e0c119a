/-!
# Text encodings

Scripts, listings and logs are stored in a text encoding that is named in the configuration.
Three encodings are known; any other name is an unknown encoding.

* `Encoding` — UTF-8, Latin-1 and ASCII.
* `Encoding.ofName?` — the encoding a name stands for.
* `Encoding.encode` — the bytes of a text, if the encoding can express it.
* `Encoding.decode` — the text of a byte string, if it is well formed.

All three agree on ASCII texts.  UTF-8 is strict: overlong forms, surrogates and code points above
U+10FFFF are malformed.
-/

namespace AutomatonShell.Text

/-- The known text encodings. -/
inductive Encoding where
  | utf8
  | latin1
  | ascii
  deriving Repr, DecidableEq

/-- Whether a byte continues a UTF-8 sequence. -/
def isContinuation (b : UInt8) : Bool := 0x80 ≤ b && b ≤ 0xBF

/-- The six bits a continuation byte carries. -/
def payload (b : UInt8) : Nat := b.toNat % 64

/-- The text of a UTF-8 byte string; nothing if it is malformed anywhere. -/
def decodeUtf8 : List UInt8 → Option (List Char)
  | [] => some []
  | a :: rest =>
    if a < 0x80 then (decodeUtf8 rest).map (Char.ofNat a.toNat :: ·)
    else
      match rest with
      | [] => none
      | b :: rest =>
        if !isContinuation b then none
        else if 0xC2 ≤ a && a ≤ 0xDF then
          (decodeUtf8 rest).map (Char.ofNat (a.toNat % 32 * 64 + payload b) :: ·)
        else
          match rest with
          | [] => none
          | c :: rest =>
            if !isContinuation c then none
            else if 0xE0 ≤ a && a ≤ 0xEF then
              if (a == 0xE0 && b < 0xA0) || (a == 0xED && 0xA0 ≤ b) then none
              else
                (decodeUtf8 rest).map
                  (Char.ofNat (a.toNat % 16 * 4096 + payload b * 64 + payload c) :: ·)
            else
              match rest with
              | [] => none
              | d :: rest =>
                if !isContinuation d || a < 0xF0 || 0xF4 < a then none
                else if (a == 0xF0 && b < 0x90) || (a == 0xF4 && 0x90 ≤ b) then none
                else
                  (decodeUtf8 rest).map
                    (Char.ofNat (a.toNat % 8 * 262144 + payload b * 4096 + payload c * 64
                      + payload d) :: ·)

namespace Encoding

/-- A name of an encoding with its letters in lower case and every run of other characters than
letters, digits and dots as one underscore. -/
def normalName (name : String) : String :=
  let letters := name.toList.map fun c => if c.isAlphanum || c == '.' then c.toLower else ' '
  String.intercalate "_"
    (((letters.splitOn ' ').filter fun part => !part.isEmpty).map String.ofList)

/-- The encoding a name stands for, in any spelling of the common aliases. -/
def ofName? (name : String) : Option Encoding :=
  let plain := normalName name
  if ["utf_8", "utf8", "u8", "utf", "cp65001"].contains plain then some .utf8
  else if ["latin_1", "latin1", "latin", "l1", "iso_8859_1", "iso8859_1", "iso8859", "8859",
      "cp819", "ibm819"].contains plain then some .latin1
  else if ["ascii", "us_ascii", "us", "646", "ansi_x3.4_1968", "cp367", "ibm367"].contains plain
    then some .ascii
  else none

/-- One character below a bound, as the byte of its code point. -/
def encodeBelow (bound : Nat) (c : Char) : Option UInt8 :=
  if c.toNat < bound then some (UInt8.ofNat c.toNat) else none

/-- The bytes of a text; nothing if the encoding lacks one of its characters. -/
def encode : Encoding → List Char → Option (List UInt8)
  | utf8, text => some (text.flatMap String.utf8EncodeChar)
  | latin1, text => text.mapM (encodeBelow 256)
  | ascii, text => text.mapM (encodeBelow 128)

/-- The text of a byte string; nothing if the encoding does not allow one of its bytes. -/
def decode : Encoding → List UInt8 → Option (List Char)
  | utf8, bytes => decodeUtf8 bytes
  | latin1, bytes => some (bytes.map fun b => Char.ofNat b.toNat)
  | ascii, bytes => bytes.mapM fun b => if b < 0x80 then some (Char.ofNat b.toNat) else none

end Encoding

end AutomatonShell.Text
