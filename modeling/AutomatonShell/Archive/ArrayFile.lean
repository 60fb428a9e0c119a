import AutomatonShell.Archive.Array
import AutomatonShell.Archive.Bytes
import AutomatonShell.Archive.Header
import AutomatonShell.Text.Encoding

/-!
# Array files

An array is stored as a signature, a version, a header and the elements.  The header is a text that
names the element type, the order of the elements and the shape, filled up with blanks so that the
elements start at a multiple of 64.

* `NdArray.encode` — the file of an array.
* `Contents` — bytes with what is known about their checksum.
* `NdArray.read` — **the array of a file**; bytes behind the elements are overlooked, and so is a
  wrong checksum as long as reading the array does not bring it to light.
* `isArrayFile` — whether bytes begin as an array file does.
-/

namespace AutomatonShell.Archive

/-- What an array file begins with. -/
def arraySignature : List UInt8 := 0x93 :: "NUMPY".toList.map fun c => UInt8.ofNat c.toNat

/-- Whether bytes begin as an array file does. -/
def isArrayFile (bytes : List UInt8) : Bool := arraySignature.isPrefixOf bytes

/-! ## Elements -/

/-- Bytes in the order of a type. -/
def ElementType.ordered (t : ElementType) (bytes : List UInt8) : List UInt8 :=
  if t.bigEndian then bytes.reverse else bytes

/-- Bytes brought to a length, by zeros behind them or by cutting them off. -/
def padTo (length : Nat) (bytes : List UInt8) : List UInt8 :=
  (bytes ++ List.replicate (length - bytes.length) 0).take length

/-- The bytes of code points. -/
def ElementType.codeBytes (t : ElementType) (codes : List Nat) : List UInt8 :=
  padTo t.width (codes.flatMap fun code => t.ordered (littleEndian 4 code))

/-- The pattern of a floating-point number on two, four or eight bytes. -/
def floatNumber (width : Nat) (bits : UInt64) : Nat :=
  match width with
  | 2 => Decimal.narrowed 5 10 bits.toNat
  | 4 => Decimal.narrowed 8 23 bits.toNat
  | _ => bits.toNat

/-- The pattern of a time that is none: the least number of 64 bits. -/
def noTime : Nat := byteBound 8 / 2

/-- The bytes of an element. -/
def Element.encode (t : ElementType) : Element → List UInt8
  | text value => t.codeBytes (value.toList.map Char.toNat)
  | garbled codes => t.codeBytes codes
  | bytes value => padTo t.width value
  | int value => t.ordered (littleEndian t.width (value % (byteBound t.width : Int)).toNat)
  | float bits => t.ordered (littleEndian t.width (floatNumber t.width bits))
  | complex real imaginary =>
    let part (bits : UInt64) : List UInt8 :=
      t.ordered (littleEndian (t.width / 2) (floatNumber (t.width / 2) bits))
    part real ++ part imaginary
  | bool value => [if value then 1 else 0]
  | record _ => []
  | none => t.ordered (littleEndian t.width noTime)

/-- Bytes cut into pieces of a length, as many as asked for. -/
def pieces (length : Nat) : (count : Nat) → List UInt8 → List (List UInt8)
  | 0, _ => []
  | count + 1, bytes => bytes.take length :: pieces length count (bytes.drop length)

/-- The text of code points, if each of them has a character. -/
def textOfCodes (codes : List Nat) : Element :=
  if codes.all fun code => code.isValidChar then .text (String.ofList (codes.map Char.ofNat))
  else .garbled codes

/-- The 64-bit pattern of a floating-point number on two, four or eight bytes. -/
def floatBits (width number : Nat) : UInt64 :=
  UInt64.ofNat <|
    match width with
    | 2 => Decimal.widened 5 10 number
    | 4 => Decimal.widened 8 23 number
    | _ => number

/-- The element that `t.width` bytes stand for.  NULs at the end of a text or byte string are no
part of it. -/
def Element.decode (t : ElementType) (content : List UInt8) : Element :=
  let number := ofLittleEndian (t.ordered content)
  match t.kind with
  | .text =>
    let codes := (pieces 4 (t.width / 4) content).map fun piece => ofLittleEndian (t.ordered piece)
    textOfCodes (codes.reverse.dropWhile (· == 0)).reverse
  | .bytes => .bytes (content.reverse.dropWhile (· == 0)).reverse
  | .blob | .record | .object => .bytes content
  | .signed =>
    let bound := byteBound t.width
    .int (if number < bound / 2 then number else (number : Int) - bound)
  | .unsigned => .int number
  | .instant => .none
  | .span =>
    if number = noTime then .none
    else .int (if number < noTime then number else (number : Int) - byteBound 8)
  | .float => .float (floatBits t.width number)
  | .complex =>
    let part (bytes : List UInt8) : UInt64 :=
      floatBits (t.width / 2) (ofLittleEndian (t.ordered bytes))
    .complex (part (content.take (t.width / 2))) (part (content.drop (t.width / 2)))
  | .bool => .bool (number != 0)

/-! ## The order of elements -/

/-- Where each element stands when the first index runs fastest, listed with the last index running
fastest; `stride` is the distance between neighbours in the first dimension. -/
def firstFastest (stride : Nat) : List Nat → List Nat
  | [] => [0]
  | size :: rest =>
    (List.range size).flatMap fun i => (firstFastest (stride * size) rest).map (i * stride + ·)

/-- Elements picked by their places. -/
def pick (values : List Element) (places : List Nat) : Option (List Element) :=
  let stored := values.toArray
  places.mapM (stored[·]?)

/-! ## Writing -/

/-- The header filled up with blanks and ended by a newline: with the ten bytes in front of it, its
length is a multiple of 64. -/
def header (t : ElementType) (firstIndexFastest : Bool) (shape : List Nat) : List UInt8 :=
  let text := (headerText t firstIndexFastest shape).toList.map fun c => UInt8.ofNat c.toNat
  let blanks := 63 - (text.length + 10) % 64
  text ++ List.replicate blanks 0x20 ++ [0x0A]

/-- **The file of an array**, unless its header is too long.  Two or more dimensions may be stored
with the first index running fastest. -/
def NdArray.encode (a : NdArray) (firstIndexFastest : Bool) : Option (List UInt8) := do
  let swapped := firstIndexFastest && 1 < a.shape.length
  let head := header a.type swapped a.shape
  let values ← if swapped then pick a.values (firstFastest 1 a.shape.reverse) else some a.values
  if head.length < byteBound 2 then
    some (arraySignature ++ [1, 0] ++ littleEndian 2 head.length ++ head
      ++ values.flatMap (Element.encode a.type))
  else none

/-! ## Shapes -/

/-- The product of sizes as a signed number of 64 bits. -/
def wrappedProduct (sizes : List Int) : Int :=
  let bound : Int := byteBound 8
  let half : Int := byteBound 8 / 2
  (sizes.foldl (· * ·) 1 + half) % bound - half

/-- How many entries the elements are read as; sizes beyond the numbers of 64 bits are refused, with
a complaint if they are beyond unsigned ones as well. -/
def Header.count (h : Header) : Reading Nat :=
  let bound : Int := byteBound 8
  let half : Int := byteBound 8 / 2
  if h.sizes.any fun size => bound ≤ size || size < -half then .error (.fault .sizeOutOfRange)
  else if h.sizes.any fun size => half ≤ size then .damaged
  else
    let count := wrappedProduct h.sizes
    if count < 0 then .damaged else .ok count.toNat

/-- The most dimensions of an array. -/
def maxDimensions : Nat := 64

/-- The shape that `count` elements are brought into.  One size may be negative; it is then whatever
makes the product right. -/
def Header.shapeFor (h : Header) (count : Nat) : Option (List Nat) :=
  let known := (h.sizes.filter (0 ≤ ·)).map Int.toNat
  let product := known.foldl (· * ·) 1
  let shape? :=
    match h.sizes.length - known.length with
    | 0 => if product = count then some known else none
    | 1 =>
      if product = 0 || count % product != 0 then none
      else some (h.sizes.map fun (n : Int) => if n < 0 then count / product else n.toNat)
    | _ => none
  shape?.filter fun shape =>
    shape.length ≤ maxDimensions
      && (shape.filter (0 < ·)).foldl (· * ·) h.layout.type.width < byteBound 8 / 2

/-! ## Reading -/

/-- Bytes that may have a checksum. -/
structure Contents where
  /-- The bytes. -/
  bytes : List UInt8
  /-- How many bytes they take up. -/
  storedSize : Nat
  /-- Whether the checksum, if there is one, is that of the bytes. -/
  intact : Bool

/-- Bytes without a checksum. -/
def Contents.plain (bytes : List UInt8) : Contents := ⟨bytes, bytes.length, true⟩

/-- How much is fetched ahead. -/
def fetchSize : Nat := 4096

/-- How many of `size` bytes have been fetched when they were read up to some places, one after the
other. -/
def fetched (size : Nat) (ends : List Nat) : Nat :=
  ends.foldl (fun done place =>
    if place ≤ done then done else min size (max place (done + fetchSize))) 0

/-- Whether reading up to some places brings a wrong checksum to light: it shows as soon as the last
byte has been fetched. -/
def Contents.exposedBy (c : Contents) (ends : List Nat) : Bool :=
  !c.intact && c.bytes.length ≤ fetched c.storedSize ends

/-- The longest header that is read, in characters. -/
def maxHeaderLength : Nat := 10000

/-- The text of a header: one character a byte in the first two versions, UTF-8 in the third. -/
def headerChars (old : Bool) (head : List UInt8) : Option (List Char) :=
  let text := if old then some (head.map fun b => Char.ofNat b.toNat) else Text.decodeUtf8 head
  text.filter fun chars => chars.length ≤ maxHeaderLength

/-- The most elements without any bytes that an array may have. -/
def maxEmptyElements : Nat := 0x100000

/-- Bytes cut into pieces of given lengths. -/
def cutInto : (lengths : List Nat) → List UInt8 → List (List UInt8)
  | [], _ => []
  | length :: rest, bytes => bytes.take length :: cutInto rest (bytes.drop length)

/-- The element that bytes stand for. -/
def ElementLayout.decode (layout : ElementLayout) (content : List UInt8) : Element :=
  if layout.type.kind = .record then
    let contents := cutInto (layout.parts.map ElementType.width) content
    .group (layout.parts.zipWith Element.decode contents)
  else Element.decode layout.type content

/-- The elements in the order of an array from the bytes behind the header. -/
def Header.array (h : Header) (count : Nat) (body : List UInt8) : Option NdArray := do
  let type := h.layout.type
  if type.kind = .object || count * h.layout.perEntry ≠ count || body.length < count * type.width
      || (type.width = 0 && maxEmptyElements < count) then none
  else
    let shape ← h.shapeFor count
    let stored := (pieces type.width count body).map h.layout.decode
    let values ←
      if h.firstIndexFastest && count ≠ 0 then pick stored (firstFastest 1 shape) else some stored
    return ⟨type, shape, values⟩

/-- **The array of a file.** -/
def NdArray.read (c : Contents) : Reading NdArray := do
  let major := c.bytes.getD 6 0
  let old := major != 3
  let width := if major = 1 then 2 else 4
  let length := ofLittleEndian ((c.bytes.drop 8).take width)
  let head := (c.bytes.drop (8 + width)).take length
  let start := 8 + width + length
  if !isArrayFile c.bytes || !([1, 2, 3].contains major) || c.bytes.getD 7 1 != 0
      || head.length ≠ length || c.exposedBy [8, 8 + width, start] then .damaged
  else
    let h ← readHeader old (← .ofOption (headerChars old head))
    let count ← h.count
    if c.exposedBy [8, 8 + width, start, start + count * h.layout.type.width] then .damaged
    else .ofOption (h.array count (c.bytes.drop start))

/-- The array of a file without a checksum; nothing if it cannot be read. -/
def NdArray.decode (bytes : List UInt8) : Option NdArray := (NdArray.read (.plain bytes)).toOption

end AutomatonShell.Archive
