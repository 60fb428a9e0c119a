import AutomatonShell.Archive.ArrayFile
import AutomatonShell.Archive.Stored

/-!
# Reading an archive

The end record of an archive is found from the end of the file, so bytes in front of the archive or
behind it do no harm.  It gives the size and the offset of the directory; if the directory does not
stand where the offset says, all offsets are shifted alike.  Sizes and offsets that do not fit 32
bits stand in wider fields: those of the directory in a second end record in front of the first one,
those of a member in an extra field.

* `readDirectory` — the records of the directory.
* `DirectoryEntry.contents` — the bytes of the member that a record describes.
* `readMembers` — **the members of an archive**, in the order of its directory.  A member whose
  record, name or place is wrong is listed with what is wrong about it.
-/

namespace AutomatonShell.Archive

/-! ## The end record -/

/-- `count` bytes from an offset on. -/
def slice (bytes : List UInt8) (offset count : Nat) : List UInt8 := (bytes.drop offset).take count

/-- The number on `width` bytes from an offset on; bytes that are not there count as none. -/
def field (bytes : List UInt8) (offset width : Nat) : Nat :=
  ofLittleEndian (slice bytes offset width)

/-- The places where a pattern of bytes begins, in ascending order. -/
def occurrences (pattern : List UInt8) (offset : Nat) : List UInt8 → List Nat
  | [] => []
  | b :: rest =>
    if pattern.isPrefixOf (b :: rest) then offset :: occurrences pattern (offset + 1) rest
    else occurrences pattern (offset + 1) rest

/-- Where the end record begins: 22 bytes before the end if one without a comment is there, else at
the last place in the final 65558 bytes that looks like one and leaves room for all of it. -/
def findEnd? (bytes : List UInt8) : Option Nat :=
  let size := bytes.length
  if size < 22 then none
  else
    let last := size - 22
    let tail := bytes.drop last
    if endSignature.isPrefixOf tail && tail.drop 20 == [0, 0] then some last
    else
      let start := size - (byteBound 2 + 22)
      match (occurrences endSignature start (bytes.drop start)).getLast? with
      | some place => if place + 22 ≤ size then some place else none
      | none => none

/-- What introduces the place of the wide end record. -/
def locatorSignature : List UInt8 := [0x50, 0x4B, 6, 7]

/-- What introduces the wide end record. -/
def wideEndSignature : List UInt8 := [0x50, 0x4B, 6, 6]

/-- Where the directory is. -/
structure DirectoryPlace where
  /-- Where it begins in the file. -/
  start : Nat
  /-- How many bytes it takes up. -/
  size : Nat
  /-- Where it begins by its own account, from which all other offsets count. -/
  offset : Nat

/-- The place of a directory that ends where the end records begin. -/
def directoryPlace? (ending size offset : Nat) : Option DirectoryPlace :=
  if ending < size then none else some ⟨ending - size, size, offset⟩

/-- Where the directory of an archive is, if it is an archive.  The wide end record counts if it
stands right in front of its locator, whatever place the locator gives; an archive on several disks
is refused. -/
def findDirectory? (bytes : List UInt8) : Option DirectoryPlace := do
  let place ← findEnd? bytes
  let narrow := directoryPlace? place (field bytes (place + 12) 4) (field bytes (place + 16) 4)
  if place < 20 || slice bytes (place - 20) 4 != locatorSignature then narrow
  else if field bytes (place - 16) 4 ≠ 0 || 1 < field bytes (place - 4) 4 || place < 76 then none
  else
    let record := place - 76
    if slice bytes record 4 != wideEndSignature then narrow
    else directoryPlace? record (field bytes (record + 40) 8) (field bytes (record + 48) 8)

/-! ## The directory -/

/-- A record of the directory. -/
structure DirectoryEntry where
  /-- The name, with everything behind a NUL in it. -/
  fullName : List Char
  /-- The flags. -/
  flags : Nat
  /-- How the bytes are stored; zero is as they are. -/
  method : Nat
  /-- The checksum of the bytes. -/
  checksum : Nat
  /-- How many bytes are stored. -/
  storedSize : Nat
  /-- How many bytes there are. -/
  size : Nat
  /-- Where the local record starts. -/
  offset : Nat
  deriving Repr, DecidableEq

/-- The characters that the bytes from 128 on stand for in names that are not UTF-8. -/
def highNameChars : List Char :=
  ("ÇüéâäàåçêëèïîìÄÅÉæÆôöòûùÿÖÜ¢£¥₧ƒáíóúñÑªº¿⌐¬½¼¡«»░▒▓│┤╡╢╖╕╣║╗╝╜╛┐"
    ++ "└┴┬├─┼╞╟╚╔╩╦╠═╬╧╨╤╥╙╘╒╓╫╪┘┌█▄▌▐▀αßΓπΣσµτΦΘΩδ∞φε∩≡±≥≤⌠⌡÷≈°∙·√ⁿ²■\u00a0").toList

/-- The name that bytes stand for; nothing if they claim to be UTF-8 and are not. -/
def decodeName (flags : Nat) (bytes : List UInt8) : Option (List Char) :=
  if flags / 0x800 % 2 = 1 then Text.decodeUtf8 bytes
  else some (bytes.map fun b =>
    if b < 0x80 then Char.ofNat b.toNat else highNameChars.getD (b.toNat - 0x80) '?')

/-- The name that a member is looked up by: a NUL ends it. -/
def DirectoryEntry.name (e : DirectoryEntry) : String :=
  String.ofList (e.fullName.takeWhile (· != Char.ofNat 0))

/-- The value that a field of 32 bits has if its number stands in a wider one. -/
def wideMarker : Nat := byteBound 4 - 1

/-- A number whose field says that it stands at the beginning of wider ones, and the rest of those;
or the number as it is. -/
def widerField (number : Nat) (wide : List UInt8) : Option (Nat × List UInt8) :=
  if number ≠ wideMarker then some (number, wide)
  else if wide.length < 8 then none
  else some (field wide 0 8, wide.drop 8)

/-- A record with the wider numbers of an extra item: size, stored size and offset, as far as the
record asks for them. -/
def DirectoryEntry.widen (e : DirectoryEntry) (item : List UInt8) : Option DirectoryEntry := do
  let (size, item) ←
    if e.size = byteBound 8 - 1 then widerField wideMarker item else widerField e.size item
  let (storedSize, item) ← widerField e.storedSize item
  let (offset, _) ← widerField e.offset item
  return { e with size, storedSize, offset }

/-- A record with what its extra field adds.  The field is a sequence of complete items; fewer than
four bytes at its end are overlooked. -/
def DirectoryEntry.extend (e : DirectoryEntry) : (limit : Nat) → List UInt8 → Option DirectoryEntry
  | 0, _ => some e
  | limit + 1, extra =>
    let length := field extra 2 2
    if extra.length < 4 then some e
    else if extra.length < length + 4 then none
    else do
      let e ← if field extra 0 2 = 1 then e.widen (slice extra 4 length) else some e
      e.extend limit (extra.drop (length + 4))

/-- The latest version of the format that is read, in tenths. -/
def maxVersion : Nat := 63

/-- The records of a directory that takes up `size` bytes. -/
def readDirectory : (limit size : Nat) → List UInt8 → Reading (List DirectoryEntry)
  | 0, _, _ => .ok []
  | limit + 1, size, bytes =>
    if size = 0 then .ok []
    else if bytes.length < 46 || !directorySignature.isPrefixOf bytes then .damaged
    else do
      let nameLength := field bytes 28 2
      let extraLength := field bytes 30 2
      let total := 46 + nameLength + extraLength + field bytes 32 2
      let flags := field bytes 8 2
      let fullName ← .ofOption (decodeName flags (slice bytes 46 nameLength))
      let version := field bytes 6 1
      if maxVersion < version then .error (.fault (.newerFormat version))
      else
        let entry : DirectoryEntry := {
          fullName, flags
          method := field bytes 10 2
          checksum := field bytes 16 4
          storedSize := field bytes 20 4
          size := field bytes 24 4
          offset := field bytes 42 4 }
        let extra := slice bytes (46 + nameLength) extraLength
        let entry ← .ofOption (entry.extend extra.length extra)
        return entry :: (← readDirectory limit (size - total) (bytes.drop total))

/-! ## The members -/

/-- Where the space of the local record at an offset ends: at the next local record, or else at the
directory. -/
def spaceEnd (directoryOffset : Nat) (offsets : List Nat) (offset : Nat) : Nat :=
  ((offsets.filter (offset < ·)).min?).getD directoryOffset

/-- Stored bytes as they were before they were compressed.  Only deflated bytes are expanded; of two
other ways of compression no more is known than what becomes of bytes that are not compressed. -/
def DirectoryEntry.expand (e : DirectoryEntry) (stored : List UInt8) : Reading (List UInt8) :=
  match e.method with
  | 0 => .ok stored
  | 8 =>
    match inflate stored with
    | .ok content => .ok content
    | .error error => .error (.fault (.compression error))
  | 12 => .error (.fault .otherCompression)
  | 14 => .damaged
  | _ => .error (.fault .unknownMethod)

/-- Whether a flag is set; flags are given by their values. -/
def DirectoryEntry.hasFlag (e : DirectoryEntry) (flag : Nat) : Bool := e.flags / flag % 2 == 1

/-- **The bytes of a member**, if its local record agrees with the directory and it keeps to its
space.  What goes beyond the size that the directory gives is left out. -/
def DirectoryEntry.contents (e : DirectoryEntry) (bytes : List UInt8) (shift : Int)
    (spaceEnd : Nat) : Reading Contents :=
  match ((e.offset : Int) + shift).toNat? with
  | none => .error (.fault .outsideFile)
  | some start =>
    let record := bytes.drop start
    let nameLength := field record 26 2
    let headLength := 30 + nameLength + field record 28 2
    if record.length < 30 || !localSignature.isPrefixOf record then .damaged
    else if e.hasFlag 0x20 then .error (.fault .patchedData)
    else if e.hasFlag 0x40 then .error (.fault .strongEncryption)
    else if decodeName (field record 6 2) (slice record 30 nameLength) ≠ some e.fullName
        || spaceEnd < e.offset + headLength + e.storedSize then .damaged
    else if e.hasFlag 1 then .error (.fault (.encrypted e.name))
    else do
      let expanded ← e.expand (slice record headLength e.storedSize)
      let content := expanded.take e.size
      return ⟨content, expanded.length, (Archive.checksum content).toNat == e.checksum⟩

/-- The members that records of a directory describe.  Of those that claim the same local record the
first has all of its space; `claimed` lists the offsets of the records before. -/
def listMembers (bytes : List UInt8) (shift : Int) (directoryOffset : Nat) (offsets : List Nat) :
    (claimed : List Nat) → List DirectoryEntry → List (String × Reading Contents)
  | _, [] => []
  | claimed, e :: rest =>
    let space :=
      if claimed.contains e.offset then e.offset else spaceEnd directoryOffset offsets e.offset
    (e.name, e.contents bytes shift space)
      :: listMembers bytes shift directoryOffset offsets (e.offset :: claimed) rest

/-- **The members of an archive**, in the order of the directory. -/
def readMembers (bytes : List UInt8) : Reading (List (String × Reading Contents)) := do
  let place ← .ofOption (findDirectory? bytes)
  let entries ← readDirectory place.size place.size (slice bytes place.start place.size)
  return listMembers bytes ((place.start : Int) - place.offset) place.offset
    (entries.map DirectoryEntry.offset) [] entries

end AutomatonShell.Archive
