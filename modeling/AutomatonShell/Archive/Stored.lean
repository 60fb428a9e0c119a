import AutomatonShell.Archive.Bytes

/-!
# Archives of stored members

A ZIP archive whose members are stored without compression.  Each member is a local record followed
by its bytes; behind the members stands the directory, with one record for each, and behind that the
end record, which says where the directory is.

* `Member` — a name and its bytes.
* `writeMembers` — the archive of some members.  All sizes and offsets must fit 32 bits; an archive
  that would need wider fields is refused.
-/

namespace AutomatonShell.Archive

/-- A named sequence of bytes. -/
structure Member where
  /-- The name, in ASCII. -/
  name : String
  /-- The bytes. -/
  content : List UInt8
  deriving Repr, DecidableEq

/-! ## Writing -/

/-- What introduces a local record. -/
def localSignature : List UInt8 := [0x50, 0x4B, 3, 4]

/-- What introduces a record of the directory. -/
def directorySignature : List UInt8 := [0x50, 0x4B, 1, 2]

/-- What introduces the end record. -/
def endSignature : List UInt8 := [0x50, 0x4B, 5, 6]

/-- The bytes of a member's name. -/
def Member.nameBytes (m : Member) : List UInt8 := m.name.toList.map fun c => UInt8.ofNat c.toNat

/-- What the two records of a member have in common: version, flags, method, time and date, the
checksum, the size twice, and the length of the name. -/
def Member.summary (m : Member) : List UInt8 :=
  littleEndian 2 20 ++ littleEndian 2 0 ++ littleEndian 2 0 ++ littleEndian 2 0
    ++ littleEndian 2 0x21 ++ littleEndian 4 (checksum m.content).toNat
    ++ littleEndian 4 m.content.length ++ littleEndian 4 m.content.length
    ++ littleEndian 2 m.nameBytes.length

/-- A member's local record and bytes.  The record ends in an extra field that repeats the sizes on
eight bytes each. -/
def Member.localRecord (m : Member) : List UInt8 :=
  localSignature ++ m.summary ++ littleEndian 2 20 ++ m.nameBytes
    ++ (littleEndian 2 1 ++ littleEndian 2 16 ++ littleEndian 8 m.content.length
      ++ littleEndian 8 m.content.length)
    ++ m.content

/-- A member's record in the directory; `offset` is where its local record starts. -/
def Member.directoryRecord (m : Member) (offset : Nat) : List UInt8 :=
  directorySignature ++ littleEndian 2 0x0314 ++ m.summary ++ littleEndian 2 0 ++ littleEndian 2 0
    ++ littleEndian 2 0 ++ littleEndian 2 0 ++ littleEndian 4 0x01800000 ++ littleEndian 4 offset
    ++ m.nameBytes

/-- The directory of members whose local records stand one behind the other from an offset on. -/
def directory (offset : Nat) : List Member → List UInt8
  | [] => []
  | m :: rest => m.directoryRecord offset ++ directory (offset + m.localRecord.length) rest

/-- The end record of a directory of so many members, of a size and from an offset on. -/
def endRecord (count size offset : Nat) : List UInt8 :=
  endSignature ++ littleEndian 2 0 ++ littleEndian 2 0 ++ littleEndian 2 count
    ++ littleEndian 2 count ++ littleEndian 4 size ++ littleEndian 4 offset ++ littleEndian 2 0

/-- **The archive of some members**, unless it is too large for its 32-bit fields. -/
def writeMembers (members : List Member) : Option (List UInt8) :=
  let records := members.flatMap Member.localRecord
  let index := directory 0 members
  if members.length < byteBound 2 ∧ records.length + index.length < byteBound 4
      ∧ ∀ m ∈ members, m.nameBytes.length < byteBound 2 then
    some (records ++ index ++ endRecord members.length index.length records.length)
  else none

end AutomatonShell.Archive
