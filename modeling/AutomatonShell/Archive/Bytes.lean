/-!
# Numbers as bytes

The records of an archive are sequences of unsigned numbers of fixed width, the low byte first.

* `littleEndian` — a number on a given number of bytes.
* `ofLittleEndian` — the number some bytes stand for; `byteBound` — how many there are.
* `checksum` — the CRC-32 of some bytes.
-/

namespace AutomatonShell.Archive

/-- A number on `width` bytes, the low byte first; higher bits are cut off. -/
def littleEndian : (width : Nat) → Nat → List UInt8
  | 0, _ => []
  | width + 1, n => UInt8.ofNat n :: littleEndian width (n / 256)

/-- The number that bytes stand for, the low byte first. -/
def ofLittleEndian : List UInt8 → Nat
  | [] => 0
  | b :: rest => b.toNat + 256 * ofLittleEndian rest

/-- How many numbers there are on `width` bytes. -/
def byteBound : (width : Nat) → Nat
  | 0 => 1
  | width + 1 => 256 * byteBound width

/-- One bit of the checksum: a shift, and the polynomial added if a bit fell out. -/
def checksumShift (c : UInt32) : UInt32 :=
  if c &&& 1 = 1 then (c >>> 1) ^^^ 0xEDB88320 else c >>> 1

/-- One byte of the checksum. -/
def checksumByte (c : UInt32) (b : UInt8) : UInt32 :=
  let c := c ^^^ b.toUInt32
  let c := checksumShift (checksumShift (checksumShift (checksumShift c)))
  checksumShift (checksumShift (checksumShift (checksumShift c)))

/-- **The CRC-32** of bytes. -/
def checksum (bytes : List UInt8) : UInt32 := bytes.foldl checksumByte 0xFFFFFFFF ^^^ 0xFFFFFFFF

theorem length_littleEndian (width n : Nat) : (littleEndian width n).length = width := by
  induction width generalizing n with
  | zero => rfl
  | succ width ih => simp [littleEndian, ih]

/-- A number that fits its width reads back. -/
theorem ofLittleEndian_littleEndian (width n : Nat) (h : n < byteBound width) :
    ofLittleEndian (littleEndian width n) = n := by
  induction width generalizing n with
  | zero =>
    simp only [byteBound] at h
    simp only [littleEndian, ofLittleEndian]
    omega
  | succ width ih =>
    simp only [byteBound] at h
    simp only [littleEndian, ofLittleEndian, ih (n / 256) (by omega), UInt8.toNat_ofNat']
    omega

end AutomatonShell.Archive
