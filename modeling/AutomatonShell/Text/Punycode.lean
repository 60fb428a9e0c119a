/-!
# Punycode

Punycode writes a text in ASCII.  The ASCII characters of the text come first, with a hyphen behind
them if there are any; behind it stands where the other characters are inserted, in ascending order,
each as the distance from the one before in numbers of variable length.  How many digits small
numbers take is adapted to the distances met so far.

* `Punycode.encode` — the bytes of a text.  Every text can be written.
* `Punycode.decode` — the text of some bytes, if they list insertions that can be made.

A text is written as a whole: of two texts written one after the other, each has its own hyphen.
-/

namespace AutomatonShell.Text.Punycode

/-! ## Numbers of variable length -/

/-- The least digit that goes on with a number, at a position in it. -/
def threshold (position bias : Nat) : Nat := min 26 (max 1 (36 * (position + 1) - bias))

theorem threshold_pos (position bias : Nat) : 1 ≤ threshold position bias := by
  rw [threshold]
  omega

/-- A digit: a letter up to 25, a decimal digit from there on. -/
def digit (n : Nat) : UInt8 := UInt8.ofNat (if n < 26 then 0x61 + n else 0x30 + (n - 26))

/-- The digits of a number from a position on. -/
def digits (bias position n : Nat) : List UInt8 :=
  let t := threshold position bias
  if n < t then [digit n]
  else digit (t + (n - t) % (36 - t)) :: digits bias (position + 1) ((n - t) / (36 - t))
termination_by n
decreasing_by
  have hpos := threshold_pos position bias
  calc (n - t) / (36 - t) ≤ n - t := Nat.div_le_self _ _
    _ < n := by omega

/-- The value of a digit, in either letter case. -/
def digitValue? (b : UInt8) : Option Nat :=
  let n := b.toNat
  if 0x61 ≤ n ∧ n ≤ 0x7A then some (n - 0x61)
  else if 0x41 ≤ n ∧ n ≤ 0x5A then some (n - 0x41)
  else if 0x30 ≤ n ∧ n ≤ 0x39 then some (n - 0x30 + 26)
  else none

/-- The number that bytes begin with, and what stands behind it. -/
def readNumber? (bias : Nat) : (position weight sum : Nat) → List UInt8 → Option (Nat × List UInt8)
  | _, _, _, [] => none
  | position, weight, sum, b :: rest => do
    let value ← digitValue? b
    let t := threshold position bias
    let sum := sum + value * weight
    if value < t then some (sum, rest)
    else readNumber? bias (position + 1) (weight * (36 - t)) sum rest

/-- A distance brought down to 455, with 36 for each step that this takes. -/
def scale (distance steps : Nat) : Nat × Nat :=
  if 455 < distance then scale (distance / 35) (steps + 36) else (distance, steps)
termination_by distance
decreasing_by exact Nat.div_lt_self (by omega) (by omega)

/-- The bias after a distance, in a text of so many characters. -/
def adapt (distance : Nat) (first : Bool) (count : Nat) : Nat :=
  let halved := if first then distance / 700 else distance / 2
  let (small, steps) := scale (halved + halved / count) 0
  steps + 36 * small / (small + 38)

/-- The bias in front of the first number. -/
def startBias : Nat := 72

/-! ## Writing -/

/-- Where a character stands in a text, counting only the characters up to it. -/
def placesOf (c : Char) (text : List Char) : List Nat :=
  (((text.filter (· ≤ c)).zipIdx).filter (·.1 == c)).map (·.2)

/-- The distances to some places.  `next` is the first place that is not behind, and `ahead` how far
it is to the beginning. -/
def gaps : (ahead next : Nat) → List Nat → List Nat
  | _, _, [] => []
  | ahead, next, place :: rest => (ahead + place - next) :: gaps 0 (place + 1) rest

/-- The distances of the insertions of some characters in ascending order.  `last` is the code point
of the character before, and `next` the first place behind its insertions. -/
def distances (text : List Char) : (last next : Nat) → List Char → List Nat
  | _, _, [] => []
  | last, next, c :: rest =>
    let places := placesOf c text
    let below := (text.filter (· < c)).length
    gaps ((below + 1) * (c.toNat - last)) next places
      ++ distances text c.toNat ((places.map (· + 1)).getLastD next) rest

/-- Distances as numbers, with the bias adapted after each; `count` characters are there already. -/
def written : (bias count : Nat) → (first : Bool) → List Nat → List UInt8
  | _, _, _, [] => []
  | bias, count, first, distance :: rest =>
    digits bias 0 distance ++ written (adapt distance first (count + 1)) (count + 1) false rest

/-- Whether a character is one of ASCII. -/
def isBasic (c : Char) : Bool := c.toNat < 0x80

/-- **The bytes of a text.** -/
def encode (text : List Char) : List UInt8 :=
  let basic := (text.filter isBasic).map fun c => UInt8.ofNat c.toNat
  let others := (text.filter (!isBasic ·)).eraseDups.mergeSort (· ≤ ·)
  (if basic.isEmpty then [] else basic ++ [0x2D])
    ++ written startBias basic.length true (distances text 0x80 0 others)

/-! ## Reading -/

/-- Characters inserted into a text as numbers tell.  `code` is the code point of the last one,
`next` the place behind it. -/
def insertAll : (limit code next bias : Nat) → (first : Bool) → List Char → List UInt8 →
    Option (List Char)
  | 0, _, _, _, _, text, _ => some text
  | _ + 1, _, _, _, _, text, [] => some text
  | limit + 1, code, next, bias, first, text, bytes => do
    let (distance, rest) ← readNumber? bias 0 1 0 bytes
    let position := next + distance
    let code := code + position / (text.length + 1)
    let place := position % (text.length + 1)
    if !code.isValidChar then none
    else
      let text := text.take place ++ Char.ofNat code :: text.drop place
      insertAll limit code (place + 1) (adapt distance first text.length) false text rest

/-- The place of the last hyphen among bytes. -/
def lastHyphen? (bytes : List UInt8) : Option Nat :=
  (bytes.reverse.idxOf? 0x2D).map fun behind => bytes.length - 1 - behind

/-- **The text of some bytes of ASCII**; nothing if what stands behind the last hyphen is no list of
insertions. -/
def decode (bytes : List UInt8) : Option (List Char) :=
  let (basic, extended) :=
    match lastHyphen? bytes with
    | some place => (bytes.take place, bytes.drop (place + 1))
    | none => ([], bytes)
  insertAll extended.length 0x80 0 startBias true (basic.map fun b => Char.ofNat b.toNat) extended

end AutomatonShell.Text.Punycode
