/-!
# The shortest decimal of a binary number

A 64-bit floating-point number is written with the fewest decimal digits that read back as the same
number, and among those with the digits nearest to it.

The number is first taken apart into an integer times a power of two, and the reals that round to it
become an interval with integer ends over one denominator.  For one digit, two digits and so on, the
two neighbours of the number on that decimal grid are tried; the first grid with a neighbour in the
interval gives the digits.  Seventeen digits always suffice.

* `Binary` — an integer times a power of two, with the interval that rounds to it.
* `Binary.shortest` — its shortest digits and the exponent of the first one.
* `floatText` — the text of a 64-bit pattern: positional for exponents from -4 to 15, with an
  exponent of at least two digits otherwise.
* `widened`, `narrowed` — the 64-bit pattern of a number in a narrower format, and back.
* `complexText` — the text of a complex number, given by the patterns of its two parts.
-/

namespace AutomatonShell.Decimal

/-- The number `mantissa · 2 ^ exponent`. -/
structure Binary where
  /-- The integer factor. -/
  mantissa : Nat
  /-- The power of two. -/
  exponent : Int
  /-- Whether the next smaller number is only half as far away as the next larger one. -/
  narrowBelow : Bool
  deriving Repr, DecidableEq

/-- The weight of the exponent's lowest bit in a 64-bit pattern: two to the 52nd. -/
def fractionUnit : Nat := 0x10000000000000

/-- The weight of the sign in a 64-bit pattern: two to the 63rd. -/
def signUnit : Nat := 0x8000000000000000

namespace Binary

/-- The magnitude of a finite, non-zero 64-bit pattern. -/
def ofBits (bits : Nat) : Binary :=
  let fraction : Nat := bits % fractionUnit
  let biased : Nat := bits / fractionUnit % 2048
  if biased = 0 then ⟨fraction, -1074, false⟩
  else ⟨fraction + fractionUnit, (biased : Int) - 1075, fraction == 0 && biased != 1⟩

/-- `n · 2 ^ e · 10 ^ -k` as a numerator and a denominator. -/
def scaled (n : Nat) (e k : Int) : Nat × Nat :=
  (n * Nat.pow 2 e.toNat * Nat.pow 10 (-k).toNat, Nat.pow 2 (-e).toNat * Nat.pow 10 k.toNat)

/-- The exponent of the first decimal digit of a fraction, for fractions above `10 ^ -400`. -/
def leadingExponent (numerator denominator : Nat) : Int :=
  if denominator ≤ numerator then (Nat.toDigits 10 (numerator / denominator)).length - 1
  else
    match (List.range 400).find? fun j => denominator ≤ numerator * Nat.pow 10 (j + 1) with
    | some j => -(j + 1 : Int)
    | none => -400

/-- Whether `digits · 10 ^ k` rounds to the number: it lies between the midpoints to the two
neighbours, ends included when the mantissa is even.  All is counted in quarters of the last
binary place. -/
def readsBack (x : Binary) (digits : Nat) (k : Int) : Bool :=
  let low := 4 * x.mantissa - (if x.narrowBelow then 1 else 2)
  let high := 4 * x.mantissa + 2
  let (l, unit) := scaled low (x.exponent - 2) k
  let (h, _) := scaled high (x.exponent - 2) k
  if x.mantissa % 2 = 0 then l ≤ digits * unit && digits * unit ≤ h
  else l < digits * unit && digits * unit < h

/-- The better neighbour of the number on the grid of step `10 ^ k`, if one of the two reads back.
Of two that do the nearer one is taken, and the even one when both are equally near. -/
def neighbour? (x : Binary) (k : Int) : Option Nat :=
  let (n, d) := scaled x.mantissa x.exponent k
  let below := n / d
  let twice := 2 * (n % d)
  match readsBack x below k, readsBack x (below + 1) k with
  | true, true =>
    some (if twice < d || (twice == d && below % 2 == 0) then below else below + 1)
  | true, false => some below
  | false, true => some (below + 1)
  | false, false => none

/-- **The fewest digits that read back**, without trailing zeros, and the exponent of the first
digit. -/
def shortest (x : Binary) : List Char × Int :=
  let (n, d) := scaled x.mantissa x.exponent 0
  let e := leadingExponent n d
  let found := (List.range 17).findSome? fun (count : Nat) =>
    let k := e - (count : Int)
    (neighbour? x k).map fun digits => (digits, k)
  let (digits, k) := found.getD (0, 0)
  let text := Nat.toDigits 10 digits
  let trimmed := (text.reverse.dropWhile (· == '0')).reverse
  (trimmed, k + (text.length : Int) - 1)

end Binary

/-- Digits written without an exponent, with a point and at least one digit on either side. -/
def positional (digits : List Char) (e : Int) : List Char :=
  if e < 0 then '0' :: '.' :: List.replicate (-e - 1).toNat '0' ++ digits
  else
    let whole := digits.take (e.toNat + 1)
    let rest := digits.drop (e.toNat + 1)
    whole ++ List.replicate (e.toNat + 1 - whole.length) '0'
      ++ '.' :: (if rest.isEmpty then ['0'] else rest)

/-- Digits written with an exponent: a point only before further digits, and a signed exponent of
at least two digits. -/
def scientific (digits : List Char) (e : Int) : List Char :=
  let exponent := Nat.toDigits 10 e.natAbs
  let body :=
    match digits with
    | [] => ['0']
    | [d] => [d]
    | d :: rest => d :: '.' :: rest
  body ++ 'e' :: (if e < 0 then '-' else '+')
    :: (List.replicate (2 - exponent.length) '0' ++ exponent)

/-- **The text of a 64-bit floating-point number**, given by its bits. -/
def floatText (bits : UInt64) : String :=
  let n := bits.toNat
  let sign := if signUnit ≤ n then "-" else ""
  let magnitude := n % signUnit
  if magnitude = 0 then sign ++ "0.0"
  else if magnitude = 2047 * fractionUnit then sign ++ "inf"
  else if 2047 * fractionUnit < magnitude then "nan"
  else
    let (digits, e) := (Binary.ofBits magnitude).shortest
    sign ++ String.ofList
      (if -4 ≤ e && e < 16 then positional digits e else scientific digits e)

/-! ## Narrower formats -/

/-- The 64-bit pattern of a subnormal number: its fraction, brought up to a bit in front of the
`fractionBits` ones, and the exponent counted down as often. -/
def normalized (fractionBits : Nat) : (limit : Nat) → (exponent fraction : Nat) → Nat
  | 0, exponent, _ => exponent * fractionUnit
  | limit + 1, exponent, fraction =>
    if fraction < Nat.pow 2 fractionBits then
      normalized fractionBits limit (exponent - 1) (2 * fraction)
    else
      exponent * fractionUnit
        + (fraction - Nat.pow 2 fractionBits) * Nat.pow 2 (52 - fractionBits)

/-- **The 64-bit pattern of a number in a narrower format** with so many bits for the exponent and
for the fraction.  Every such number has one. -/
def widened (exponentBits fractionBits bits : Nat) : Nat :=
  let fraction := bits % Nat.pow 2 fractionBits
  let top := Nat.pow 2 exponentBits - 1
  let exponent := bits / Nat.pow 2 fractionBits % (top + 1)
  let sign := if Nat.pow 2 (exponentBits + fractionBits) ≤ bits then signUnit else 0
  let spread := fraction * Nat.pow 2 (52 - fractionBits)
  let lift := 1023 - top / 2
  sign
    + (if exponent = top then 2047 * fractionUnit + spread
      else if exponent ≠ 0 then (exponent + lift) * fractionUnit + spread
      else if fraction = 0 then 0
      else normalized fractionBits (fractionBits + 1) (lift + 1) fraction)

/-- The pattern of a number in a narrower format, from its 64-bit pattern.  Bits that do not fit are
cut off; what is too large becomes infinite. -/
def narrowed (exponentBits fractionBits bits : Nat) : Nat :=
  let fraction := bits % fractionUnit
  let exponent := bits / fractionUnit % 2048
  let unit := Nat.pow 2 fractionBits
  let top := Nat.pow 2 exponentBits - 1
  let sign := if signUnit ≤ bits then unit * (top + 1) else 0
  let cut := Nat.pow 2 (52 - fractionBits)
  let lift := 1023 - top / 2
  sign
    + (if exponent = 2047 then top * unit + fraction / cut
      else if lift + top ≤ exponent then top * unit
      else if lift < exponent then (exponent - lift) * unit + fraction / cut
      else if exponent = 0 then 0
      else (fractionUnit + fraction) / (cut * Nat.pow 2 (lift + 1 - exponent)))

/-! ## Complex numbers -/

/-- The text of a part of a complex number: a whole one has neither point nor zero behind it. -/
def partText (bits : UInt64) : List Char :=
  let text := (floatText bits).toList
  if ['.', '0'].isSuffixOf text then text.take (text.length - 2) else text

/-- **The text of a complex number**: both parts in parentheses, or the imaginary part alone if the
real one is a zero without a sign. -/
def complexText (real imaginary : UInt64) : String :=
  let second := partText imaginary ++ ['j']
  if real = 0 then String.ofList second
  else
    let sign := if second.head? = some '-' then [] else ['+']
    String.ofList ('(' :: partText real ++ sign ++ second ++ [')'])

end AutomatonShell.Decimal
