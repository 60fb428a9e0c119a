/-!
# Compressed bytes

The bytes of a member may be compressed: as a sequence of blocks of literal bytes and of references
to bytes already there, both in codes of one to fifteen bits.  A block stores its bytes as they are,
uses a fixed pair of codes, or brings its own pair with it.

* `PrefixCode` — a code given by the lengths of its words; words of one length follow the order of
  their symbols.
* `Inflater` — the bits that are left and the bytes so far.
* `inflate` — **the bytes that compressed ones stand for.**  If they break off, it is those up to
  there.
-/

namespace AutomatonShell.Archive

/-- What is wrong with compressed bytes. -/
inductive InflateError where
  | blockType
  | storedLengths
  | tooManySymbols
  | codeLengthsSet
  | bitLengthRepeat
  | missingEnd
  | literalSet
  | distanceSet
  | literalCode
  | distanceCode
  | distanceTooFar
  deriving Repr, DecidableEq

/-- The wording of what is wrong. -/
def InflateError.message : InflateError → String
  | .blockType => "invalid block type"
  | .storedLengths => "invalid stored block lengths"
  | .tooManySymbols => "too many length or distance symbols"
  | .codeLengthsSet => "invalid code lengths set"
  | .bitLengthRepeat => "invalid bit length repeat"
  | .missingEnd => "invalid code -- missing end-of-block"
  | .literalSet => "invalid literal/lengths set"
  | .distanceSet => "invalid distances set"
  | .literalCode => "invalid literal/length code"
  | .distanceCode => "invalid distance code"
  | .distanceTooFar => "invalid distance too far back"

/-- Why there are no more bytes. -/
inductive InflateStop where
  /-- The bits have run out. -/
  | exhausted
  /-- They cannot be read. -/
  | invalid (error : InflateError)

/-- What is known while bits are being read. -/
structure Inflater where
  /-- The bits that are left. -/
  bits : List Bool
  /-- The bytes so far. -/
  output : Array UInt8 := #[]

/-- A step that reads bits and may add bytes; the bytes survive the end of the bits. -/
abbrev Inflating := ExceptT InflateStop (StateM Inflater)

/-! ## Bits -/

/-- The bits of bytes, the lowest of each byte first. -/
def bitsOf (bytes : List UInt8) : List Bool :=
  bytes.flatMap fun b => (List.range 8).map fun i => b.toNat.testBit i

/-- The next bit. -/
def nextBit : Inflating Nat := do
  let s ← get
  match s.bits with
  | [] => throw .exhausted
  | bit :: bits =>
    set { s with bits }
    return if bit then 1 else 0

/-- The number on so many bits, the lowest first. -/
def nextNumber : (width : Nat) → Inflating Nat
  | 0 => return 0
  | width + 1 => do
    let low ← nextBit
    let high ← nextNumber width
    return low + 2 * high

/-- A byte added to the output. -/
def emitByte (b : UInt8) : Inflating Unit := modify fun s => { s with output := s.output.push b }

/-! ## Codes -/

/-- A code: how many words there are of each length from one on, and the symbols in the order of
their words. -/
structure PrefixCode where
  counts : List Nat
  symbols : List Nat

namespace PrefixCode

/-- The longest word. -/
def maxLength : Nat := 15

/-- The code in which the words of the symbols have given lengths; zero is for symbols without a
word. -/
def ofLengths (lengths : List Nat) : PrefixCode :=
  let numbered := lengths.zipIdx
  let ofLength (n : Nat) : List Nat :=
    (numbered.filter fun word => word.1 == n).map Prod.snd
  let byLength := (List.range maxLength).map fun i => ofLength (i + 1)
  let used := (byLength.reverse.dropWhile List.isEmpty).reverse
  ⟨used.map List.length, used.flatten⟩

/-- How many words of the greatest length are free; nothing if there are too many words. -/
def freeWords (free : Nat) : List Nat → Option Nat
  | [] => some free
  | count :: rest => if 2 * free < count then none else freeWords (2 * free - count) rest

/-- Whether the words fill the code, or there are none.  A code of a single word of one bit may be
allowed as well. -/
def isUsable (code : PrefixCode) (allowSingle : Bool) : Bool :=
  match code.counts with
  | [] => true
  | counts =>
    match freeWords 1 counts with
    | none => false
    | some free => free = 0 || (allowSingle && counts.length = 1)

/-- Reads a word bit by bit.  `word` is what was read of it; the words of its length begin with
`first`, and their symbols are the next ones of `symbols`. -/
def readFrom (error : InflateError) :
    (counts : List Nat) → (word first : Nat) → (symbols : List Nat) → Inflating Nat
  | [], _, _, _ => throw (.invalid error)
  | count :: rest, word, first, symbols => do
    let word := 2 * word + (← nextBit)
    let first := 2 * first
    if word < first + count then
      match symbols[word - first]? with
      | some symbol => return symbol
      | none => throw (.invalid error)
    else readFrom error rest word (first + count) (symbols.drop count)

/-- **The symbol of the next word.**  A code without words takes a bit and then fails. -/
def read (code : PrefixCode) (error : InflateError) : Inflating Nat :=
  match code.counts with
  | [] => do
    let _ ← nextBit
    throw (.invalid error)
  | counts => readFrom error counts 0 0 code.symbols

end PrefixCode

/-! ## Blocks -/

/-- How long the references of the length symbols from 257 on are at least, and how many bits say
how much longer. -/
def lengthClasses : List (Nat × Nat) := [
  (3, 0), (4, 0), (5, 0), (6, 0), (7, 0), (8, 0), (9, 0), (10, 0), (11, 1), (13, 1), (15, 1),
  (17, 1), (19, 2), (23, 2), (27, 2), (31, 2), (35, 3), (43, 3), (51, 3), (59, 3), (67, 4), (83, 4),
  (99, 4), (115, 4), (131, 5), (163, 5), (195, 5), (227, 5), (258, 0)]

/-- How far the references of the distance symbols go back at least, and how many bits say how much
further. -/
def distanceClasses : List (Nat × Nat) := [
  (1, 0), (2, 0), (3, 0), (4, 0), (5, 1), (7, 1), (9, 2), (13, 2), (17, 3), (25, 3), (33, 4),
  (49, 4), (65, 5), (97, 5), (129, 6), (193, 6), (257, 7), (385, 7), (513, 8), (769, 8), (1025, 9),
  (1537, 9), (2049, 10), (3073, 10), (4097, 11), (6145, 11), (8193, 12), (12289, 12), (16385, 13),
  (24577, 13)]

/-- The number that a symbol of some classes and the bits behind it give. -/
def readClass (classes : List (Nat × Nat)) (symbol : Nat) (error : InflateError) : Inflating Nat :=
  match classes[symbol]? with
  | some (least, width) => return least + (← nextNumber width)
  | none => throw (.invalid error)

/-- Bytes from a distance back, one after the other, so that they may overlap with their copies. -/
def copyBack (distance : Nat) : (count : Nat) → Inflating Unit
  | 0 => return
  | count + 1 => do
    let s ← get
    emitByte (s.output.getD (s.output.size - distance) 0)
    copyBack distance count

/-- The literals and references of a block, up to its end; `limit` bounds their number. -/
def readSymbols (literals distances : PrefixCode) : (limit : Nat) → Inflating Unit
  | 0 => throw .exhausted
  | limit + 1 => do
    let symbol ← literals.read .literalCode
    if symbol < 256 then
      emitByte (UInt8.ofNat symbol)
      readSymbols literals distances limit
    else if symbol = 256 then return
    else
      let count ← readClass lengthClasses (symbol - 257) .literalCode
      let distance ← readClass distanceClasses (← distances.read .distanceCode) .distanceCode
      if (← get).output.size < distance then throw (.invalid .distanceTooFar)
      else
        copyBack distance count
        readSymbols literals distances limit

/-- Bytes stored as they are. -/
def copyStored : (count : Nat) → Inflating Unit
  | 0 => return
  | count + 1 => do
    emitByte (UInt8.ofNat (← nextNumber 8))
    copyStored count

/-- A stored block: it begins with a whole byte and gives its length twice. -/
def readStored : Inflating Unit := do
  modify fun s => { s with bits := s.bits.drop (s.bits.length % 8) }
  let length ← nextNumber 16
  let check ← nextNumber 16
  if length + check ≠ 0xFFFF then throw (.invalid .storedLengths)
  else copyStored length

/-- The code for literals that is used without being given. -/
def fixedLiterals : PrefixCode :=
  .ofLengths (List.replicate 144 8 ++ List.replicate 112 9 ++ List.replicate 24 7
    ++ List.replicate 8 8)

/-- The code for distances that is used without being given. -/
def fixedDistances : PrefixCode := .ofLengths (List.replicate 32 5)

/-- The order in which the lengths of the code for lengths are given. -/
def lengthOrder : List Nat := [16, 17, 18, 0, 8, 7, 9, 6, 10, 5, 11, 4, 12, 3, 13, 2, 14, 1, 15]

/-- The lengths of words, `total` of them, that a code for lengths gives; `limit` bounds the
symbols. -/
def readLengths (code : PrefixCode) (total : Nat) :
    (limit : Nat) → (known : List Nat) → Inflating (List Nat)
  | 0, known => return known
  | limit + 1, known => do
    if total ≤ known.length then return known
    else
      let symbol ← if code.counts.isEmpty then do let _ ← nextBit; pure 0
        else code.read .codeLengthsSet
      if symbol < 16 then readLengths code total limit (known ++ [symbol])
      else
        let last := known.getLast?
        let (value, count) ←
          if symbol = 16 then
            match last with
            | none => do
              let _ ← nextNumber 2
              throw (.invalid .bitLengthRepeat)
            | some value => pure (value, 3 + (← nextNumber 2))
          else if symbol = 17 then pure (0, 3 + (← nextNumber 3))
          else pure (0, 11 + (← nextNumber 7))
        if total < known.length + count then throw (.invalid .bitLengthRepeat)
        else readLengths code total limit (known ++ List.replicate count value)

/-- The lengths of so many words of the code for lengths. -/
def readWidths : (count : Nat) → Inflating (List Nat)
  | 0 => return []
  | count + 1 => do
    let width ← nextNumber 3
    return width :: (← readWidths count)

/-- The two codes that a block brings with it. -/
def readCodes : Inflating (PrefixCode × PrefixCode) := do
  let literalCount := 257 + (← nextNumber 5)
  let distanceCount := 1 + (← nextNumber 5)
  let widthCount := 4 + (← nextNumber 4)
  if 286 < literalCount || 30 < distanceCount then throw (.invalid .tooManySymbols)
  else
    let widths ← readWidths widthCount
    let code := PrefixCode.ofLengths ((List.range 19).map fun symbol =>
      widths.getD ((lengthOrder.idxOf? symbol).getD 19) 0)
    if !code.isUsable false then throw (.invalid .codeLengthsSet)
    else
      let total := literalCount + distanceCount
      let lengths ← readLengths code total total []
      let literals := PrefixCode.ofLengths (lengths.take literalCount)
      let distances := PrefixCode.ofLengths (lengths.drop literalCount)
      if lengths.getD 256 0 = 0 then throw (.invalid .missingEnd)
      else if !literals.isUsable true then throw (.invalid .literalSet)
      else if !distances.isUsable true then throw (.invalid .distanceSet)
      else return (literals, distances)

/-- All blocks up to the last one; `limit` bounds their number and that of their symbols. -/
def readBlocks : (limit : Nat) → Inflating Unit
  | 0 => throw .exhausted
  | limit + 1 => do
    let isLast ← nextBit
    match ← nextNumber 2 with
    | 0 => readStored
    | 1 => readSymbols fixedLiterals fixedDistances limit
    | 2 =>
      let (literals, distances) ← readCodes
      readSymbols literals distances limit
    | _ => throw (.invalid .blockType)
    if isLast = 1 then return else readBlocks limit

/-- **The bytes that compressed ones stand for**, or what is wrong with them. -/
def inflate (bytes : List UInt8) : Except InflateError (List UInt8) :=
  let bits := bitsOf bytes
  match (readBlocks (bits.length + 1)).run { bits } with
  | (.error (.invalid e), _) => .error e
  | (_, s) => .ok s.output.toList

end AutomatonShell.Archive
