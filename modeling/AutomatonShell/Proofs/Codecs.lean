import AutomatonShell.LogSink
import Mathlib.Data.List.Basic

/-!
# What codecs write

A codec is handed a text in pieces.  What stands in the file in the end is what the pieces added,
one after the other, and nothing is there of a piece that was refused.  One would expect that the
pieces do not show: that the file holds what a single piece with the same text would have added.
This is a law that a codec may have or not.  The codecs that write character by character have it;
Punycode does not, since it ends every piece with a hyphen of its own.

* `Codec.written` — **the bytes of some pieces** that are handed over one after the other.
* `Codec.expressed` — the pieces among them that are not refused.
* `Codec.IsSeamless` — that the pieces do not show, `isSeamless_ofEncoding` and
  `not_isSeamless_punycode`.
* `Codec.KeepsAscii` — that ASCII texts are read back, `keepsAscii_ofEncoding` and
  `not_keepsAscii_punycode`.
* `Codec.emit_eq_written` — giving up at the first refusal is no difference if there is none.
-/

namespace AutomatonShell

/-- Whether every encoding has the characters of a text. -/
def IsAscii (text : List Char) : Prop := ∀ c ∈ text, c.toNat < 128

namespace IsAscii

variable {text : List Char}

lemma append {first second : List Char} (h : IsAscii first) (h' : IsAscii second) :
    IsAscii (first ++ second) := fun c hc => (List.mem_append.1 hc).elim (h c) (h' c)

lemma flatten {pieces : List (List Char)} (h : ∀ piece ∈ pieces, IsAscii piece) :
    IsAscii pieces.flatten := fun c hc => by
  obtain ⟨piece, hpiece, hc⟩ := List.mem_flatten.1 hc
  exact h piece hpiece c hc

end IsAscii

namespace Text

/-! ## Character by character -/

namespace Encoding

variable {text : List Char}

lemma mapM_encodeBelow {bound : Nat} (h : ∀ c ∈ text, c.toNat < bound) :
    text.mapM (encodeBelow bound) = some (text.map fun c => UInt8.ofNat c.toNat) := by
  induction text with
  | nil => rfl
  | cons c rest ih =>
    obtain ⟨hc, hrest⟩ := List.forall_mem_cons.1 h
    simp [List.mapM_cons, encodeBelow, hc, ih hrest]

/-- The bytes of an ASCII text are the same in every encoding. -/
lemma encode_of_isAscii (h : IsAscii text) (code : Encoding) :
    code.encode text = some (text.map fun c => UInt8.ofNat c.toNat) := by
  cases code with
  | utf8 =>
    have hchar : ∀ c ∈ text, String.utf8EncodeChar c = [UInt8.ofNat c.toNat] := fun c hc =>
      if_pos (Nat.le_of_lt_succ (h c hc))
    rw [encode, List.flatMap_congr hchar, List.map_eq_flatMap]
  | latin1 => exact mapM_encodeBelow fun c hc => Nat.lt_trans (h c hc) (by decide)
  | ascii => exact mapM_encodeBelow h

/-- **ASCII texts are read back in every encoding.** -/
lemma decode_encode {bytes : List UInt8} (h : IsAscii text) {code : Encoding}
    (hbytes : code.encode text = some bytes) : code.decode bytes = some text := by
  obtain rfl := Option.some.inj (hbytes.symm.trans (encode_of_isAscii h code))
  clear hbytes
  induction text with
  | nil => cases code <;> rfl
  | cons c rest ih =>
    have ih := ih fun d hd => h d (List.mem_cons_of_mem c hd)
    have hc := h c List.mem_cons_self
    have hnat : (UInt8.ofNat c.toNat).toNat = c.toNat :=
      UInt8.toNat_ofNat_of_lt' (Nat.lt_trans hc (by decide))
    have hchar : Char.ofNat (UInt8.ofNat c.toNat).toNat = c := by rw [hnat, Char.ofNat_toNat]
    have hlt : UInt8.ofNat c.toNat < 0x80 := by
      rw [UInt8.lt_iff_toNat_lt, hnat]
      exact hc
    cases code with
    | utf8 =>
      rw [decode] at ih ⊢
      rw [List.map_cons, decodeUtf8.eq_def]
      dsimp only
      rw [if_pos hlt, ih, hchar]
      rfl
    | latin1 =>
      rw [decode] at ih ⊢
      rw [List.map_cons, List.map_cons, hchar, Option.some.inj ih]
    | ascii =>
      rw [decode] at ih ⊢
      rw [List.map_cons, List.mapM_cons, ih, if_pos hlt, hchar]
      rfl

lemma encode_nil (code : Encoding) : code.encode [] = some [] := by
  cases code <;> rfl

/-- Texts one after the other have their bytes one after the other. -/
lemma encode_append {first second : List Char} {code : Encoding} {bytes more : List UInt8}
    (hfirst : code.encode first = some bytes) (hsecond : code.encode second = some more) :
    code.encode (first ++ second) = some (bytes ++ more) := by
  cases code with
  | utf8 =>
    cases hfirst
    cases hsecond
    simp [encode]
  | latin1 | ascii =>
    rw [encode] at hfirst hsecond ⊢
    rw [List.mapM_append, hfirst, hsecond]
    rfl

end Encoding

/-! ## Pieces one after the other -/

namespace Codec

variable {c : Codec} {given pieces : List (List Char)}

/-- The bytes of pieces that are handed over after others, refused ones left out. -/
def writtenAfter (c : Codec) : (given pieces : List (List Char)) → List UInt8
  | _, [] => []
  | given, piece :: rest =>
    (c.encodeAfter given piece).getD [] ++ c.writtenAfter (given ++ [piece]) rest

/-- **The bytes of some pieces** in a new file. -/
def written (c : Codec) (pieces : List (List Char)) : List UInt8 := c.writtenAfter [] pieces

/-- The pieces that can be expressed among some that are handed over after others. -/
def expressedAfter (c : Codec) : (given pieces : List (List Char)) → List (List Char)
  | _, [] => []
  | given, piece :: rest =>
    if (c.encodeAfter given piece).isSome then
      piece :: c.expressedAfter (given ++ [piece]) rest
    else c.expressedAfter (given ++ [piece]) rest

/-- The pieces in a new file that can be expressed. -/
def expressed (c : Codec) (pieces : List (List Char)) : List (List Char) :=
  c.expressedAfter [] pieces

/-- Bytes that a text is written as in a new file. -/
def IsText (c : Codec) (bytes : List UInt8) (text : List Char) : Prop :=
  c.encodeAfter [] text = some bytes ∨ text = [] ∧ bytes = []

/-- **The pieces do not show** in what is written: the ones that can be expressed are written as
they are when they are put together to one text. -/
def IsSeamless (c : Codec) : Prop :=
  ∀ pieces, c.IsText (c.written pieces) (c.expressed pieces).flatten

/-- ASCII texts can be expressed piece by piece, and they are read back. -/
structure KeepsAscii (c : Codec) : Prop where
  /-- Every piece is expressed. -/
  expressed : ∀ {pieces}, (∀ piece ∈ pieces, IsAscii piece) → c.expressed pieces = pieces
  /-- The whole is read back. -/
  decode : ∀ {pieces}, (∀ piece ∈ pieces, IsAscii piece) →
    c.decode (c.written pieces) = .ok pieces.flatten

lemma writtenAfter_append (c : Codec) (given first second : List (List Char)) :
    c.writtenAfter given (first ++ second)
      = c.writtenAfter given first ++ c.writtenAfter (given ++ first) second := by
  induction first generalizing given with
  | nil => simp [writtenAfter]
  | cons piece rest ih => simp [writtenAfter, ih]

lemma writtenAfter_singleton (c : Codec) (given : List (List Char)) (piece : List Char) :
    c.writtenAfter given [piece] = (c.encodeAfter given piece).getD [] := by
  simp [writtenAfter]

lemma expressedAfter_of_none {piece : List Char} (h : c.encodeAfter given piece = none) :
    c.expressedAfter given (piece :: pieces) = c.expressedAfter (given ++ [piece]) pieces := by
  simp [expressedAfter, h]

lemma expressedAfter_of_some {piece : List Char} {bytes : List UInt8}
    (h : c.encodeAfter given piece = some bytes) :
    c.expressedAfter given (piece :: pieces)
      = piece :: c.expressedAfter (given ++ [piece]) pieces := by
  simp [expressedAfter, h]

lemma expressedAfter_length_le (c : Codec) (given pieces : List (List Char)) :
    (c.expressedAfter given pieces).length ≤ pieces.length := by
  induction pieces generalizing given with
  | nil => exact Nat.le_refl _
  | cons piece rest ih =>
    have hrest := ih (given ++ [piece])
    rw [expressedAfter]
    split_ifs <;> simp only [List.length_cons] <;> omega

/-- If all pieces are expressed, giving up at the first refusal is no difference. -/
lemma emitAfter_eq_writtenAfter (h : c.expressedAfter given pieces = pieces) :
    c.emitAfter given pieces = (c.writtenAfter given pieces, false) := by
  induction pieces generalizing given with
  | nil => rfl
  | cons piece rest ih =>
    rw [emitAfter, writtenAfter]
    cases hbytes : c.encodeAfter given piece with
    | none =>
      rw [expressedAfter_of_none hbytes] at h
      have hle := expressedAfter_length_le c (given ++ [piece]) rest
      rw [h, List.length_cons] at hle
      omega
    | some bytes =>
      rw [expressedAfter_of_some hbytes, List.cons.injEq] at h
      simp [ih h.2]

lemma emit_eq_written (h : c.expressed pieces = pieces) :
    c.emit pieces = (c.written pieces, false) := emitAfter_eq_writtenAfter h

/-! ## The codecs that are built in -/

variable (code : Encoding)

lemma writtenAfter_ofEncoding (given pieces : List (List Char)) :
    (ofEncoding code).writtenAfter given pieces
      = pieces.flatMap fun piece => (code.encode piece).getD [] := by
  induction pieces generalizing given with
  | nil => rfl
  | cons piece rest ih => rw [writtenAfter, ih, List.flatMap_cons]; rfl

lemma expressedAfter_ofEncoding (given pieces : List (List Char)) :
    (ofEncoding code).expressedAfter given pieces
      = pieces.filter fun piece => (code.encode piece).isSome := by
  induction pieces generalizing given with
  | nil => rfl
  | cons piece rest ih =>
    rw [expressedAfter, List.filter_cons, ih]
    rfl

/-- The pieces that can be expressed, as one text, have the bytes of all pieces. -/
lemma encode_flatten_filter (pieces : List (List Char)) :
    code.encode (pieces.filter fun piece => (code.encode piece).isSome).flatten
      = some (pieces.flatMap fun piece => (code.encode piece).getD []) := by
  induction pieces with
  | nil => exact code.encode_nil
  | cons piece rest ih =>
    cases hpiece : code.encode piece with
    | none => simpa [hpiece] using ih
    | some bytes =>
      rw [List.filter_cons_of_pos (by simp [hpiece]), List.flatten_cons, List.flatMap_cons, hpiece]
      exact Encoding.encode_append hpiece ih

/-- **A codec that writes character by character** does not show the pieces. -/
lemma isSeamless_ofEncoding : (ofEncoding code).IsSeamless := fun pieces => by
  rw [expressed, written, expressedAfter_ofEncoding, writtenAfter_ofEncoding]
  exact Or.inl (encode_flatten_filter code pieces)

/-- **A codec that writes character by character** keeps ASCII texts. -/
lemma keepsAscii_ofEncoding : (ofEncoding code).KeepsAscii := by
  have hall : ∀ {pieces : List (List Char)}, (∀ piece ∈ pieces, IsAscii piece) →
      (ofEncoding code).expressed pieces = pieces := fun h => by
    rw [expressed, expressedAfter_ofEncoding, List.filter_eq_self]
    exact fun piece hpiece => by rw [Encoding.encode_of_isAscii (h piece hpiece)]; rfl
  refine ⟨hall, fun {pieces} h => ?_⟩
  have hbytes : code.encode pieces.flatten = some ((ofEncoding code).written pieces) := by
    have hflatten := encode_flatten_filter code pieces
    rwa [← expressedAfter_ofEncoding code [], ← expressed, hall h,
      ← writtenAfter_ofEncoding code []] at hflatten
  simp only [ofEncoding] at hbytes ⊢
  rw [Encoding.decode_encode (IsAscii.flatten h) hbytes]

/-- The codecs of the three encodings. -/
lemma ofName?_of_encoding {name : String} {code : Encoding}
    (h : Encoding.ofName? name = some code) : ofName? name = some (ofEncoding code) := by
  have hplain : ∀ plain, (plain = "punycode" ∨ plain = "undefined") →
      Encoding.normalName name ≠ plain := by
    rintro plain hplain hname
    rw [Encoding.ofName?, hname] at h
    rcases hplain with rfl | rfl <;> exact absurd h (by decide +revert)
  rw [ofName?]
  split
  · exact absurd ‹_› (hplain _ (Or.inl rfl))
  · exact absurd ‹_› (hplain _ (Or.inr rfl))
  · rw [h, Option.map_some]

/-- Punycode puts a hyphen behind each of two pieces. -/
lemma not_isSeamless_punycode : ¬ punycode.IsSeamless := fun h => by
  rcases h [['a'], ['b']] with h | ⟨h, -⟩
  · exact absurd h (by decide +kernel)
  · exact absurd h (by decide +kernel)

/-- What Punycode makes of two pieces, it reads as something else. -/
lemma not_keepsAscii_punycode : ¬ punycode.KeepsAscii := fun h =>
  absurd (@KeepsAscii.decode _ h [['a'], ['b']] (by simp [IsAscii])) (by decide +kernel)

end Codec

end Text

end AutomatonShell
