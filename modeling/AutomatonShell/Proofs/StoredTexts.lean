import AutomatonShell.Archive.ArrayFile
import AutomatonShell.Text.Blank
import Mathlib.Tactic.Common

/-!
# Texts in arrays of fixed width

An array of texts gives every one of them as many bytes as the longest needs, four for a character,
and fills them up with zeros.  What comes back is the text without the NULs at its end: nothing
tells these from the filling.

The bytes of a text are those of its code points with zeros behind them, in pieces of four
(`codeBytes_eq`), so reading the pieces gives the code points with zeros behind them.

* **`decode_encode_text`** — a text that fits comes back without the NULs at its end.
* `NdArray.stored` — an array whose elements went through their bytes.
* **`NdArray.stored_texts`** — an array of texts is stored as it is, if none of them ends in NUL.
-/

namespace AutomatonShell.Archive

/-! ## Pieces -/

/-- Pieces of one length are read back from the bytes that they make up. -/
lemma pieces_flatten {length : Nat} {chunks : List (List UInt8)}
    (h : ∀ chunk ∈ chunks, chunk.length = length) :
    pieces length chunks.length chunks.flatten = chunks := by
  induction chunks with
  | nil => rfl
  | cons chunk rest ih =>
    have hchunk := h chunk List.mem_cons_self
    rw [List.length_cons, pieces, List.flatten_cons, List.take_left' hchunk,
      List.drop_left' hchunk, ih fun c hc => h c (List.mem_cons_of_mem chunk hc)]

lemma length_flatMap_littleEndian (width : Nat) (codes : List Nat) :
    (codes.flatMap (littleEndian width)).length = width * codes.length := by
  induction codes with
  | nil => simp
  | cons code rest ih =>
    rw [List.flatMap_cons, List.length_append, length_littleEndian, ih, List.length_cons,
      Nat.mul_succ, Nat.add_comm]

/-- The bytes of code points that fit are those of the code points and of zeros behind them. -/
lemma codeBytes_eq {length : Nat} {codes : List Nat} (h : codes.length ≤ length) :
    (ElementType.textOf length).codeBytes codes
      = ((codes ++ List.replicate (length - codes.length) 0).map (littleEndian 4)).flatten := by
  have hordered : ∀ bytes, (ElementType.textOf length).ordered bytes = bytes := fun _ => rfl
  have hzeros : ∀ k, List.replicate (4 * k) (0 : UInt8)
      = ((List.replicate k 0).map (littleEndian 4)).flatten := by
    intro k
    induction k with
    | zero => rfl
    | succ k ih =>
      rw [Nat.mul_succ, Nat.add_comm, List.replicate_append_replicate.symm, ih]
      rfl
  have hfill : 4 * length - 4 * codes.length = 4 * (length - codes.length) := by omega
  simp only [ElementType.codeBytes, hordered, padTo, length_flatMap_littleEndian]
  show ((codes.flatMap (littleEndian 4)) ++ List.replicate (4 * length - 4 * codes.length) 0).take
    (4 * length) = _
  rw [hfill, hzeros, List.map_append, List.flatten_append, List.flatMap_def, List.take_of_length_le]
  rw [← List.flatten_append, ← List.map_append, ← List.flatMap_def, length_flatMap_littleEndian,
    List.length_append, List.length_replicate]
  omega

/-! ## Texts -/

lemma isValidChar_toNat (c : Char) : c.toNat.isValidChar := c.valid

lemma toNat_lt_byteBound (c : Char) : c.toNat < byteBound 4 := by
  have hbound : byteBound 4 = 0x100000000 := rfl
  rcases isValidChar_toNat c with h | h
  · omega
  · omega

lemma textOfCodes_toNat (text : List Char) :
    textOfCodes (text.map Char.toNat) = .text (String.ofList text) := by
  have hall : ((text.map Char.toNat).all fun code => code.isValidChar) = true := by
    refine List.all_eq_true.2 fun n hn => ?_
    obtain ⟨c, -, rfl⟩ := List.mem_map.1 hn
    exact decide_eq_true (isValidChar_toNat c)
  have hback : Char.ofNat ∘ Char.toNat = id := funext Char.ofNat_toNat
  rw [textOfCodes, if_pos hall, List.map_map, hback, List.map_id]

/-- **A text that fits comes back without the NULs at its end.** -/
theorem decode_encode_text {length : Nat} {text : String} (h : text.length ≤ length) :
    Element.decode (.textOf length) (Element.encode (.textOf length) (.text text))
      = .text (String.ofList (Text.dropEndWhile (fun c => c.toNat == 0) text.toList)) := by
  have hlength : (text.toList.map Char.toNat).length ≤ length := by
    rwa [List.length_map, String.length_toList]
  generalize hcodes : text.toList.map Char.toNat = codes at hlength
  generalize hpadded : codes ++ List.replicate (length - codes.length) 0 = padded
  have hcount : padded.length = length := by
    rw [← hpadded, List.length_append, List.length_replicate]
    omega
  have hpieces : pieces 4 length (padded.map (littleEndian 4)).flatten
      = padded.map (littleEndian 4) := by
    have hchunks : ∀ chunk ∈ padded.map (littleEndian 4), chunk.length = 4 := by
      intro chunk hchunk
      obtain ⟨n, -, rfl⟩ := List.mem_map.1 hchunk
      exact length_littleEndian 4 n
    have := pieces_flatten hchunks
    rwa [List.length_map, hcount] at this
  have hnumbers : (padded.map (littleEndian 4)).map ofLittleEndian = padded := by
    rw [List.map_map]
    conv_rhs => rw [← List.map_id padded]
    refine List.map_congr_left fun n hn => ofLittleEndian_littleEndian 4 n ?_
    rw [← hpadded, ← hcodes, List.mem_append] at hn
    rcases hn with hn | hn
    · obtain ⟨c, -, rfl⟩ := List.mem_map.1 hn
      exact toNat_lt_byteBound c
    · rw [List.eq_of_mem_replicate hn]
      decide
  -- the filling goes first, and then whatever NULs the text has at its own end
  have hstripped : (padded.reverse.dropWhile (· == 0)).reverse
      = (Text.dropEndWhile (fun c => c.toNat == 0) text.toList).map Char.toNat := by
    rw [← hpadded, List.reverse_append, List.dropWhile_append_of_pos, ← hcodes, ← List.map_reverse,
      List.dropWhile_map, ← List.map_reverse]
    · rfl
    · intro n hn
      rw [List.reverse_replicate] at hn
      rw [List.eq_of_mem_replicate hn]
      rfl
  have hdecode : Element.decode (.textOf length) ((ElementType.textOf length).codeBytes codes)
      = textOfCodes ((((pieces 4 (4 * length / 4) ((ElementType.textOf length).codeBytes codes)).map
          ofLittleEndian).reverse.dropWhile (· == 0)).reverse) := rfl
  rw [Element.encode, hcodes, hdecode, Nat.mul_div_cancel_left length (by decide),
    codeBytes_eq hlength, hpadded, hpieces, hnumbers, hstripped, textOfCodes_toNat]

/-- A text that does not end in NUL comes back as it is. -/
lemma decode_encode_text_of_getLast? {length : Nat} {text : String} (h : text.length ≤ length)
    (hlast : ∀ c ∈ text.toList.getLast?, c.toNat ≠ 0) :
    Element.decode (.textOf length) (Element.encode (.textOf length) (.text text))
      = .text text := by
  rw [decode_encode_text h]
  have hkept : Text.dropEndWhile (fun c => c.toNat == 0) text.toList = text.toList := by
    rw [Text.dropEndWhile]
    cases hrev : text.toList.reverse with
    | nil => rw [List.reverse_eq_nil_iff.1 hrev]; rfl
    | cons c rest =>
      have hc : c.toNat ≠ 0 := by
        refine hlast c ?_
        rw [← List.head?_reverse, hrev]
        rfl
      rw [List.dropWhile_cons_of_neg (by simpa using hc), ← hrev, List.reverse_reverse]
  rw [hkept, String.ofList_toList]

/-! ## Arrays -/

lemma le_foldl_max (numbers : List Nat) (start : Nat) :
    start ≤ numbers.foldl Nat.max start ∧ ∀ n ∈ numbers, n ≤ numbers.foldl Nat.max start := by
  induction numbers generalizing start with
  | nil => simp
  | cons m rest ih =>
    obtain ⟨hstart, hrest⟩ := ih (Nat.max start m)
    refine ⟨Nat.le_trans (Nat.le_max_left start m) hstart, fun n hn => ?_⟩
    rcases List.mem_cons.1 hn with rfl | hn
    · exact Nat.le_trans (Nat.le_max_right start n) hstart
    · exact hrest n hn

/-- **An array whose elements went through their bytes.** -/
def NdArray.stored (a : NdArray) : NdArray :=
  { a with values := a.values.map fun e => Element.decode a.type (Element.encode a.type e) }

/-- **An array of texts is stored as it is**, if none of them ends in NUL: its width is that of the
longest. -/
theorem NdArray.stored_texts {shape : List Nat} {values : List String}
    (h : ∀ v ∈ values, ∀ c ∈ v.toList.getLast?, c.toNat ≠ 0) :
    (NdArray.texts shape values).stored = NdArray.texts shape values := by
  simp only [NdArray.stored, NdArray.texts, List.map_map]
  congr 1
  refine List.map_congr_left fun v hv => ?_
  rw [Function.comp_apply, NdArray.widthOf]
  exact decode_encode_text_of_getLast?
    ((le_foldl_max _ 1).2 _ (List.mem_map_of_mem hv)) (h v hv)

end AutomatonShell.Archive
