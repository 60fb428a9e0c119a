import AutomatonShell.Proofs.HeaderText
import AutomatonShell.Proofs.StoredTexts

/-!
# Array files are read back

An array file is a header and the elements behind it.  The header says what the elements are and how
many there are, and each of them takes up the bytes that its type gives it, so they are cut apart
where they were put together.

Not every array can be read from its file.  Its elements may be too wide for a short form, its sizes
too large for the product of them to be a machine number, its shape too long for a header.
`NdArray.IsStorable` says what is asked; arrays of texts are, if they are not too large
(`isStorable_texts`).

* `NdArray.IsStorable` — what an array keeps to so that its file can be read.
* **`NdArray.read_encode`** — the array of a file is the one it was written from.
* `isStorable_texts` — arrays of texts.
-/

namespace AutomatonShell.Archive

/-! ## The header -/

lemma length_toDigits_le {n : Nat} (h : n < byteBound 4) : (Nat.toDigits 10 n).length ≤ 10 :=
  (Nat.length_toDigits_le_iff (by decide) (by decide)).2 (h.trans (by decide))

lemma isReadable_of_lt {n : Nat} (h : n < byteBound 4) : IsReadable n :=
  (length_toDigits_le h).trans (by decide)

/-- A header with few sizes that are not too large is short. -/
lemma length_headerText_le {t : ElementType} (hwidth : t.width < byteBound 4)
    (firstIndexFastest : Bool) {shape : List Nat} (hdimensions : shape.length ≤ 2)
    (hsizes : ∀ n ∈ shape, n < byteBound 4) :
    (headerText t firstIndexFastest shape).toList.length ≤ 100 := by
  have hcode : t.code.toList.length ≤ 12 := by
    rw [ElementType.code, String.toList_ofList, List.length_cons, List.length_cons]
    have hle : (if t.kind = .text then t.width / 4 else t.width) < byteBound 4 := by
      split_ifs
      · omega
      · exact hwidth
    have := length_toDigits_le hle
    omega
  have hnumber : ∀ n ∈ shape, (toString n).toList.length ≤ 10 := by
    intro n hn
    have : (toString n).toList = Nat.toDigits 10 n := Nat.toList_repr
    rw [this]
    exact length_toDigits_le (hsizes n hn)
  have hmarks : "(".toList.length = 1 ∧ ",)".toList.length = 2 ∧ ")".toList.length = 1 ∧
      ", ".toList.length = 2 := by decide
  have hshape : (shapeText shape).toList.length ≤ 24 := by
    rcases shape with _ | ⟨n, _ | ⟨m, _ | ⟨k, rest⟩⟩⟩
    · decide
    · have hn := hnumber n (by simp)
      simp only [shapeText, String.toList_append, List.length_append, hmarks]
      omega
    · have hn := hnumber n (by simp)
      have hm := hnumber m (by simp)
      have htwo : String.intercalate ", " [toString n, toString m]
          = toString n ++ ", " ++ toString m := rfl
      simp only [shapeText, List.map_cons, List.map_nil, htwo, String.toList_append,
        List.length_append, hmarks]
      omega
    · simp at hdimensions
  have hword : (truthWord firstIndexFastest).length ≤ 5 := by cases firstIndexFastest <;> decide
  have hfields : "\x7b'descr': '".toList.length + "', 'fortran_order': ".toList.length
      + ", 'shape': ".toList.length + ", \x7d".toList.length ≤ 50 := by decide
  rw [toList_headerText]
  simp only [List.length_append]
  omega

lemma toNat_ofNat_toNat {c : Char} (h : c.toNat < 256) :
    Char.ofNat (UInt8.ofNat c.toNat).toNat = c := by
  rw [UInt8.toNat_ofNat_of_lt' h, Char.ofNat_toNat]

/-- The bytes of a header are those of its line. -/
lemma header_eq (t : ElementType) (firstIndexFastest : Bool) (shape : List Nat) :
    ∃ blanks < 64, header t firstIndexFastest shape
      = (headerLine t firstIndexFastest shape blanks).map fun c => UInt8.ofNat c.toNat := by
  refine ⟨63 - ((headerText t firstIndexFastest shape).toList.length + 10) % 64, by omega, ?_⟩
  simp only [headerLine, List.map_append, List.map_replicate, header, List.length_map]
  rfl

lemma headerChars_map {line : List Char} (hchars : ∀ c ∈ line, c.toNat < 256)
    (hlength : line.length ≤ maxHeaderLength) :
    headerChars true (line.map fun c => UInt8.ofNat c.toNat) = some line := by
  have hback : (line.map fun c => UInt8.ofNat c.toNat).map (fun b => Char.ofNat b.toNat)
      = line := by
    rw [List.map_map]
    conv_rhs => rw [← List.map_id line]
    exact List.map_congr_left fun c hc => toNat_ofNat_toNat (hchars c hc)
  rw [headerChars, if_pos rfl, hback, Option.filter_some, decide_eq_true hlength, if_pos rfl]

/-! ## Arrays -/

/-- **What an array keeps to so that its file can be read.** -/
structure NdArray.IsStorable (a : NdArray) : Prop where
  code : layoutOfText? a.type.code.toList = some { type := a.type }
  record : a.type.kind ≠ .record
  object : a.type.kind ≠ .object
  width : 0 < a.type.width
  encoded : ∀ e ∈ a.values, (Element.encode a.type e).length = a.type.width
  count : a.shape.foldl (· * ·) 1 = a.values.length
  dimensions : a.shape.length ≤ 2
  fits : (a.shape.filter (0 < ·)).foldl (· * ·) a.type.width < byteBound 4

variable {a : NdArray}

lemma length_body (h : ∀ e ∈ a.values, (Element.encode a.type e).length = a.type.width) :
    (a.values.flatMap (Element.encode a.type)).length = a.values.length * a.type.width := by
  rw [List.length_flatMap, List.map_congr_left h, List.map_const', List.sum_replicate, smul_eq_mul]

/-- What the header of an array says. -/
def headerOf (a : NdArray) : Header :=
  { layout := { type := a.type }, firstIndexFastest := false, sizes := a.shape.map Nat.cast }

lemma foldl_mul (numbers : List Nat) (start : Nat) :
    numbers.foldl (· * ·) start = start * numbers.prod := by
  induction numbers generalizing start with
  | nil => simp
  | cons n rest ih => rw [List.foldl_cons, ih, List.prod_cons, Nat.mul_assoc]

lemma prod_filter_pos (numbers : List Nat) : 0 < (numbers.filter (0 < ·)).prod :=
  List.prod_pos fun n hn => by simpa using (List.mem_filter.1 hn).2

namespace NdArray.IsStorable

lemma size_lt (h : a.IsStorable) : ∀ n ∈ a.shape, n < byteBound 4 := by
  intro n hn
  have hfits := h.fits
  rw [foldl_mul] at hfits
  rcases Nat.eq_zero_or_pos n with rfl | hpos
  · decide
  · have hdvd : n ∣ (a.shape.filter (0 < ·)).prod :=
      List.dvd_prod (List.mem_filter.2 ⟨hn, decide_eq_true hpos⟩)
    calc n ≤ (a.shape.filter (0 < ·)).prod := Nat.le_of_dvd (prod_filter_pos _) hdvd
      _ ≤ a.type.width * (a.shape.filter (0 < ·)).prod := Nat.le_mul_of_pos_left _ h.width
      _ < byteBound 4 := hfits

lemma width_lt (h : a.IsStorable) : a.type.width < byteBound 4 := by
  have hfits := h.fits
  rw [foldl_mul] at hfits
  exact (Nat.le_mul_of_pos_right _ (prod_filter_pos _)).trans_lt hfits

lemma length_values_lt (h : a.IsStorable) : a.values.length < byteBound 4 := by
  rw [← h.count, foldl_mul, Nat.one_mul]
  by_cases hzero : 0 ∈ a.shape
  · rw [List.prod_eq_zero hzero]
    decide
  · have hfits := h.fits
    have hall : a.shape.filter (0 < ·) = a.shape := by
      refine List.filter_eq_self.2 fun n hn => decide_eq_true (Nat.pos_of_ne_zero ?_)
      rintro rfl
      exact hzero hn
    rw [foldl_mul, hall] at hfits
    exact (Nat.le_mul_of_pos_left _ h.width).trans_lt hfits

lemma count_headerOf (h : a.IsStorable) : (headerOf a).count = .ok a.values.length := by
  have hsmall : ∀ size ∈ (headerOf a).sizes, 0 ≤ size ∧ size < (byteBound 4 : Int) := by
    intro size hsize
    obtain ⟨n, hn, rfl⟩ := List.mem_map.1 hsize
    exact ⟨Int.natCast_nonneg n, Int.ofNat_lt.2 (h.size_lt n hn)⟩
  have hbound : (byteBound 4 : Int) = 4294967296 := rfl
  have hbound' : (byteBound 8 : Int) = 18446744073709551616 := rfl
  have hproduct : (headerOf a).sizes.foldl (· * ·) 1 = (a.values.length : Int) := by
    have hfold : ∀ (numbers : List Nat) (start : Nat),
        (numbers.map Nat.cast).foldl (· * ·) (start : Int)
          = (numbers.foldl (· * ·) start : Nat) := by
      intro numbers
      induction numbers with
      | nil => simp
      | cons n rest ih => intro start; simpa using ih (start * n)
    rw [← h.count]
    exact hfold a.shape 1
  have hlength : (a.values.length : Int) < byteBound 4 := Int.ofNat_lt.2 h.length_values_lt
  have hwrapped : wrappedProduct (headerOf a).sizes = (a.values.length : Int) := by
    rw [wrappedProduct, hproduct, hbound']
    omega
  have hnone : ∀ p : Int → Bool, (∀ size : Int, 0 ≤ size → size < byteBound 4 → p size = false) →
      (headerOf a).sizes.any p = false := by
    intro p hp
    rw [List.any_eq_false]
    intro size hsize
    simp [hp size (hsmall size hsize).1 (hsmall size hsize).2]
  rw [Header.count]
  dsimp only
  rw [hnone _ fun size h0 hlt => ?_, hnone _ fun size h0 hlt => ?_]
  · simp [hwrapped]
  · simp; omega
  · simp; omega

lemma shapeFor_headerOf (h : a.IsStorable) :
    (headerOf a).shapeFor a.values.length = some a.shape := by
  have hknown : ((headerOf a).sizes.filter (0 ≤ ·)).map Int.toNat = a.shape := by
    rw [List.filter_eq_self.2]
    · rw [headerOf, List.map_map]
      conv_rhs => rw [← List.map_id a.shape]
      exact List.map_congr_left fun n _ => Int.toNat_natCast n
    · intro size hsize
      obtain ⟨n, -, rfl⟩ := List.mem_map.1 hsize
      simp
  have hsizes : (headerOf a).sizes.length - a.shape.length = 0 := by simp [headerOf]
  have hdimensions : a.shape.length ≤ maxDimensions := h.dimensions.trans (by decide)
  have hfits : (a.shape.filter (0 < ·)).foldl (· * ·) (headerOf a).layout.type.width
      < byteBound 8 / 2 := h.fits.trans (by decide)
  rw [Header.shapeFor, hknown, hsizes]
  simp only [h.count, if_true, Option.filter_some, hdimensions, hfits]
  simp

lemma array_headerOf (h : a.IsStorable) :
    (headerOf a).array a.values.length (a.values.flatMap (Element.encode a.type))
      = some a.stored := by
  have hpieces : pieces a.type.width a.values.length (a.values.flatMap (Element.encode a.type))
      = a.values.map (Element.encode a.type) := by
    have hchunks : ∀ chunk ∈ a.values.map (Element.encode a.type),
        chunk.length = a.type.width := by
      intro chunk hchunk
      obtain ⟨e, he, rfl⟩ := List.mem_map.1 hchunk
      exact h.encoded e he
    have := pieces_flatten hchunks
    rwa [List.length_map, ← List.flatMap_def] at this
  have hdecode : (headerOf a).layout.decode = Element.decode a.type :=
    funext fun content => if_neg h.record
  have htype : (headerOf a).layout.type = a.type := rfl
  have hperEntry : (headerOf a).layout.perEntry = 1 := rfl
  have horder : (headerOf a).firstIndexFastest = false := rfl
  simp only [Header.array, hdecode, htype, hperEntry, horder, length_body h.encoded, h.object,
    h.width.ne', Nat.mul_one, ne_eq, not_true_eq_false, lt_irrefl, decide_false, Bool.or_self,
    Bool.false_and, Bool.false_eq_true, if_false, h.shapeFor_headerOf, hpieces, List.map_map]
  rfl

end NdArray.IsStorable

/-- The header of the file of an array that can be read. -/
lemma exists_headerChars_eq (h : a.IsStorable) :
    ∃ line, headerChars true (header a.type false a.shape) = some line ∧
      readHeader true line = .ok (headerOf a) := by
  obtain ⟨blanks, hblanks, heq⟩ := header_eq a.type false a.shape
  refine ⟨_, ?_, readHeader_headerLine h.code false
    (fun n hn => isReadable_of_lt (h.size_lt n hn)) blanks true⟩
  rw [heq]
  refine headerChars_map (fun c hc => ?_) ?_
  · rcases mem_headerLine hc with hc | rfl
    · simp only [isPrinted, Bool.and_eq_true, decide_eq_true_eq] at hc
      omega
    · decide
  · have := length_headerText_le h.width_lt false h.dimensions h.size_lt
    simp only [headerLine, List.length_append, List.length_replicate, List.length_singleton]
    exact Nat.le_trans (by omega) (show 200 ≤ maxHeaderLength by decide)

/-- The file of an array, part by part. -/
lemma encode_eq_some {bytes : List UInt8} (h : a.encode false = some bytes) :
    bytes = arraySignature ++ [1, 0] ++ littleEndian 2 (header a.type false a.shape).length
      ++ header a.type false a.shape ++ a.values.flatMap (Element.encode a.type) ∧
    (header a.type false a.shape).length < byteBound 2 := by
  rw [NdArray.encode, Bool.false_and] at h
  simp only [Bool.false_eq_true, if_false, bind, Option.bind, Option.ite_none_right_eq_some,
    Option.some.injEq] at h
  exact ⟨h.2.symm, h.1⟩

/-- The file of an array is as long as its elements at least. -/
lemma length_le_of_encode (h : ∀ e ∈ a.values, (Element.encode a.type e).length = a.type.width)
    {bytes : List UInt8} (hbytes : a.encode false = some bytes) :
    a.values.length * a.type.width ≤ bytes.length := by
  rw [(encode_eq_some hbytes).1, List.length_append, length_body h]
  exact Nat.le_add_left _ _

/-- **The array of a file is the one that was written.** -/
theorem NdArray.read_encode (h : a.IsStorable) {bytes : List UInt8}
    (hbytes : a.encode false = some bytes) : NdArray.read (.plain bytes) = .ok a.stored := by
  obtain ⟨line, hchars, hheader⟩ := exists_headerChars_eq h
  obtain ⟨rfl, hlength⟩ := encode_eq_some hbytes
  generalize header a.type false a.shape = head at hchars hlength
  generalize hbody : a.values.flatMap (Element.encode a.type) = body
  have hsize : ofLittleEndian (littleEndian 2 head.length) = head.length :=
    ofLittleEndian_littleEndian 2 head.length hlength
  have hexposed : ∀ bytes ends, (Contents.plain bytes).exposedBy ends = false := fun _ _ => rfl
  obtain ⟨bytes, hbytes⟩ : ∃ bytes, bytes = arraySignature ++ [1, 0] ++ littleEndian 2 head.length
    ++ head ++ body := ⟨_, rfl⟩
  have hsignature : isArrayFile bytes = true ∧ bytes.getD 6 0 = 1 ∧ bytes.getD 7 1 = 0 := by
    rw [hbytes]
    exact ⟨rfl, rfl, rfl⟩
  have hfirst : (bytes.drop 8).take 2 = littleEndian 2 head.length := by rw [hbytes]; rfl
  have hbehind : bytes.drop 10 = head ++ body := by rw [hbytes]; rfl
  have htake : (head ++ body).take head.length = head := List.take_left
  have hdrop : bytes.drop (10 + head.length) = body := by
    rw [← List.drop_drop, hbehind, List.drop_left]
  have hold : ((1 : UInt8) != 3) = true := rfl
  have hgood : (!true || !([1, 2, 3].contains (1 : UInt8)) || (0 : UInt8) != 0 || decide False
      || false) = false := rfl
  rw [← hbytes, NdArray.read]
  simp only [hexposed]
  simp only [Contents.plain, hsignature, hfirst, hsize, hbehind, htake, hdrop, if_true, ne_eq,
    not_true_eq_false, hgood, Bool.false_eq_true, if_false, hold, hchars]
  show (do
    let h ← readHeader true line
    let count ← h.count
    Reading.ofOption (h.array count body)) = _
  rw [hheader]
  show (do
    let count ← (headerOf a).count
    Reading.ofOption ((headerOf a).array count body)) = _
  rw [h.count_headerOf, ← hbody]
  show Reading.ofOption ((headerOf a).array _ _) = _
  rw [h.array_headerOf]
  rfl

/-! ## Arrays of texts -/

lemma foldl_max_le {numbers : List Nat} {start bound : Nat} (hstart : start ≤ bound)
    (h : ∀ n ∈ numbers, n ≤ bound) : numbers.foldl Nat.max start ≤ bound := by
  induction numbers generalizing start with
  | nil => exact hstart
  | cons n rest ih =>
    exact ih (Nat.max_le.2 ⟨hstart, h n List.mem_cons_self⟩)
      fun m hm => h m (List.mem_cons_of_mem n hm)

lemma length_encode_text (t : ElementType) (text : String) :
    (Element.encode t (.text text)).length = t.width := by
  rw [Element.encode, ElementType.codeBytes, padTo, List.length_take, List.length_append,
    List.length_replicate]
  omega

/-- **Arrays of texts can be read**, if no text is too wide for an element and all of them together
are not too large.  An array without elements may still have sizes. -/
lemma isStorable_texts {shape : List Nat} {values : List String}
    (hwide : ∀ v ∈ values, 4 * v.length ≤ ElementType.maxWidth)
    (hcount : shape.foldl (· * ·) 1 = values.length) (hdimensions : shape.length ≤ 2)
    (hsize : values.length * (NdArray.widthOf values).width < byteBound 4)
    (hempty : values = [] → (shape.filter (0 < ·)).foldl (· * ·) 4 < byteBound 4) :
    (NdArray.texts shape values).IsStorable := by
  have hbound : ElementType.maxWidth = 0x7FFFFFFF := rfl
  have hwidth : (values.map String.length).foldl Nat.max 1 ≤ ElementType.maxWidth / 4 := by
    refine foldl_max_le (by decide) fun n hn => ?_
    obtain ⟨v, hv, rfl⟩ := List.mem_map.1 hn
    have := hwide v hv
    omega
  have hpos := (le_foldl_max (values.map String.length) 1).1
  have hfits : (shape.filter (0 < ·)).foldl (· * ·) (NdArray.widthOf values).width
      < byteBound 4 := by
    by_cases hnil : values = []
    · rw [hnil]
      exact hempty hnil
    · have hall : shape.filter (0 < ·) = shape := by
        refine List.filter_eq_self.2 fun n hn => decide_eq_true (Nat.pos_of_ne_zero ?_)
        rintro rfl
        rw [foldl_mul, List.prod_eq_zero hn] at hcount
        exact hnil (List.length_eq_zero_iff.1 hcount.symm)
      rw [foldl_mul, Nat.one_mul] at hcount
      rwa [hall, foldl_mul, hcount, Nat.mul_comm]
  refine ⟨layoutOfText?_textOf (by omega), nofun, nofun, ?_, ?_, ?_, hdimensions, hfits⟩
  · show 0 < 4 * (values.map String.length).foldl Nat.max 1
    omega
  · intro e he
    obtain ⟨v, -, rfl⟩ := List.mem_map.1 he
    exact length_encode_text _ v
  · exact hcount.trans (List.length_map _).symm

end AutomatonShell.Archive
