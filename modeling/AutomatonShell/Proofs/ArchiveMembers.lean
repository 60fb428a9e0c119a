import AutomatonShell.Archive.Directory
import Mathlib

/-!
# Archives are read back

The archive of some members, read from its end to its beginning: the end record leads to the
directory, the directory to the local records, and each of these to the bytes behind it.  All three
kinds of record begin with numbers of fixed widths, one behind the other, and a number among them is
read from where those in front of it end (`field_laid`).

A reader of the end record also looks for the locator of a wider one in front of it, which is where
the last record of the directory stands, with the name of the last member.  If that name is neither
very short nor long, there is no locator to be seen (`slice_ne_locatorSignature`).

* `laid` — numbers one behind the other.
* `Member.Fits` — the members that can be read back; `entries` — what the directory says of them.
* `readDirectory_directory`, `listMembers_entries` — the directory, and the members it describes.
* **`readMembers_writeMembers`** — the members of an archive are those it was written from.
-/

namespace AutomatonShell.Archive

/-! ## Fields -/

/-- Numbers one behind the other, each with its width. -/
def laid (numbers : List (Nat × Nat)) : List UInt8 :=
  numbers.flatMap fun number => littleEndian number.1 number.2

/-- Where a number begins among numbers that are laid out. -/
def placeOf (numbers : List (Nat × Nat)) (i : Nat) : Nat := ((numbers.take i).map Prod.fst).sum

lemma length_laid (numbers : List (Nat × Nat)) :
    (laid numbers).length = (numbers.map Prod.fst).sum := by
  induction numbers with
  | nil => rfl
  | cons number rest ih =>
    rw [laid, List.flatMap_cons, ← laid, List.length_append, length_littleEndian, ih,
      List.map_cons, List.sum_cons]

/-- **A number is read from where it begins.** -/
lemma field_laid {numbers : List (Nat × Nat)} (i : Nat) {place width n : Nat}
    (hi : numbers[i]? = some (width, n)) (hplace : placeOf numbers i = place)
    (hn : n < byteBound width) (rest : List UInt8) :
    field (laid numbers ++ rest) place width = n := by
  obtain ⟨hlt, hget⟩ := List.getElem?_eq_some_iff.1 hi
  have hsplit : numbers = numbers.take i ++ (width, n) :: numbers.drop (i + 1) := by
    rw [← hget, List.getElem_cons_drop, List.take_append_drop]
  have hlaid : laid numbers
      = laid (numbers.take i) ++ (littleEndian width n ++ laid (numbers.drop (i + 1))) := by
    conv_lhs => rw [hsplit, laid, List.flatMap_append, List.flatMap_cons]
    rfl
  have hlength : place = (laid (numbers.take i)).length := hplace ▸ (length_laid _).symm
  rw [field, slice, hlaid, hlength, List.append_assoc, List.append_assoc, List.drop_left,
    List.take_left' (length_littleEndian width n), ofLittleEndian_littleEndian width n hn]

/-! ## Records -/

variable {m : Member} {rest : List UInt8} {offset : Nat}

/-- The numbers of a local record. -/
def Member.localNumbers (m : Member) : List (Nat × Nat) :=
  [(4, 0x04034B50), (2, 20), (2, 0), (2, 0), (2, 0), (2, 0x21), (4, (checksum m.content).toNat),
    (4, m.content.length), (4, m.content.length), (2, m.nameBytes.length), (2, 20)]

/-- The numbers of a record in the directory. -/
def Member.directoryNumbers (m : Member) (offset : Nat) : List (Nat × Nat) :=
  [(4, 0x02014B50), (2, 0x0314), (1, 20), (1, 0), (2, 0), (2, 0), (2, 0), (2, 0x21),
    (4, (checksum m.content).toNat), (4, m.content.length), (4, m.content.length),
    (2, m.nameBytes.length), (2, 0), (2, 0), (2, 0), (2, 0), (4, 0x01800000), (4, offset)]

/-- The numbers of an end record. -/
def endNumbers (count size offset : Nat) : List (Nat × Nat) :=
  [(4, 0x06054B50), (2, 0), (2, 0), (2, count), (2, count), (4, size), (4, offset), (2, 0)]

lemma localRecord_eq (m : Member) :
    m.localRecord = laid m.localNumbers ++ (m.nameBytes ++ (laid [(2, 1), (2, 16),
      (8, m.content.length), (8, m.content.length)] ++ m.content)) := by
  have hsignature : localSignature = littleEndian 4 0x04034B50 := by decide
  simp only [Member.localRecord, Member.summary, Member.localNumbers, laid, List.flatMap_cons,
    List.flatMap_nil, List.append_assoc, List.append_nil, hsignature]

lemma directoryRecord_eq (m : Member) (offset : Nat) :
    m.directoryRecord offset = laid (m.directoryNumbers offset) ++ m.nameBytes := by
  have hsignature : directorySignature = littleEndian 4 0x02014B50 := by decide
  have hversion : littleEndian 2 20 = littleEndian 1 20 ++ littleEndian 1 0 := by decide
  simp only [Member.directoryRecord, Member.summary, Member.directoryNumbers, laid,
    List.flatMap_cons, List.flatMap_nil, List.append_assoc, List.append_nil, hsignature, hversion]

lemma endRecord_eq (count size offset : Nat) :
    endRecord count size offset = laid (endNumbers count size offset) := by
  have hsignature : endSignature = littleEndian 4 0x06054B50 := by decide
  simp only [endRecord, endNumbers, laid, List.flatMap_cons, List.flatMap_nil, List.append_assoc,
    List.append_nil, hsignature]

lemma length_localRecord (m : Member) :
    m.localRecord.length = 50 + m.nameBytes.length + m.content.length := by
  simp only [localRecord_eq, List.length_append, length_laid, Member.localNumbers, List.map_cons,
    List.map_nil, List.sum_cons, List.sum_nil]
  omega

lemma length_directoryRecord (m : Member) (offset : Nat) :
    (m.directoryRecord offset).length = 46 + m.nameBytes.length := by
  simp only [directoryRecord_eq, List.length_append, length_laid, Member.directoryNumbers,
    List.map_cons, List.map_nil, List.sum_cons, List.sum_nil]
  omega

/-- A member whose name is written in ASCII, and whose sizes fit their fields. -/
structure Member.Fits (m : Member) : Prop where
  name : ∀ c ∈ m.name.toList, c ≠ Char.ofNat 0 ∧ c.toNat < 128
  nameLength : m.nameBytes.length < byteBound 2
  size : m.content.length < byteBound 4

/-- What the directory says of a member. -/
def Member.entry (m : Member) (offset : Nat) : DirectoryEntry where
  fullName := m.name.toList
  flags := 0
  method := 0
  checksum := (checksum m.content).toNat
  storedSize := m.content.length
  size := m.content.length
  offset := offset

/-- What the directory says of members whose local records stand one behind the other. -/
def entries (offset : Nat) : List Member → List DirectoryEntry
  | [] => []
  | m :: rest => m.entry offset :: entries (offset + m.localRecord.length) rest

lemma Member.Fits.decodeName (h : m.Fits) : decodeName 0 m.nameBytes = some m.name.toList := by
  have hback : m.nameBytes.map (fun b => if b < 0x80 then Char.ofNat b.toNat
      else highNameChars.getD (b.toNat - 0x80) '?') = m.name.toList := by
    rw [Member.nameBytes, List.map_map]
    conv_rhs => rw [← List.map_id m.name.toList]
    refine List.map_congr_left fun c hc => ?_
    have hlt := (h.name c hc).2
    have hbyte : (UInt8.ofNat c.toNat).toNat = c.toNat :=
      UInt8.toNat_ofNat_of_lt' (hlt.trans (by decide))
    rw [Function.comp_apply, if_pos (UInt8.lt_iff_toNat_lt.2 (by rw [hbyte]; exact hlt)), hbyte,
      Char.ofNat_toNat, id]
  rw [Archive.decodeName, if_neg (by decide), hback]

lemma Member.Fits.entry_name (h : m.Fits) (offset : Nat) : (m.entry offset).name = m.name := by
  have hkept : m.name.toList.takeWhile (· != Char.ofNat 0) = m.name.toList :=
    List.takeWhile_eq_self_iff.2 fun c hc => by simpa using (h.name c hc).1
  rw [DirectoryEntry.name, Member.entry, hkept, String.ofList_toList]

/-- The record of a member in the directory, field by field. -/
lemma Member.Fits.field_directoryRecord (h : m.Fits) (hoffset : offset < byteBound 4)
    (rest : List UInt8) :
    let bytes := m.directoryRecord offset ++ rest
    field bytes 6 1 = 20 ∧ field bytes 8 2 = 0 ∧ field bytes 10 2 = 0 ∧
      field bytes 16 4 = (checksum m.content).toNat ∧ field bytes 20 4 = m.content.length ∧
      field bytes 24 4 = m.content.length ∧ field bytes 28 2 = m.nameBytes.length ∧
      field bytes 30 2 = 0 ∧ field bytes 32 2 = 0 ∧ field bytes 42 4 = offset ∧
      slice bytes 46 m.nameBytes.length = m.nameBytes := by
  have hlength : (laid (m.directoryNumbers offset)).length = 46 := by
    simp [length_laid, Member.directoryNumbers]
  have hname : slice (laid (m.directoryNumbers offset) ++ (m.nameBytes ++ rest)) 46
      m.nameBytes.length = m.nameBytes := by
    rw [slice, ← hlength, List.drop_left, List.take_left]
  have hchecksum : (checksum m.content).toNat < byteBound 4 := UInt32.toNat_lt _
  rw [directoryRecord_eq, List.append_assoc]
  refine ⟨field_laid 2 rfl ?_ ?_ _, field_laid 4 rfl ?_ ?_ _, field_laid 5 rfl ?_ ?_ _,
    field_laid 8 rfl ?_ hchecksum _, field_laid 9 rfl ?_ h.size _, field_laid 10 rfl ?_ h.size _,
    field_laid 11 rfl ?_ h.nameLength _, field_laid 12 rfl ?_ ?_ _, field_laid 13 rfl ?_ ?_ _,
    field_laid 17 rfl ?_ hoffset _, hname⟩ <;>
  first
    | simp [placeOf, Member.directoryNumbers]
    | decide

/-- The local record of a member, field by field, with the bytes behind it. -/
lemma Member.Fits.field_localRecord (h : m.Fits) (rest : List UInt8) :
    let bytes := m.localRecord ++ rest
    field bytes 6 2 = 0 ∧ field bytes 26 2 = m.nameBytes.length ∧ field bytes 28 2 = 20 ∧
      slice bytes 30 m.nameBytes.length = m.nameBytes ∧
      slice bytes (30 + m.nameBytes.length + 20) m.content.length = m.content := by
  have hlength : (laid m.localNumbers).length = 30 := by
    simp [length_laid, Member.localNumbers]
  rw [localRecord_eq]
  generalize hextra : laid [(2, 1), (2, 16), (8, m.content.length), (8, m.content.length)] = extra
  have hextra : extra.length = 20 := by
    simp [← hextra, length_laid]
  have hname : slice (laid m.localNumbers ++ (m.nameBytes ++ (extra ++ m.content)) ++ rest) 30
      m.nameBytes.length = m.nameBytes := by
    rw [slice, List.append_assoc, ← hlength, List.drop_left, List.append_assoc, List.take_left]
  have hcontent : slice (laid m.localNumbers ++ (m.nameBytes ++ (extra ++ m.content)) ++ rest)
      (30 + m.nameBytes.length + 20) m.content.length = m.content := by
    rw [slice, ← List.drop_drop, ← List.drop_drop, List.append_assoc, ← hlength, List.drop_left,
      List.append_assoc, List.drop_left, List.append_assoc, ← hextra, List.drop_left,
      List.take_left]
  rw [List.append_assoc] at hname hcontent ⊢
  refine ⟨field_laid 2 rfl ?_ ?_ _, field_laid 9 rfl ?_ h.nameLength _, field_laid 10 rfl ?_ ?_ _,
    hname, hcontent⟩ <;>
  first
    | simp [placeOf, Member.localNumbers]
    | decide

/-! ## The directory -/

/-- Whether members that stand one behind the other from an offset on fit their fields. -/
def AllFit (offset : Nat) (ms : List Member) : Prop :=
  (∀ m ∈ ms, m.Fits) ∧ offset + (ms.flatMap Member.localRecord).length < byteBound 4

lemma AllFit.tail {ms : List Member} (h : AllFit offset (m :: ms)) :
    AllFit (offset + m.localRecord.length) ms := by
  refine ⟨fun k hk => h.1 k (List.mem_cons_of_mem m hk), ?_⟩
  have := h.2
  rw [List.flatMap_cons, List.length_append] at this
  omega

/-- **The directory is read back.** -/
lemma readDirectory_directory {ms : List Member} (h : AllFit offset ms) {limit : Nat}
    (hlimit : ms.length ≤ limit) :
    readDirectory limit (directory offset ms).length (directory offset ms)
      = .ok (entries offset ms) := by
  induction ms generalizing offset limit with
  | nil => cases limit <;> rfl
  | cons m ms ih =>
    obtain ⟨limit, rfl⟩ : ∃ k, limit = k + 1 :=
      Nat.exists_eq_succ_of_ne_zero (by simp at hlimit; omega)
    have hm := h.1 m List.mem_cons_self
    obtain ⟨hversion, hflags, hmethod, hchecksum, hstored, hsize, hname, hextra, hcomment, hoffset,
      hnameBytes⟩ := hm.field_directoryRecord (Nat.lt_of_le_of_lt (Nat.le_add_right _ _) h.2)
        (directory (offset + m.localRecord.length) ms)
    have hrest : readDirectory limit (directory (offset + m.localRecord.length) ms).length
        (directory (offset + m.localRecord.length) ms)
          = .ok (entries (offset + m.localRecord.length) ms) :=
      ih h.tail (by simpa using hlimit)
    have hlength := length_directoryRecord m offset
    have hsignature : directorySignature.isPrefixOf (directory offset (m :: ms)) = true := rfl
    have hdrop : (directory offset (m :: ms)).drop (46 + m.nameBytes.length)
        = directory (offset + m.localRecord.length) ms := by
      rw [directory, ← hlength, List.drop_left]
    have htotal : (directory offset (m :: ms)).length - (46 + m.nameBytes.length)
        = (directory (offset + m.localRecord.length) ms).length := by
      rw [directory, List.length_append, hlength]
      omega
    have hlong : ¬ (directory offset (m :: ms)).length < 46 ∧
        (directory offset (m :: ms)).length ≠ 0 := by
      rw [directory, List.length_append, hlength]
      omega
    have hversion' : ¬ maxVersion < 20 := by decide
    rw [readDirectory, hsignature]
    rw [directory] at hlong hdrop htotal ⊢
    simp only [hlong, hversion, hflags, hmethod, hchecksum, hstored, hsize, hname, hextra,
      hcomment, hoffset, hnameBytes, hm.decodeName, Nat.add_zero, hdrop, htotal, hrest, if_false,
      hversion']
    rfl

/-! ## Members -/

/-- **The bytes of a member are read back**, if its space reaches as far as they do. -/
lemma Member.Fits.contents_entry (h : m.Fits) {bytes : List UInt8}
    (hbytes : bytes.drop offset = m.localRecord ++ rest) {space : Nat}
    (hspace : offset + m.localRecord.length ≤ space) :
    (m.entry offset).contents bytes 0 space = .ok (.plain m.content) := by
  obtain ⟨hflags, hname, hextra, hnameBytes, hcontent⟩ := h.field_localRecord rest
  have hstart : (((m.entry offset).offset : Int) + 0).toNat? = some offset := rfl
  have hlong : ¬ (m.localRecord ++ rest).length < 30 := by
    rw [List.length_append, length_localRecord]
    omega
  have hsignature : localSignature.isPrefixOf (m.localRecord ++ rest) = true := rfl
  have hflag : ∀ flag, (m.entry offset).hasFlag flag = false := by
    intro flag
    simp [DirectoryEntry.hasFlag, Member.entry]
  have hnear : ¬ space < offset + (30 + m.nameBytes.length + 20) + m.content.length := by
    rw [length_localRecord] at hspace
    omega
  have hfull : (m.entry offset).fullName = m.name.toList ∧ (m.entry offset).offset = offset ∧
      (m.entry offset).storedSize = m.content.length ∧ (m.entry offset).size = m.content.length ∧
      (m.entry offset).checksum = (checksum m.content).toNat := ⟨rfl, rfl, rfl, rfl, rfl⟩
  have hexpand : ∀ stored, (m.entry offset).expand stored = .ok stored := fun _ => rfl
  rw [DirectoryEntry.contents, hstart]
  simp only [hbytes, hflags, hname, hextra, hnameBytes, hlong, hsignature, hflag, h.decodeName,
    hfull, hnear, hcontent, hexpand]
  simp [Contents.plain, bind, Except.bind, pure, Except.pure]

lemma le_spaceEnd {directoryOffset : Nat} {offsets : List Nat} {x : Nat}
    (hdirectory : x ≤ directoryOffset) (h : ∀ o ∈ offsets, offset < o → x ≤ o) :
    x ≤ spaceEnd directoryOffset offsets offset := by
  rw [spaceEnd]
  cases hmin : (offsets.filter (offset < ·)).min? with
  | none => exact hdirectory
  | some o =>
    have hmem := List.mem_filter.1 (List.min?_mem hmin)
    exact h o hmem.1 (by simpa using hmem.2)

lemma le_of_mem_entries {ms : List Member} {o : Nat}
    (h : o ∈ (entries offset ms).map DirectoryEntry.offset) : offset ≤ o := by
  induction ms generalizing offset with
  | nil => simp [entries] at h
  | cons m ms ih =>
    rcases List.mem_cons.1 h with rfl | h
    · exact le_rfl
    · exact (Nat.le_add_right _ _).trans (ih h)

/-- **The members that the directory describes.**  What is known of the records before is that they
start earlier. -/
lemma listMembers_entries {bytes tail : List UInt8} {ms : List Member} (h : ∀ m ∈ ms, m.Fits)
    (hbytes : bytes.drop offset = ms.flatMap Member.localRecord ++ tail) {directoryOffset : Nat}
    (hdirectory : offset + (ms.flatMap Member.localRecord).length ≤ directoryOffset)
    {offsets claimed : List Nat}
    (hoffsets : ∀ o ∈ offsets, o < offset ∨ o ∈ (entries offset ms).map DirectoryEntry.offset)
    (hclaimed : ∀ o ∈ claimed, o < offset) :
    listMembers bytes 0 directoryOffset offsets claimed (entries offset ms)
      = ms.map fun m => (m.name, .ok (.plain m.content)) := by
  induction ms generalizing offset claimed with
  | nil => rfl
  | cons m ms ih =>
    have hm := h m List.mem_cons_self
    have hpos := length_localRecord m
    rw [List.flatMap_cons, List.length_append] at hdirectory
    rw [List.flatMap_cons, List.append_assoc] at hbytes
    have hplace : (m.entry offset).offset = offset := rfl
    have hfresh : claimed.contains offset = false := by
      rw [← Bool.not_eq_true, List.contains_iff_mem]
      exact fun hmem => absurd (hclaimed _ hmem) (lt_irrefl offset)
    have hspace : offset + m.localRecord.length ≤ spaceEnd directoryOffset offsets offset := by
      refine le_spaceEnd (by omega) fun o ho hlt => ?_
      rcases hoffsets o ho with ho | ho
      · omega
      · rcases List.mem_cons.1 ho with ho | ho
        · exact absurd (ho ▸ hlt : offset < (m.entry offset).offset) (lt_irrefl offset)
        · exact le_of_mem_entries ho
    have hrest : bytes.drop (offset + m.localRecord.length)
        = ms.flatMap Member.localRecord ++ tail := by
      rw [← List.drop_drop, hbytes, List.drop_left]
    rw [entries, listMembers, hplace, hfresh, if_neg Bool.false_ne_true, hm.entry_name,
      hm.contents_entry hbytes hspace,
      ih (fun k hk => h k (List.mem_cons_of_mem m hk)) hrest (by omega) ?_ ?_]
    · rfl
    · intro o ho
      rcases hoffsets o ho with ho | ho
      · left; omega
      · rcases List.mem_cons.1 ho with ho | ho
        · left
          rw [ho, hplace]
          omega
        · exact Or.inr ho
    · intro o ho
      rcases List.mem_cons.1 ho with rfl | ho
      · omega
      · have := hclaimed o ho
        omega

/-! ## The end -/

/-- The end record is found where it stands. -/
lemma findEnd?_append (front : List UInt8) (count size offset : Nat) :
    findEnd? (front ++ endRecord count size offset) = some front.length := by
  have hlength : (endRecord count size offset).length = 22 := by
    rw [endRecord_eq, length_laid]
    simp [endNumbers]
  have hsize : (front ++ endRecord count size offset).length - 22 = front.length := by
    rw [List.length_append, hlength]
    omega
  have hsignature : endSignature.isPrefixOf (endRecord count size offset) = true := rfl
  have hcomment : (endRecord count size offset).drop 20 = [0, 0] := rfl
  rw [findEnd?]
  dsimp only
  rw [hsize, List.drop_left, hsignature, hcomment, if_neg (by rw [List.length_append]; omega)]
  rfl

lemma head_slice_mem {chunk front tail : List UInt8} {k count : Nat} {b : UInt8}
    {rest : List UInt8} (hk : k < chunk.length)
    (h : slice (front ++ (chunk ++ tail)) (front.length + k) (count + 1) = b :: rest) :
    b ∈ chunk := by
  rw [slice, ← List.drop_drop, List.drop_left, List.drop_append_of_le_length hk.le,
    List.drop_eq_getElem_cons hk, List.cons_append, List.take_succ_cons] at h
  exact (List.cons.inj h).1 ▸ List.getElem_mem hk

/-- Behind the lengths in a record of the directory stand bytes that begin no locator. -/
lemma slice_ne_locatorSignature (front : List UInt8) {m : Member}
    (hname : 4 ≤ m.nameBytes.length ∧ m.nameBytes.length ≤ 15) (offset : Nat) (tail : List UInt8) :
    slice (front ++ m.directoryRecord offset ++ tail)
      (front.length + (m.directoryRecord offset).length - 20) 4 ≠ locatorSignature := by
  intro h
  have hlaid : front ++ m.directoryRecord offset ++ tail
      = front ++ laid ((m.directoryNumbers offset).take 12)
        ++ ([0, 0, 0, 0, 0, 0, 0, 0, 0, 0, 0x80, 1] ++ (littleEndian 4 offset ++ m.nameBytes
          ++ tail)) := by
    rw [directoryRecord_eq]
    conv_lhs => rw [← List.take_append_drop 12 (m.directoryNumbers offset), laid,
      List.flatMap_append]
    simp only [List.append_assoc]
    rfl
  have hlength : (laid ((m.directoryNumbers offset).take 12)).length = 30 := by
    simp [length_laid, Member.directoryNumbers]
  have hplace : front.length + (m.directoryRecord offset).length - 20
      = (front ++ laid ((m.directoryNumbers offset).take 12)).length
        + (m.nameBytes.length - 4) := by
    rw [List.length_append, hlength, length_directoryRecord]
    omega
  rw [hlaid, hplace] at h
  exact absurd (head_slice_mem (by simp; omega) h) (by decide)

lemma field_append (front rest : List UInt8) (k width : Nat) :
    field (front ++ rest) (front.length + k) width = field rest k width := by
  rw [field, slice, ← List.drop_drop, List.drop_left]
  rfl

lemma directory_append_singleton (ms : List Member) (m : Member) (offset : Nat) :
    directory offset (ms ++ [m]) = directory offset ms
      ++ m.directoryRecord (offset + (ms.flatMap Member.localRecord).length) := by
  induction ms generalizing offset with
  | nil => simp [directory]
  | cons k ms ih =>
    rw [List.cons_append, directory, ih, directory, List.flatMap_cons, List.length_append,
      List.append_assoc, Nat.add_assoc]

lemma length_le_directory (ms : List Member) (offset : Nat) :
    ms.length ≤ (directory offset ms).length := by
  induction ms generalizing offset with
  | nil => exact Nat.zero_le _
  | cons m ms ih =>
    have := ih (offset + m.localRecord.length)
    rw [directory, List.length_append, length_directoryRecord, List.length_cons]
    omega

/-- **The directory is found**, if the last name is neither very short nor long, so that no locator
can be seen in front of the end record. -/
lemma findDirectory?_eq {ms : List Member}
    (hlast : ∀ m ∈ ms.getLast?, 4 ≤ m.nameBytes.length ∧ m.nameBytes.length ≤ 15)
    (hfits : (ms.flatMap Member.localRecord).length + (directory 0 ms).length < byteBound 4) :
    findDirectory? (ms.flatMap Member.localRecord ++ directory 0 ms ++ endRecord ms.length
        (directory 0 ms).length (ms.flatMap Member.localRecord).length)
      = some ⟨(ms.flatMap Member.localRecord).length, (directory 0 ms).length,
          (ms.flatMap Member.localRecord).length⟩ := by
  generalize hrecords : ms.flatMap Member.localRecord = records at hfits
  generalize hindex : directory 0 ms = index at hfits
  have hsize : field (records ++ index ++ endRecord ms.length index.length records.length)
      ((records ++ index).length + 12) 4 = index.length := by
    rw [field_append, endRecord_eq, ← List.append_nil (laid _)]
    exact field_laid 5 rfl (by simp [placeOf, endNumbers]) (by omega) []
  have hoffset : field (records ++ index ++ endRecord ms.length index.length records.length)
      ((records ++ index).length + 16) 4 = records.length := by
    rw [field_append, endRecord_eq, ← List.append_nil (laid _)]
    exact field_laid 6 rfl (by simp [placeOf, endNumbers]) (by omega) []
  have hlocator : (decide ((records ++ index).length < 20)
      || slice (records ++ index ++ endRecord ms.length index.length records.length)
        ((records ++ index).length - 20) 4 != locatorSignature) = true := by
    rcases ms.eq_nil_or_concat with rfl | ⟨init, m, rfl⟩
    · rw [← hrecords, ← hindex]
      rfl
    · have hm := hlast m (by simp)
      have hne := slice_ne_locatorSignature (records ++ directory 0 init) hm
        (0 + (init.flatMap Member.localRecord).length)
        (endRecord (init ++ [m]).length index.length records.length)
      rw [List.concat_eq_append, directory_append_singleton] at hindex
      rw [← List.length_append, List.append_assoc records, hindex] at hne
      rw [List.concat_eq_append, bne_iff_ne.2 hne, Bool.or_true]
  have hplace : directoryPlace? (records ++ index).length index.length records.length
      = some ⟨records.length, index.length, records.length⟩ := by
    rw [directoryPlace?, List.length_append, if_neg (by omega), Nat.add_sub_cancel]
  rw [findDirectory?, findEnd?_append]
  dsimp only [bind, Option.bind]
  rw [hlocator, if_pos rfl, hsize, hoffset, hplace]

/-- The members of an archive are not too large together. -/
lemma sum_content_lt {ms : List Member} {bytes : List UInt8} (h : writeMembers ms = some bytes) :
    (ms.map fun m => m.content.length).sum < byteBound 4 := by
  have hle : (ms.map fun m => m.content.length).sum ≤ (ms.flatMap Member.localRecord).length := by
    rw [List.length_flatMap]
    refine List.sum_le_sum fun m _ => ?_
    have := length_localRecord m
    omega
  rw [writeMembers] at h
  split_ifs at h with hfits
  have := hfits.2.1
  omega

/-- An archive begins with the record of its first member. -/
lemma isPrefixOf_of_writeMembers {ms : List Member} {bytes : List UInt8}
    (h : writeMembers (m :: ms) = some bytes) : localSignature.isPrefixOf bytes = true := by
  rw [writeMembers] at h
  split_ifs at h
  obtain rfl := Option.some.inj h
  rfl

/-- The bytes of a member stand in the archive. -/
lemma mem_of_writeMembers {ms : List Member} {bytes : List UInt8} (h : writeMembers ms = some bytes)
    {m : Member} (hm : m ∈ ms) {b : UInt8} (hb : b ∈ m.content) : b ∈ bytes := by
  rw [writeMembers] at h
  split_ifs at h
  obtain rfl := Option.some.inj h
  exact List.mem_append_left _ (List.mem_append_left _
    (List.mem_flatMap.2 ⟨m, hm, List.mem_append_right _ hb⟩))

/-- **The members of an archive are read back.** -/
theorem readMembers_writeMembers {ms : List Member} {bytes : List UInt8}
    (hnames : ∀ m ∈ ms, ∀ c ∈ m.name.toList, c ≠ Char.ofNat 0 ∧ c.toNat < 128)
    (hlast : ∀ m ∈ ms.getLast?, 4 ≤ m.nameBytes.length ∧ m.nameBytes.length ≤ 15)
    (h : writeMembers ms = some bytes) :
    readMembers bytes = .ok (ms.map fun m => (m.name, .ok (.plain m.content))) := by
  rw [writeMembers] at h
  split_ifs at h with hfits
  obtain rfl := Option.some.inj h
  obtain ⟨-, hsizes, hnameLengths⟩ := hfits
  have hall : AllFit 0 ms := by
    refine ⟨fun m hm => ⟨hnames m hm, hnameLengths m hm, ?_⟩, by omega⟩
    have hlength := length_localRecord m
    have hle : m.localRecord.length ≤ (ms.flatMap Member.localRecord).length := by
      rw [List.length_flatMap]
      exact List.single_le_sum (by simp) _ (List.mem_map_of_mem hm)
    omega
  have hslice : slice (ms.flatMap Member.localRecord ++ directory 0 ms ++ endRecord ms.length
        (directory 0 ms).length (ms.flatMap Member.localRecord).length)
      (ms.flatMap Member.localRecord).length (directory 0 ms).length = directory 0 ms := by
    rw [slice, List.append_assoc, List.drop_left, List.take_left]
  rw [readMembers, findDirectory?_eq hlast hsizes]
  dsimp only [Reading.ofOption, bind, Except.bind]
  rw [hslice, readDirectory_directory hall (length_le_directory ms 0)]
  dsimp only
  rw [sub_self, listMembers_entries hall.1 (List.append_assoc _ _ _) (Nat.zero_add _).le
    (fun o ho => Or.inr ho) (by simp)]
  rfl

end AutomatonShell.Archive
