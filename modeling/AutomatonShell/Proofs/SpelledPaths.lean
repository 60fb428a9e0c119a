import AutomatonShell.Proofs.ListingText
import AutomatonShell.Proofs.LogContents

/-!
# The plain spelling of a path

Whether a snapshot is there is asked in another spelling than the one it is read by: the path is
taken apart and put together again, which drops empty names, dots and slashes at the end.  The plain
spelling is made of characters of the path, in their order, so a path that is not too long does not
become too long; and where the path leads somewhere, dots on the way do not matter.

* `Path.keptNames`, `Path.spelled` — the names that stay, and names with slashes between them.
* `Path.toList_toString_ofString` — the plain spelling, character by character.
* `Path.toString_ofString_sublist`, `Path.namesOf_toString_ofString` — it is no longer, and it is
  read back.
* **`Workspace.locate_toString_ofString`** — it leads to the same place.
-/

namespace AutomatonShell

namespace Path

/-! ## Names -/

/-- The names of a text that stay in its plain spelling. -/
def keptNames (text : List Char) : List (List Char) :=
  (text.splitOn '/').filter fun name => name ≠ [] ∧ name ≠ ['.']

/-- Some slashes, and names with slashes between them. -/
def spelled (slashes : Nat) (names : List (List Char)) : List Char :=
  List.replicate slashes '/' ++ ['/'].intercalate names

lemma names_ofString (text : String) :
    (ofString text).names = (keptNames text.toList).map String.ofList := by
  have hdot : ∀ name : List Char, (String.ofList name != ".") = (name ≠ ['.'] : Bool) := by
    intro name
    have : String.ofList name = "." ↔ name = ['.'] := by
      rw [← String.toList_inj, String.toList_ofList]
      rfl
    by_cases h : name = ['.'] <;> simp [this, h]
  show (namesOf text).filter (· != ".") = _
  rw [namesOf, List.filter_map, List.filter_filter, keptNames]
  congr 1
  refine List.filter_congr fun name _ => ?_
  rw [Function.comp_apply, hdot]
  cases name <;> simp

lemma splitOn_slash_cons (text : List Char) :
    ('/' :: text).splitOn '/' = [] :: text.splitOn '/' :=
  List.splitOn_append_cons_self_of_not_mem List.not_mem_nil text

lemma keptNames_slashes (slashes : Nat) (text : List Char) :
    keptNames (List.replicate slashes '/' ++ text) = keptNames text := by
  induction slashes with
  | zero => rfl
  | succ slashes ih =>
    rw [List.replicate_succ, List.cons_append, keptNames, splitOn_slash_cons,
      List.filter_cons_of_neg (by simp)]
    exact ih

lemma not_mem_keptNames {text name : List Char} (h : name ∈ keptNames text) :
    name ≠ [] ∧ name ≠ ['.'] ∧ '/' ∉ name := by
  obtain ⟨hmem, hkept⟩ := List.mem_filter.1 h
  have hkept := of_decide_eq_true hkept
  exact ⟨hkept.1, hkept.2, not_mem_of_mem_splitOn hmem⟩

/-- Names that are kept are read back from what they spell. -/
lemma namesOf_spelled (slashes : Nat) {names : List (List Char)}
    (h : ∀ name ∈ names, name ≠ [] ∧ '/' ∉ name) :
    namesOf (String.ofList (spelled slashes names)) = names.map String.ofList := by
  have hnames : (((['/'].intercalate names).splitOn '/').filter fun name => !name.isEmpty)
      = names := by
    by_cases hnil : names = []
    · rw [hnil]
      rfl
    · rw [List.splitOn_intercalate '/' (fun name hname => (h name hname).2) hnil]
      refine List.filter_eq_self.2 fun name hname => ?_
      simpa using (h name hname).1
  have hslashes : ∀ text : List Char,
      ((List.replicate slashes '/' ++ text).splitOn '/').filter (fun name => !name.isEmpty)
        = (text.splitOn '/').filter fun name => !name.isEmpty := by
    intro text
    induction slashes with
    | zero => rfl
    | succ slashes ih =>
      rw [List.replicate_succ, List.cons_append, splitOn_slash_cons,
        List.filter_cons_of_neg (by simp)]
      exact ih
  rw [namesOf, String.toList_ofList, spelled, hslashes, hnames]

/-! ## Spelling -/

/-- Names with slashes between them begin and end with other characters than slashes. -/
lemma intercalate_ends {names : List (List Char)} (hne : names ≠ [])
    (h : ∀ name ∈ names, name ≠ [] ∧ '/' ∉ name) :
    (∃ c, (['/'].intercalate names).head? = some c ∧ c ≠ '/') ∧
      ∃ c, (['/'].intercalate names).getLast? = some c ∧ c ≠ '/' := by
  induction names with
  | nil => contradiction
  | cons name rest ih =>
    obtain ⟨hname, hslash⟩ := h name List.mem_cons_self
    have hhead : ∃ c, name.head? = some c ∧ c ≠ '/' :=
      ⟨name.head hname, List.head?_eq_some_head hname, fun he => hslash (he ▸ List.head_mem hname)⟩
    cases rest with
    | nil =>
      rw [List.intercalate_singleton]
      exact ⟨hhead, name.getLast hname, List.getLast?_eq_some_getLast hname,
        fun he => hslash (he ▸ List.getLast_mem hname)⟩
    | cons next rest =>
      obtain ⟨-, c, hc, hcslash⟩ := ih (by simp) fun k hk => h k (List.mem_cons_of_mem name hk)
      rw [List.intercalate_cons_cons]
      refine ⟨?_, c, ?_, hcslash⟩
      · obtain ⟨d, hd, hdslash⟩ := hhead
        exact ⟨d, by simp [hd], hdslash⟩
      · rw [List.getLast?_append, hc]
        rfl

lemma keptNames_ends {text : List Char} (hne : keptNames text ≠ []) :
    (∃ c, (['/'].intercalate (keptNames text)).head? = some c ∧ c ≠ '/') ∧
      ∃ c, (['/'].intercalate (keptNames text)).getLast? = some c ∧ c ≠ '/' :=
  intercalate_ends hne fun _ hname => ⟨(not_mem_keptNames hname).1, (not_mem_keptNames hname).2.2⟩

lemma intercalate_filter_sublist (p : List Char → Bool) (names : List (List Char)) :
    (['/'].intercalate (names.filter p)).Sublist (['/'].intercalate names) := by
  induction names with
  | nil => exact List.Sublist.refl _
  | cons name rest ih =>
    cases rest with
    | nil =>
      by_cases hp : p name
      · rw [List.filter_cons_of_pos hp]; exact List.Sublist.refl _
      · rw [List.filter_cons_of_neg hp]; exact List.nil_sublist _
    | cons next rest =>
      rw [List.intercalate_cons_cons]
      by_cases hp : p name
      · rw [List.filter_cons_of_pos hp]
        generalize (next :: rest).filter p = kept at ih
        cases kept with
        | nil => simp
        | cons k kept =>
          rw [List.intercalate_cons_cons]
          exact ih.append_left _
      · rw [List.filter_cons_of_neg hp]
        exact ih.trans (List.sublist_append_right _ _)

/-- A text begins with some slashes. -/
lemma exists_slashes (text : List Char) : ∃ slashes rest,
    text = List.replicate slashes '/' ++ rest ∧ rest.head? ≠ some '/' ∧
      (text.takeWhile (· == '/')).length = slashes := by
  refine ⟨(text.takeWhile (· == '/')).length, text.dropWhile (· == '/'), ?_, ?_, rfl⟩
  · have hall : text.takeWhile (· == '/')
        = List.replicate (text.takeWhile (· == '/')).length '/' := by
      refine List.eq_replicate_iff.2 ⟨rfl, fun c hc => ?_⟩
      simpa using List.mem_takeWhile_imp hc
    rw [← hall, List.takeWhile_append_dropWhile]
  · intro h
    have := List.head?_dropWhile_not (· == '/') text
    rw [h] at this
    simp at this

lemma toList_toString (path : String) : (ofString path).toString.toList = match rootOf path with
    | .relative => if (keptNames path.toList).isEmpty then ['.']
        else ['/'].intercalate (keptNames path.toList)
    | .single => '/' :: ['/'].intercalate (keptNames path.toList)
    | .double => '/' :: '/' :: ['/'].intercalate (keptNames path.toList) := by
  have hroot : (ofString path).root = rootOf path := rfl
  have hbody : (String.intercalate "/" (ofString path).names).toList
      = ['/'].intercalate (keptNames path.toList) := by
    rw [String.toList_intercalate, names_ofString, List.map_map]
    congr 1
    conv_rhs => rw [← List.map_id (keptNames path.toList)]
    exact List.map_congr_left fun name _ => String.toList_ofList
  rw [toString, hroot]
  cases rootOf path with
  | relative =>
    have hempty : (ofString path).names.isEmpty = (keptNames path.toList).isEmpty := by
      rw [names_ofString, List.isEmpty_map]
    dsimp only
    rw [hempty]
    split_ifs
    · rfl
    · exact hbody
  | single => rw [String.toList_append, hbody]; rfl
  | double => rw [String.toList_append, hbody]; rfl

/-- **The plain spelling of a path**: a dot, for a relative path without other names, or the names
that are kept behind no slash, one slash or two. -/
lemma toList_toString_ofString (path : String) : ∃ slashes rest,
    path.toList = List.replicate slashes '/' ++ rest ∧ rest.head? ≠ some '/' ∧
      ((slashes = 0 ∧ keptNames path.toList = [] ∧ (ofString path).toString.toList = ['.']) ∨
        ∃ kept ≤ slashes, (kept = 0 ↔ slashes = 0) ∧ (slashes = 0 → keptNames path.toList ≠ []) ∧
          (ofString path).toString.toList = spelled kept (keptNames path.toList)) := by
  obtain ⟨slashes, rest, htext, hrest, hlength⟩ := exists_slashes path.toList
  refine ⟨slashes, rest, htext, hrest, ?_⟩
  have hspelled := toList_toString path
  rw [rootOf, hlength] at hspelled
  rcases slashes with _ | _ | _ | n
  · by_cases hnil : keptNames path.toList = []
    · exact Or.inl ⟨rfl, hnil, by rw [hspelled, hnil]; rfl⟩
    · refine Or.inr ⟨0, le_rfl, Iff.rfl, fun _ => hnil, ?_⟩
      simpa [hnil, spelled] using hspelled
  · exact Or.inr ⟨1, le_rfl, Iff.rfl, by omega, hspelled⟩
  · exact Or.inr ⟨2, le_rfl, Iff.rfl, by omega, hspelled⟩
  · exact Or.inr ⟨1, by omega, by omega, by omega, hspelled⟩

lemma toString_ofString_ne (path : String) : (ofString path).toString ≠ "" := by
  intro hempty
  obtain ⟨slashes, rest, -, -, ⟨-, -, hspelled⟩ | ⟨kept, -, hiff, hnames, hspelled⟩⟩ :=
    toList_toString_ofString path
  · rw [hempty] at hspelled
    exact absurd hspelled (by decide)
  · rw [hempty] at hspelled
    obtain ⟨hkept, hbody⟩ := List.append_eq_nil_iff.1 (hspelled.symm : spelled kept _ = [])
    obtain ⟨⟨c, hc, -⟩, -⟩ := keptNames_ends (hnames (hiff.1 (by simpa using hkept)))
    rw [hbody] at hc
    cases hc

/-- A character of a path stands in a name, if it is no slash. -/
lemma exists_name_of_mem {text : List Char} {c : Char} (hc : c ∈ text) (hslash : c ≠ '/') :
    ∃ name ∈ text.splitOn '/', c ∈ name := by
  have hjoin : ['/'].intercalate (text.splitOn '/') = text := List.intercalate_splitOn _
  rw [← hjoin] at hc
  exact (mem_intercalate hc).resolve_left fun h => hslash (List.mem_singleton.1 h)

/-- What a path holds besides slashes and dots, its spelling holds as well. -/
lemma mem_toString_ofString {path : String} {c : Char} (hc : c ∈ path.toList) (hslash : c ≠ '/')
    (hdot : c ≠ '.') : c ∈ (ofString path).toString.toList := by
  -- the character stands in a name that is neither empty nor a dot
  obtain ⟨name, hname, hmem⟩ := exists_name_of_mem hc hslash
  have hkept : name ∈ keptNames path.toList := by
    refine List.mem_filter.2 ⟨hname, decide_eq_true ⟨List.ne_nil_of_mem hmem, ?_⟩⟩
    rintro rfl
    exact hdot (List.mem_singleton.1 hmem)
  obtain ⟨slashes, rest, -, -, ⟨-, hnil, -⟩ | ⟨kept, -, -, -, hspelled⟩⟩ :=
    toList_toString_ofString path
  · rw [hnil] at hkept
    cases hkept
  · rw [hspelled]
    exact List.mem_append_right _ ((infix_of_mem_intercalate hkept).subset hmem)

/-- **The plain spelling of a text is no longer than the text.** -/
lemma toString_ofString_sublist {path : String} (hne : path ≠ "") :
    (ofString path).toString.toList.Sublist path.toList := by
  obtain ⟨slashes, rest, htext, hrest, ⟨rfl, hnil, hspelled⟩ | ⟨kept, hle, -, -, hspelled⟩⟩ :=
    toList_toString_ofString path
  · -- the first name is not empty, so it is a dot
    rw [List.replicate_zero, List.nil_append] at htext
    rw [hspelled, List.singleton_sublist]
    obtain ⟨c, tail, hcons⟩ := List.exists_cons_of_ne_nil
      (fun h => hne (String.toList_eq_nil_iff.1 h) : path.toList ≠ [])
    have hslash : c ≠ '/' := by
      rintro rfl
      rw [← htext, hcons] at hrest
      exact hrest rfl
    obtain ⟨name, hname, hmem⟩ := exists_name_of_mem (hcons ▸ List.mem_cons_self) hslash
    have hdot : name = ['.'] := by
      have hkept := List.filter_eq_nil_iff.1 hnil name hname
      simpa [List.ne_nil_of_mem hmem] using hkept
    rw [hdot, List.mem_singleton] at hmem
    rw [hcons, hmem]
    exact List.mem_cons_self
  · rw [hspelled, htext, spelled]
    have hsame : keptNames (List.replicate slashes '/' ++ rest) = keptNames rest :=
      keptNames_slashes slashes rest
    rw [hsame]
    refine List.Sublist.append ((List.replicate_sublist_replicate '/').2 hle) ?_
    have hsublist := intercalate_filter_sublist (fun name => name ≠ [] ∧ name ≠ ['.'])
      (rest.splitOn '/')
    rwa [List.intercalate_splitOn] at hsublist

/-- The plain spelling of a text begins at the root if the text does. -/
lemma head?_toString_ofString (path : String) :
    (ofString path).toString.toList.head? = some '/' ↔ path.toList.head? = some '/' := by
  obtain ⟨slashes, rest, htext, hrest, ⟨rfl, -, hspelled⟩ | ⟨kept, -, hiff, -, hspelled⟩⟩ :=
    toList_toString_ofString path
  · rw [hspelled, htext, List.replicate_zero, List.nil_append]
    exact ⟨fun h => absurd h (by decide), fun h => absurd h hrest⟩
  · rw [hspelled, htext]
    rcases slashes with _ | slashes
    · have hzero := hiff.2 rfl
      subst hzero
      rw [spelled, List.replicate_zero, List.nil_append, List.nil_append]
      refine iff_of_false (fun h => ?_) hrest
      by_cases hnil : keptNames rest = []
      · rw [hnil] at h
        exact absurd h (by decide)
      · obtain ⟨⟨c, hc, hslash⟩, -⟩ := keptNames_ends hnil
        rw [hc] at h
        exact hslash (Option.some.inj h)
    · obtain ⟨kept, rfl⟩ := Nat.exists_eq_succ_of_ne_zero (mt hiff.1 (by omega))
      exact iff_of_true rfl rfl

/-- **The names of a plain spelling** are those of the text without dots, or a single dot. -/
lemma namesOf_toString_ofString (path : String) :
    namesOf (ofString path).toString = (ofString path).names ∨
      ((ofString path).names = [] ∧ path.toList.head? ≠ some '/' ∧
        namesOf (ofString path).toString = ["."]) := by
  rw [names_ofString]
  obtain ⟨slashes, rest, htext, hrest, ⟨rfl, hnil, hspelled⟩ | ⟨kept, -, -, -, hspelled⟩⟩ :=
    toList_toString_ofString path
  · refine Or.inr ⟨by rw [hnil]; rfl, by rwa [htext], ?_⟩
    rw [← String.ofList_toList (s := (ofString path).toString), hspelled]
    decide
  · refine Or.inl ?_
    rw [← String.ofList_toList (s := (ofString path).toString), hspelled]
    exact namesOf_spelled kept fun name hname =>
      ⟨(not_mem_keptNames hname).1, (not_mem_keptNames hname).2.2⟩

end Path

lemma utf8ByteSize_ofList (text : List Char) :
    (String.ofList text).utf8ByteSize = (text.map Char.utf8Size).sum := by
  induction text with
  | nil => rfl
  | cons c rest ih =>
    rw [String.ofList_cons, String.utf8ByteSize_append, ih, String.utf8ByteSize_singleton]
    rfl

lemma utf8ByteSize_le_of_sublist {text text' : String} (h : text.toList.Sublist text'.toList) :
    text.utf8ByteSize ≤ text'.utf8ByteSize := by
  have hle := (h.map Char.utf8Size).sum_le_sum fun n _ => Nat.zero_le n
  rwa [← utf8ByteSize_ofList, ← utf8ByteSize_ofList, String.ofList_toList, String.ofList_toList]
    at hle

namespace Workspace

variable {w : Workspace} {path : String} {place : Location}

/-- A path that leads somewhere has been looked up. -/
lemma locate_eq_ok : w.locate path = .ok place ↔
    Char.ofNat 0 ∉ path.toList ∧ path ≠ "" ∧ path.utf8ByteSize ≤ maxPathBytes ∧
      w.descend (w.startOf path) (Path.namesOf path) = .ok place := by
  rw [locate, startOf]
  split_ifs with hnul hempty hlong <;> simp_all

lemma descend_filter {names : List String} {here : Location}
    (h : w.descend here names = .ok place) :
    w.descend here (names.filter (· != ".")) = .ok place := by
  induction names generalizing here with
  | nil => exact h
  | cons name rest ih =>
    rw [descend] at h
    split_ifs at h with hfolder hlong
    by_cases hdot : name = "."
    · subst hdot
      rw [List.filter_cons_of_neg (by simp)]
      exact ih h
    · rw [List.filter_cons_of_pos (by simpa using hdot), descend, if_pos hfolder, if_neg hlong]
      exact ih h

/-- **A path leads to the same place in its plain spelling.** -/
theorem locate_toString_ofString (h : w.locate path = .ok place) :
    w.locate (Path.ofString path).toString = .ok place := by
  obtain ⟨hnul, hempty, hlong, hdescend⟩ := locate_eq_ok.1 h
  have hsublist := Path.toString_ofString_sublist hempty
  have hstart : w.startOf (Path.ofString path).toString = w.startOf path := by
    rw [startOf, startOf]
    simp only [Path.head?_toString_ofString]
  refine locate_eq_ok.2 ⟨fun hmem => hnul (hsublist.subset hmem), Path.toString_ofString_ne path,
    (utf8ByteSize_le_of_sublist hsublist).trans hlong, ?_⟩
  have hfiltered : w.descend (w.startOf path) (Path.ofString path).names = .ok place :=
    descend_filter hdescend
  rw [hstart]
  rcases Path.namesOf_toString_ofString path with heq | ⟨hnil, hrelative, heq⟩
  · rw [heq]
    exact hfiltered
  · have hhome : w.isFolder w.home = true := by
      rw [isFolder, List.isPrefixOf_iff_prefix.2 List.prefix_rfl, Bool.true_or]
    rw [hnil, startOf, if_neg hrelative] at hfiltered
    obtain rfl := Except.ok.inj hfiltered
    rw [heq, startOf, if_neg hrelative, descend, if_pos hhome]
    rfl

/-- A file that a path leads to is found by the plain spelling of the path: this means a folder only
if it is nothing but slashes, and these lead to the root. -/
lemma pathExists_toString_ofString (h : w.locate path = .ok place)
    (hfile : (w.get? place).isSome = true) :
    w.pathExists (Path.ofString path).toString = .ok true := by
  have hlocate := locate_toString_ofString h
  have hplain : meansFolder (Path.ofString path).toString = true → w.isFolder place = true := by
    intro hmeans
    have hlast : (Path.ofString path).toString.toList.getLast? = some '/' := by
      simpa [meansFolder] using hmeans
    obtain ⟨slashes, rest, -, -, ⟨-, -, hspelled⟩ | ⟨kept, -, hiff, hnames, hspelled⟩⟩ :=
      Path.toList_toString_ofString path
    · rw [hspelled] at hlast
      exact absurd hlast (by decide)
    · rw [hspelled, Path.spelled] at hlast
      by_cases hnil : Path.keptNames path.toList = []
      · obtain ⟨-, -, -, hdescend⟩ := locate_eq_ok.1 hlocate
        have hroot : w.startOf (Path.ofString path).toString = [] := by
          obtain ⟨kept, rfl⟩ := Nat.exists_eq_succ_of_ne_zero
            (fun h => hnames (hiff.1 h) hnil : kept ≠ 0)
          rw [startOf, hspelled]
          exact if_pos rfl
        have hnone : Path.namesOf (Path.ofString path).toString = [] := by
          rw [← String.ofList_toList (s := (Path.ofString path).toString), hspelled, hnil]
          exact Path.namesOf_spelled kept (by simp)
        rw [hroot, hnone] at hdescend
        obtain rfl := Except.ok.inj hdescend
        rfl
      · obtain ⟨-, c, hc, hslash⟩ := Path.keptNames_ends hnil
        rw [List.getLast?_append, hc] at hlast
        exact absurd (Option.some.inj hlast) hslash
  rw [pathExists, hlocate]
  cases hmeans : meansFolder (Path.ofString path).toString with
  | false => simp [hfile]
  | true => simp [hplain hmeans]

end Workspace

end AutomatonShell
