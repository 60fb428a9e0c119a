import AutomatonShell.Proofs.SpelledPaths

/-!
# The names of compiled automata

Two parts of a configuration look at the name of a file.  COMPILE asks a pattern whether it may
write the file, and LOAD asks a list of endings whether the file is a snapshot or a script.  A
snapshot that is taken for a script is not restored, so it matters that every name the pattern
allows has one of the endings (`NamesAgree`).  The default settings are of this kind.

The pattern looks at the name as it is written and the endings at the name in lower case.  In a name
that the default pattern allows, all characters are ASCII, where lower case goes character by
character (`lowerFrom_of_ascii`).  Its end anchor also stands in front of a final newline, which no
ending has; a newline is a blank, and there is none in a word of a command.

* `Pattern.mem_ends_word`, `Pattern.exists_of_mem_repeatEnds` — what words and repetitions read.
* `Pattern.archiveNames_accepts` — the names that the default pattern allows.
* **`Config.namesAgree_standard`** — all of them have a default ending.
* `locate_archiveName` — such a name leads directly into the working directory.
-/

namespace AutomatonShell

/-! ## Patterns -/

namespace Pattern

variable {total limit : Nat} {text rest : List Char}

lemma mem_ends_seq {p q : Pattern} :
    rest ∈ (seq p q).ends total text ↔ ∃ between ∈ p.ends total text, rest ∈ q.ends total between :=
  List.mem_flatMap

lemma mem_ends_char {set : CharSet} (h : rest ∈ (char set).ends total text) :
    ∃ c, set.mem c = true ∧ text = c :: rest := by
  cases text with
  | nil => simp [ends] at h
  | cons c tail =>
    rw [ends] at h
    split_ifs at h with hc
    · exact ⟨c, hc, by rw [List.mem_singleton.1 h]⟩
    · simp at h

/-- What a repetition reads consists of what its steps read. -/
lemma exists_of_mem_repeatEnds {step : List Char → List (List Char)} {P : Char → Prop}
    (hstep : ∀ text, ∀ rest ∈ step text, ∃ front, (∀ c ∈ front, P c) ∧ text = front ++ rest)
    (h : rest ∈ repeatEnds step limit text) :
    ∃ front, (∀ c ∈ front, P c) ∧ text = front ++ rest := by
  induction limit generalizing text with
  | zero => exact ⟨[], by simp, by rw [List.mem_singleton.1 h]; rfl⟩
  | succ limit ih =>
    rcases List.mem_cons.1 h with rfl | hmem
    · exact ⟨[], by simp, rfl⟩
    · obtain ⟨between, hbetween, hrest⟩ := List.mem_flatMap.1 hmem
      obtain ⟨first, hfirst, rfl⟩ := hstep _ _ (List.mem_filter.1 hbetween).1
      obtain ⟨front, hfront, rfl⟩ := ih hrest
      exact ⟨first ++ front, List.forall_mem_append.2 ⟨hfirst, hfront⟩, by simp⟩

lemma exists_of_mem_ends_plus {set : CharSet} (h : rest ∈ (plus (char set)).ends total text) :
    ∃ front, front ≠ [] ∧ (∀ c ∈ front, set.mem c = true) ∧ text = front ++ rest := by
  rw [ends] at h
  obtain ⟨between, hbetween, hrest⟩ := List.mem_flatMap.1 h
  obtain ⟨c, hc, rfl⟩ := mem_ends_char hbetween
  have hstep : ∀ text, ∀ rest ∈ (char set).ends total text,
      ∃ front, (∀ d ∈ front, set.mem d = true) ∧ text = front ++ rest := by
    intro text rest hmem
    obtain ⟨d, hd, rfl⟩ := mem_ends_char hmem
    exact ⟨[d], by simpa using hd, rfl⟩
  obtain ⟨front, hfront, rfl⟩ := exists_of_mem_repeatEnds hstep hrest
  exact ⟨c :: front, by simp, List.forall_mem_cons.2 ⟨hc, hfront⟩, rfl⟩

/-- A word reads its letters. -/
lemma mem_ends_word {letters : List Char} (h : rest ∈ (word letters).ends total text) :
    text = letters ++ rest := by
  induction letters generalizing text with
  | nil => exact (List.mem_singleton.1 h).symm
  | cons c letters ih =>
    have hletter : ∀ {between}, between ∈ (char (.literal c)).ends total text →
        text = c :: between := by
      intro between hbetween
      obtain ⟨d, hd, rfl⟩ := mem_ends_char hbetween
      rw [show d = c by simpa [CharSet.mem] using hd]
    cases letters with
    | nil => exact hletter h
    | cons d letters =>
      obtain ⟨between, hbetween, h⟩ := mem_ends_seq.1 h
      rw [hletter hbetween, ih h]
      rfl

/-- What stands in front of the ending in a name that the default pattern allows. -/
def stemChars : CharSet :=
  .ranges false [('A', 'Z'), ('a', 'z'), ('0', '9'), ('.', '.'), ('_', '_'), ('-', '-')]

/-- **The names that the default pattern allows**: some of its characters, an ending, and perhaps a
newline. -/
lemma archiveNames_accepts {name : String} (h : archiveNames.accepts name = true) :
    ∃ stem ending, (∀ c ∈ stem, stemChars.mem c = true) ∧
      (ending = ['.', 'f', 's', 'm'] ∨ ending = ['.', 'b', 'i', 'n']) ∧
      (name.toList = stem ++ ending ∨ name.toList = stem ++ ending ++ ['\n']) := by
  rw [accepts, Bool.not_eq_true', ← Bool.not_eq_true, List.isEmpty_iff] at h
  obtain ⟨rest, hrest⟩ := List.exists_mem_of_ne_nil _ h
  obtain ⟨start, hstart, hfromStart⟩ := mem_ends_seq.1 hrest
  obtain ⟨afterStem, hstem, hfromDot⟩ := mem_ends_seq.1 hfromStart
  obtain ⟨afterDot, hdot, hfromEnding⟩ := mem_ends_seq.1 hfromDot
  obtain ⟨afterEnding, hending, hfromEnd⟩ := mem_ends_seq.1 hfromEnding
  have hstart : start = name.toList := by
    rw [ends, if_pos rfl] at hstart
    exact List.mem_singleton.1 hstart
  have hend : afterEnding = [] ∨ afterEnding = ['\n'] := by
    by_contra hne
    simp [seqAll, ends, hne] at hfromEnd
  obtain ⟨stem, -, hchars, hname⟩ := exists_of_mem_ends_plus hstem
  obtain ⟨dot, hmem, rfl⟩ := mem_ends_char hdot
  obtain rfl : dot = '.' := by simpa [CharSet.mem] using hmem
  rw [hstart] at hname
  have hafter : ∀ {letters : List Char}, afterEnding ∈ (word letters).ends name.toList.length
      afterDot → name.toList = stem ++ '.' :: letters ∨
        name.toList = stem ++ '.' :: letters ++ ['\n'] := by
    intro letters hletters
    rw [hname, mem_ends_word hletters]
    rcases hend with rfl | rfl <;> simp
  rcases List.mem_append.1 hending with hending | hending
  · exact ⟨stem, _, hchars, Or.inl rfl, hafter hending⟩
  · exact ⟨stem, _, hchars, Or.inr rfl, hafter hending⟩

lemma stemChars_mem {c : Char} (h : stemChars.mem c = true) : c.toNat < 128 ∧ c ≠ '/' := by
  have hcases : ('A' ≤ c ∧ c ≤ 'Z') ∨ ('a' ≤ c ∧ c ≤ 'z') ∨ ('0' ≤ c ∧ c ≤ '9') ∨
      ('.' ≤ c ∧ c ≤ '.') ∨ ('_' ≤ c ∧ c ≤ '_') ∨ ('-' ≤ c ∧ c ≤ '-') := by
    simpa [stemChars, CharSet.mem] using h
  have hle : c ≤ 'z' := by
    rcases hcases with h | h | h | h | h | h <;> exact h.2.trans (by decide)
  have hslash : c ≠ '/' := by
    rintro rfl
    exact absurd hcases (by decide)
  exact ⟨Nat.lt_of_le_of_lt (show c.toNat ≤ 122 from hle) (by decide), hslash⟩

end Pattern

/-! ## Lower case -/

namespace Text

lemma lowerChar_eq_self {c : Char} (hupper : c.isUpper = false) (hascii : c.toNat < 128) :
    lowerChar c = c := by
  rw [lowerChar, if_neg (by simp [hupper]), if_pos hascii]

/-- The lower case of ASCII goes character by character. -/
lemma lowerFrom_of_ascii {text : List Char} (h : ∀ c ∈ text, c.toNat < 128) (before : List Char) :
    lowerFrom before text = text.map lowerChar := by
  induction text generalizing before with
  | nil => rfl
  | cons c rest ih =>
    rw [List.forall_mem_cons] at h
    have hsigma : c ≠ 'Σ' := by
      rintro rfl
      exact absurd h.1 (by decide)
    have hdotted : c ≠ 'İ' := by
      rintro rfl
      exact absurd h.1 (by decide)
    rw [lowerFrom, if_neg hsigma, if_neg hdotted, ih h.2]
    rfl

end Text

/-! ## Configurations -/

/-- **The pattern and the endings agree**: every name without blanks that COMPILE may write is that
of a snapshot to LOAD. -/
def Config.NamesAgree (c : Config) : Prop :=
  ∀ name : String, (∀ ch ∈ name.toList, Text.isBlank ch = false) →
    c.isCompileTarget name = true → c.isBinary name = true

/-- A name without blanks that the default pattern allows. -/
lemma exists_stem_of_isCompileTarget {name : String}
    (hblank : ∀ ch ∈ name.toList, Text.isBlank ch = false)
    (h : Config.standard.isCompileTarget name = true) :
    ∃ stem ending, (∀ c ∈ stem, Pattern.stemChars.mem c = true) ∧
      (ending = ['.', 'f', 's', 'm'] ∨ ending = ['.', 'b', 'i', 'n']) ∧
      name.toList = stem ++ ending := by
  obtain ⟨stem, ending, hstem, hending, hname | hname⟩ := Pattern.archiveNames_accepts h
  · exact ⟨stem, ending, hstem, hending, hname⟩
  · have hnewline : '\n' ∈ name.toList := by simp [hname]
    exact absurd (hblank '\n' hnewline) (by decide)

/-- **The default settings agree on the names of snapshots.** -/
theorem Config.namesAgree_standard : Config.standard.NamesAgree := by
  intro name hblank h
  obtain ⟨stem, ending, hstem, hending, hname⟩ := exists_stem_of_isCompileTarget hblank h
  have hascii : ∀ c ∈ stem ++ ending, c.toNat < 128 := by
    refine List.forall_mem_append.2 ⟨fun c hc => (Pattern.stemChars_mem (hstem c hc)).1, ?_⟩
    rcases hending with rfl | rfl <;> simp
  have hlower : ending.map Text.lowerChar = ending := by
    rcases hending with rfl | rfl <;> simp [Text.lowerChar_eq_self]
  have hsuffix : ending <:+ (Text.lower name).toList := by
    rw [Text.lower, String.toList_ofList, hname, Text.lowerFrom_of_ascii hascii, List.map_append,
      hlower]
    exact List.suffix_append _ _
  refine List.any_eq_true.2 ⟨String.ofList ending, ?_, ?_⟩
  · rcases hending with rfl | rfl <;> decide
  · rw [String.toList_ofList]
    exact List.isSuffixOf_iff_suffix.2 hsuffix

lemma namesOf_of_not_mem {name : String} (hempty : name ≠ "") (hslash : '/' ∉ name.toList) :
    Path.namesOf name = [name] := by
  rw [Path.namesOf, List.splitOn_eq_singleton hslash]
  simp [hempty]

/-- A name without slashes is a path of its own. -/
lemma toString_ofString_of_not_mem {name : String} (hempty : name ≠ "") (hdot : name ≠ ".")
    (hslash : '/' ∉ name.toList) : (Path.ofString name).toString = name := by
  have hroot : Path.rootOf name = .relative := by
    have htake : name.toList.takeWhile (· == '/') = [] := by
      rw [List.takeWhile_eq_nil_iff]
      intro hlength h
      exact hslash (by simpa using beq_iff_eq.1 h ▸ List.getElem_mem hlength)
    rw [Path.rootOf, htake]
    rfl
  simp [Path.ofString, namesOf_of_not_mem hempty hslash, hroot, Path.toString, hdot]

/-- **A name that the default pattern allows leads directly into the working directory**, if it
leads anywhere. -/
lemma locate_archiveName {w : Workspace} {name : String} {place : Location}
    (hblank : ∀ ch ∈ name.toList, Text.isBlank ch = false)
    (h : Config.standard.isCompileTarget name = true)
    (hplace : w.locate (Config.standard.resolve name).toString = .ok place) :
    place = w.home ++ [name] := by
  obtain ⟨stem, ending, hstem, hending, hname⟩ := exists_stem_of_isCompileTarget hblank h
  have hslash : '/' ∉ name.toList := by
    rw [hname]
    refine List.not_mem_append (fun hmem => (Pattern.stemChars_mem (hstem _ hmem)).2 rfl) ?_
    rcases hending with rfl | rfl <;> decide
  have hlength : 4 ≤ name.toList.length := by
    rw [hname, List.length_append]
    rcases hending with rfl | rfl <;> exact Nat.le_add_left _ _
  have hshort : ∀ other : String, other.toList.length < 4 → name ≠ other := by
    rintro other hother rfl
    omega
  have hempty : name ≠ "" := hshort "" (by decide)
  have hdot : name ≠ "." := hshort "." (by decide)
  have hdots : name ≠ ".." := hshort ".." (by decide)
  have hresolve : (Config.standard.resolve name).toString = name :=
    toString_ofString_of_not_mem hempty hdot hslash
  have hstart : w.startOf name = w.home := by
    rw [Workspace.startOf, if_neg]
    exact fun h => hslash (List.mem_of_head? h)
  rw [hresolve] at hplace
  obtain ⟨-, -, -, hdescend⟩ := Workspace.locate_eq_ok.1 hplace
  rw [hstart, namesOf_of_not_mem hempty hslash] at hdescend
  rw [Workspace.descend_eq_ok hdescend]
  simp [Location.follow, Location.step, hdot, hdots]

end AutomatonShell
