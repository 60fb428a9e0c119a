import AutomatonShell.Proofs.HeaderScan
import AutomatonShell.Proofs.ListingText

/-!
# Headers are read back

The second half of the way back from a header: its pieces are put together to the table that they
spell, and the three fields of the table give the element type, the order of the elements and the
shape.  The reader is given a limit that grows with the number of pieces, so each lemma says from
which limit on it holds.

* `readValue_shape`, `readValue_header` — the pieces of a shape and of a header, put together.
* `headerLine`, `readLiteral?_headerLine` — a header as it stands in a file, and its table.
* `layoutOfText?_textOf` — a short form is read back.
* **`readHeader_headerLine`** — the header that was written is the header that is read.
-/

namespace AutomatonShell.Archive

/-! ## Values -/

/-- Pieces that do not begin with a sign. -/
def NoSign (lexemes : List Lexeme) : Prop :=
  ∀ c rest, lexemes = .mark c :: rest → c ≠ '+' ∧ c ≠ '-'

lemma noSign_mark {c : Char} (hc : c ≠ '+' ∧ c ≠ '-') (rest : List Lexeme) :
    NoSign (.mark c :: rest) := by
  rintro d tail h
  obtain ⟨h, -⟩ := List.cons.inj h
  exact Lexeme.mark.inj h ▸ hc

variable {limit : Nat} {lexemes rest : List Lexeme}

/-- A value with no sign around it is read as it stands. -/
lemma readValue_of_readAtom {value : Literal} {standing : Standing} (hsign : NoSign lexemes)
    (hrest : NoSign rest) (h : readAtom limit lexemes = some ((value, standing), rest)) :
    readValue (limit + 2) lexemes = some ((value, standing), rest) := by
  have hsigned : readSigned (limit + 1) lexemes = some ((value, standing), rest) := by
    cases lexemes with
    | nil => rw [readSigned, h]; simp
    | cons lexeme tail =>
      cases lexeme with
      | mark c =>
        obtain ⟨hplus, hminus⟩ := hsign c tail rfl
        rw [readSigned, if_pos (by simp [hplus, hminus]), h]
      | _ => rw [readSigned, h]; simp
  rw [readValue, hsigned]
  simp only [bind, Option.bind]
  cases rest with
  | nil => rfl
  | cons lexeme tail =>
    cases lexeme with
    | mark c =>
      obtain ⟨hplus, hminus⟩ := hrest c tail rfl
      simp [hplus, hminus]
    | _ => rfl

/-- A number that is not too long to be read. -/
def IsReadable (n : Nat) : Prop := (Nat.toDigits 10 n).length ≤ maxDecimalDigits

lemma readAtom_number {n : Nat} (h : IsReadable n) (rest : List Lexeme) :
    readAtom (limit + 1) (.number (Nat.toDigits 10 n) (.int n) :: rest)
      = some ((.int n, .plain), rest) := by
  have hlong : tooLong (Nat.toDigits 10 n) (.int n) = false := by
    have hfilter := List.length_filter_le Char.isDigit (Nat.toDigits 10 n)
    have hle : ¬ maxDecimalDigits < ((Nat.toDigits 10 n).filter Char.isDigit).length := by
      unfold IsReadable at h
      omega
    simp only [tooLong, hle, decide_false, Bool.and_false]
  rw [readAtom, hlong]
  rfl

lemma readValue_number {n : Nat} (h : IsReadable n) (hlimit : 3 ≤ limit) (hrest : NoSign rest) :
    readValue limit (.number (Nat.toDigits 10 n) (.int n) :: rest)
      = some ((.int n, .plain), rest) := by
  obtain ⟨limit, rfl⟩ : ∃ k, limit = k + 1 + 2 := ⟨limit - 3, by omega⟩
  exact readValue_of_readAtom (by intro c tail h; cases h) hrest (readAtom_number h rest)

lemma unescape_of_not_mem {body : List Char} (hbackslash : '\\' ∉ body) (hnewline : '\n' ∉ body)
    (hlimit : body.length ≤ limit) : unescape false false false limit body = some body := by
  induction body generalizing limit with
  | nil => cases limit <;> rfl
  | cons c rest ih =>
    simp only [List.mem_cons, not_or] at hbackslash hnewline
    obtain ⟨limit, rfl⟩ : ∃ k, limit = k + 1 :=
      Nat.exists_eq_succ_of_ne_zero (by simp at hlimit; omega)
    rw [unescape, ih hbackslash.2 hnewline.2 (by simpa using hlimit)]
    simp [Ne.symm hbackslash.1, Ne.symm hnewline.1]

lemma readValue_quoted {text : String} (hbackslash : '\\' ∉ text.toList)
    (hnewline : '\n' ∉ text.toList) (hlimit : 3 ≤ limit) {c : Char} (hc : c ≠ '+' ∧ c ≠ '-') :
    readValue limit (quotedPiece text :: .mark c :: rest)
      = some ((.text text.toList, .complete), .mark c :: rest) := by
  obtain ⟨limit, rfl⟩ : ∃ k, limit = k + 1 + 2 := ⟨limit - 3, by omega⟩
  refine readValue_of_readAtom (by intro c tail h; cases h) (noSign_mark hc rest) ?_
  have hcontent : textContent? [] false text.toList = some (.text text.toList) := by
    simp [textContent?, unescape_of_not_mem hbackslash hnewline le_rfl]
  rw [quotedPiece, readAtom, hcontent]
  simp [bind, Option.bind, joinTexts]

lemma readValue_truth (b : Bool) (hlimit : 3 ≤ limit) {c : Char} (hc : c ≠ '+' ∧ c ≠ '-')
    (hopen : c ≠ '(') :
    readValue limit (.word (truthWord b) :: .mark c :: rest)
      = some ((.bool b, .complete), .mark c :: rest) := by
  obtain ⟨limit, rfl⟩ : ∃ k, limit = k + 1 + 2 := ⟨limit - 3, by omega⟩
  refine readValue_of_readAtom (by intro c tail h; cases h) (noSign_mark hc rest) ?_
  rw [readAtom]
  · cases b
    · rfl
    · rfl
  · rintro tail h
    exact hopen (Lexeme.mark.inj (List.cons.inj h).1)

/-! ## Shapes -/

/-- The value of a shape. -/
def shapeValue (shape : List Nat) : Literal := .tuple (shape.map fun n : Nat => .int n)

lemma readItems_number (closing : Char) (n : Nat) (rest : List Lexeme) :
    readItems closing (limit + 1) (.number (Nat.toDigits 10 n) (.int n) :: rest)
      = readItemsFrom closing limit (.number (Nat.toDigits 10 n) (.int n) :: rest) := by
  rw [readItems]
  intro c tail h
  cases h

lemma readItems_sizes {ns : List Nat} (h : ∀ n ∈ ns, IsReadable n)
    (hlimit : 2 * ns.length + 3 ≤ limit) (rest : List Lexeme) :
    readItems ')' limit (sizePieces ns ++ rest) = some (ns.map fun n : Nat => .int n, rest) := by
  fun_induction sizePieces ns generalizing limit with
  | case1 =>
    obtain ⟨limit, rfl⟩ : ∃ k, limit = k + 1 := ⟨limit - 1, by omega⟩
    simp [readItems]
  | case2 n =>
    obtain ⟨limit, rfl⟩ : ∃ k, limit = k + 2 := ⟨limit - 2, by omega⟩
    simp only [List.length_cons, List.length_nil] at hlimit
    rw [List.cons_append, List.cons_append, readItems_number, readItemsFrom,
      readValue_number (h n (by simp)) (by omega) (noSign_mark (by decide) _)]
    rfl
  | case3 n ms _ ih =>
    obtain ⟨limit, rfl⟩ : ∃ k, limit = k + 2 := ⟨limit - 2, by omega⟩
    simp only [List.length_cons] at hlimit
    rw [List.cons_append, List.cons_append, readItems_number, readItemsFrom,
      readValue_number (h n (by simp)) (by omega) (noSign_mark (by decide) _)]
    simp only [bind, Option.bind, if_true, List.map_cons]
    rw [ih (fun m hm => h m (List.mem_cons_of_mem n hm)) (by omega)]

lemma readAtom_tuple {n : Nat} (h : IsReadable n) (hlimit : 3 ≤ limit) (tail : List Lexeme) :
    readAtom (limit + 1)
        (.mark '(' :: .number (Nat.toDigits 10 n) (.int n) :: .mark ',' :: tail)
      = (readItems ')' limit tail).map fun items =>
          ((.tuple (.int n :: items.1), .complete), items.2) := by
  rw [readAtom]
  · rw [readValue_number h hlimit (noSign_mark (by decide) _)]
    simp only [bind, Option.bind]
    cases readItems ')' limit tail <;> rfl
  · intro tail h
    cases h

/-- **The pieces of a shape are read back.** -/
lemma readValue_shape {shape : List Nat} (h : ∀ n ∈ shape, IsReadable n)
    (hlimit : 2 * shape.length + 6 ≤ limit) {c : Char} (hc : c ≠ '+' ∧ c ≠ '-') :
    readValue limit (shapePieces shape ++ .mark c :: rest)
      = some ((shapeValue shape, .complete), .mark c :: rest) := by
  obtain ⟨limit, rfl⟩ : ∃ k, limit = k + 1 + 2 := ⟨limit - 3, by omega⟩
  cases shape with
  | nil =>
    refine readValue_of_readAtom (noSign_mark (by decide) _) (noSign_mark hc rest) ?_
    simp [shapePieces, readAtom, shapeValue]
  | cons n ns =>
    simp only [List.length_cons] at hlimit
    refine readValue_of_readAtom (noSign_mark (by decide) _) (noSign_mark hc rest) ?_
    rw [shapePieces, List.cons_append, List.cons_append, List.cons_append,
      readAtom_tuple (h n List.mem_cons_self) (by omega),
      readItems_sizes (fun m hm => h m (List.mem_cons_of_mem n hm)) (by omega)]
    rfl

/-! ## Tables -/

/-- The table that a header spells. -/
def headerEntries (t : ElementType) (firstIndexFastest : Bool) (shape : List Nat) :
    List (Literal × Literal) :=
  [(.text "descr".toList, .text t.code.toList),
    (.text "fortran_order".toList, .bool firstIndexFastest),
    (.text "shape".toList, shapeValue shape)]

/-- One entry behind the first. -/
lemma readPairs_entry {key value : Literal} {standing standing' : Standing}
    {pieces pieces' : List Lexeme}
    (hkey : readValue limit pieces = some ((key, standing), .mark ':' :: pieces'))
    (hvalue : readValue limit pieces' = some ((value, standing'), rest))
    (hne : ∀ tail, pieces ≠ .mark '\x7d' :: tail) :
    readPairs (limit + 1) (.mark ',' :: pieces)
      = (readPairs limit rest).map fun entries => ((key, value) :: entries.1, entries.2) := by
  rw [readPairs]
  · simp only [hkey, hvalue, bind, Option.bind]
    cases readPairs limit rest <;> rfl
  · exact hne

/-- **The pieces of a header are read back.** -/
lemma readValue_header {t : ElementType} (hbackslash : '\\' ∉ t.code.toList)
    (hnewline : '\n' ∉ t.code.toList) (firstIndexFastest : Bool) {shape : List Nat}
    (h : ∀ n ∈ shape, IsReadable n) (hlimit : 2 * shape.length + 20 ≤ limit) :
    readValue limit (headerPieces t firstIndexFastest shape)
      = some ((.dict (headerEntries t firstIndexFastest shape), .complete),
          [.lineEnd ['\n']]) := by
  have hfield : ∀ text ∈ ["descr", "fortran_order", "shape"],
      '\\' ∉ text.toList ∧ '\n' ∉ text.toList := by decide
  obtain ⟨limit, rfl⟩ : ∃ k, limit = k + 5 + 2 := ⟨limit - 7, by omega⟩
  refine readValue_of_readAtom (noSign_mark (by decide) _) (by rintro c tail h; cases h) ?_
  have hshape : ∀ k, 2 * shape.length + 6 ≤ k → ∀ tail,
      readValue k (shapePieces shape ++ .mark ',' :: tail)
        = some ((shapeValue shape, .complete), .mark ',' :: tail) :=
    fun k hk tail => readValue_shape h hk (by decide)
  simp only [headerPieces, List.cons_append, List.nil_append]
  rw [readAtom]
  · rw [readValue_quoted (hfield _ (by simp)).1 (hfield _ (by simp)).2 (by omega) (by decide)]
    simp only [bind, Option.bind]
    rw [readValue_quoted hbackslash hnewline (by omega) (by decide)]
    simp only
    rw [readPairs_entry
      (readValue_quoted (hfield _ (by simp)).1 (hfield _ (by simp)).2 (by omega) (by decide))
      (readValue_truth firstIndexFastest (by omega) (by decide) (by decide))
      (by rintro tail h; cases h)]
    rw [readPairs_entry
      (readValue_quoted (hfield _ (by simp)).1 (hfield _ (by simp)).2 (by omega) (by decide))
      (hshape _ (by omega) _) (by rintro tail h; cases h)]
    rw [readPairs]
    rfl
  · rintro tail h
    cases h

/-! ## The characters of a header -/

/-- Whether a character is printed in ASCII, be it as a blank. -/
def isPrinted (c : Char) : Bool := 32 ≤ c.toNat && c.toNat < 127

lemma isPrinted_of_isDigit {c : Char} (hc : c.isDigit = true) : isPrinted c = true := by
  simp only [Char.isDigit, Bool.and_eq_true, decide_eq_true_eq, ge_iff_le,
    UInt32.le_iff_toNat_le] at hc
  simp only [Char.reduceVal, UInt32.reduceToNat] at hc
  simp only [isPrinted, Bool.and_eq_true, decide_eq_true_eq]
  rw [Char.toNat]
  omega

lemma mem_toDigits {n : Nat} {c : Char} (h : c ∈ Nat.toDigits 10 n) : c.isDigit = true :=
  Nat.isDigit_of_mem_toDigits (by decide) (by decide) h

/-- The signs and letters that a short form is written with. -/
def codeChars : List Char := "|><USVifucbMmO".toList

lemma mem_code {t : ElementType} {c : Char} (h : c ∈ t.code.toList) :
    c ∈ codeChars ∨ c.isDigit = true := by
  rw [ElementType.code, String.toList_ofList, List.mem_cons, List.mem_cons] at h
  rcases h with rfl | rfl | h
  · left
    split_ifs <;> decide
  · left
    cases t.kind <;> decide
  · exact Or.inr (mem_toDigits h)

lemma not_mem_code {t : ElementType} {c : Char} (hchars : c ∉ codeChars)
    (hdigit : c.isDigit = false) : c ∉ t.code.toList := by
  intro h
  rcases mem_code h with h | h
  · exact hchars h
  · simp [hdigit] at h

lemma isPrinted_shapeText (shape : List Nat) : (shapeText shape).toList.all isPrinted = true := by
  have hdigits : ∀ n : Nat, (toString n).toList.all isPrinted = true := by
    intro n
    have : (toString n).toList = Nat.toDigits 10 n := Nat.toList_repr
    rw [this, List.all_eq_true]
    exact fun c hc => isPrinted_of_isDigit (mem_toDigits hc)
  have hmarks : "(".toList.all isPrinted = true ∧ ",)".toList.all isPrinted = true ∧
      ")".toList.all isPrinted = true ∧ ", ".toList.all isPrinted = true := by decide
  rcases shape with _ | ⟨n, _ | ⟨m, ms⟩⟩
  · rfl
  · simp only [shapeText, String.toList_append, List.all_append, hmarks, hdigits, Bool.and_self]
  · simp only [shapeText, String.toList_append, List.all_append, hmarks, String.toList_intercalate,
      Bool.true_and, Bool.and_true, List.all_eq_true]
    intro c hc
    rcases mem_intercalate hc with hc | ⟨size, hsize, hc⟩
    · exact List.all_eq_true.1 hmarks.2.2.2 c hc
    · simp only [List.mem_map, exists_exists_and_eq_and] at hsize
      obtain ⟨k, -, rfl⟩ := hsize
      exact List.all_eq_true.1 (hdigits k) c hc

lemma isPrinted_headerText (t : ElementType) (firstIndexFastest : Bool) (shape : List Nat) :
    (headerText t firstIndexFastest shape).toList.all isPrinted = true := by
  have hcode : t.code.toList.all isPrinted = true := by
    have hchars : codeChars.all isPrinted = true := by decide
    refine List.all_eq_true.2 fun c hc => ?_
    rcases mem_code hc with hc | hc
    · exact List.all_eq_true.1 hchars c hc
    · exact isPrinted_of_isDigit hc
  have hfields : "\x7b'descr': '".toList.all isPrinted = true ∧
      "', 'fortran_order': ".toList.all isPrinted = true ∧
      ", 'shape': ".toList.all isPrinted = true ∧ ", \x7d".toList.all isPrinted = true := by decide
  have hword : (truthWord firstIndexFastest).all isPrinted = true := by
    cases firstIndexFastest <;> decide
  rw [toList_headerText]
  simp only [List.all_append, hcode, hfields, hword, isPrinted_shapeText, Bool.and_self]

/-! ## The whole header -/

/-- Inside the parentheses of a shape two brackets are open. -/
lemma tooDeep_sizes (ns : List Nat) (rest : List Lexeme) :
    tooDeep 2 (sizePieces ns ++ rest) = tooDeep 1 rest := by
  have hclose : ∀ tail, tooDeep 2 (.mark ')' :: tail) = tooDeep 1 tail := fun tail => rfl
  fun_induction sizePieces ns with
  | case1 => exact hclose rest
  | case2 n => exact hclose rest
  | case3 n ms _ ih =>
    have hcomma : ∀ tail, tooDeep 2 (.mark ',' :: tail) = tooDeep 2 tail := fun tail => rfl
    rw [List.cons_append, List.cons_append, tooDeep, hcomma, ih]
    simp

lemma tooDeep_headerPieces (t : ElementType) (firstIndexFastest : Bool) (shape : List Nat) :
    tooDeep 0 (headerPieces t firstIndexFastest shape) = false := by
  have hshape : ∀ rest, tooDeep 1 (shapePieces shape ++ rest) = tooDeep 1 rest := by
    intro rest
    cases shape with
    | nil => rfl
    | cons n ns => exact tooDeep_sizes ns rest
  have hfields : tooDeep 0 (headerPieces t firstIndexFastest shape)
      = tooDeep 1 (shapePieces shape ++ [.mark ',', .mark '\x7d', .lineEnd ['\n']]) := rfl
  rw [hfields, hshape]
  rfl

/-- A header as it stands in a file: filled up with spaces, and a newline behind it. -/
def headerLine (t : ElementType) (firstIndexFastest : Bool) (shape : List Nat) (blanks : Nat) :
    List Char :=
  (headerText t firstIndexFastest shape).toList ++ List.replicate blanks ' ' ++ ['\n']

lemma mem_headerLine {t : ElementType} {firstIndexFastest : Bool} {shape : List Nat} {blanks : Nat}
    {c : Char} (h : c ∈ headerLine t firstIndexFastest shape blanks) :
    isPrinted c = true ∨ c = '\n' := by
  simp only [headerLine, List.mem_append, List.mem_singleton] at h
  rcases h with (h | h) | h
  · exact Or.inl (List.all_eq_true.1 (isPrinted_headerText t firstIndexFastest shape) c h)
  · rw [List.eq_of_mem_replicate h]
    exact Or.inl rfl
  · exact Or.inr h

lemma not_mem_headerLine {t : ElementType} {firstIndexFastest : Bool} {shape : List Nat}
    {blanks : Nat} {c : Char} (hprinted : isPrinted c = false) (hnewline : c ≠ '\n') :
    c ∉ headerLine t firstIndexFastest shape blanks := by
  intro h
  rcases mem_headerLine h with h | h
  · simp [hprinted] at h
  · exact hnewline h

/-- A header begins with a brace, and only its end is a newline. -/
lemma exists_headerLine_eq (t : ElementType) (firstIndexFastest : Bool) (shape : List Nat)
    (blanks : Nat) : ∃ text,
      headerLine t firstIndexFastest shape blanks = '\x7b' :: text ++ ['\n'] ∧ '\n' ∉ text := by
  obtain ⟨tail, htail⟩ : ∃ tail, (headerText t firstIndexFastest shape).toList = '\x7b' :: tail :=
    ⟨_, toList_headerText t firstIndexFastest shape⟩
  refine ⟨tail ++ List.replicate blanks ' ', by rw [headerLine, htail]; rfl, fun hmem => ?_⟩
  have hprinted := isPrinted_headerText t firstIndexFastest shape
  rw [htail, List.all_eq_true] at hprinted
  rcases List.mem_append.1 hmem with hmem | hmem
  · exact absurd (hprinted _ (List.mem_cons_of_mem _ hmem)) (by decide)
  · exact absurd (List.eq_of_mem_replicate hmem) (by decide)

lemma scan_headerLine (t : ElementType) (firstIndexFastest : Bool) (shape : List Nat)
    (blanks : Nat) : ∃ lexemes, scan (headerLine t firstIndexFastest shape blanks) = .ok lexemes ∧
      meaningful lexemes = headerPieces t firstIndexFastest shape := by
  have hcode : t.code ≠ "" := by
    intro hempty
    simpa [ElementType.code] using congrArg String.toList hempty
  have hscans := Scans.header hcode (not_mem_code (c := '\'') (by decide) rfl)
    (not_mem_code (c := '\\') (by decide) rfl) firstIndexFastest shape blanks
  obtain ⟨text, htext, hnewline⟩ := exists_headerLine_eq t firstIndexFastest shape blanks
  rw [← headerLine, htext] at hscans
  rw [htext]
  exact scan_line hnewline hscans

lemma length_shapePieces (shape : List Nat) : 2 * shape.length ≤ (shapePieces shape).length := by
  have hsizes : ∀ ns : List Nat, 2 * ns.length ≤ (sizePieces ns).length := by
    intro ns
    fun_induction sizePieces ns with
    | case1 => simp
    | case2 n => simp
    | case3 n ms _ ih => simp only [List.length_cons]; omega
  cases shape with
  | nil => simp
  | cons n ns =>
    have := hsizes ns
    simp only [shapePieces, List.length_cons]
    omega

/-- **The table that a header spells.** -/
lemma readLiteral?_headerLine {t : ElementType} (firstIndexFastest : Bool) {shape : List Nat}
    (h : ∀ n ∈ shape, IsReadable n) (blanks : Nat) :
    readLiteral? (headerLine t firstIndexFastest shape blanks)
      = some (.dict (headerEntries t firstIndexFastest shape)) := by
  obtain ⟨lexemes, hscan, hkept⟩ := scan_headerLine t firstIndexFastest shape blanks
  have hnul : (headerLine t firstIndexFastest shape blanks).contains (Char.ofNat 0) = false := by
    rw [← Bool.not_eq_true, List.contains_iff_mem]
    exact not_mem_headerLine (by decide) (by decide)
  have hstart : (headerLine t firstIndexFastest shape blanks).dropWhile
      (fun c => c == ' ' || c == '\t') = headerLine t firstIndexFastest shape blanks := by
    obtain ⟨text, htext, -⟩ := exists_headerLine_eq t firstIndexFastest shape blanks
    rw [htext]
    rfl
  have hlimit :
      2 * shape.length + 20 ≤ 8 * (headerPieces t firstIndexFastest shape).length + 8 := by
    have := length_shapePieces shape
    simp only [headerPieces, List.length_append, List.length_cons, List.length_nil]
    omega
  have hvalue := readValue_header (t := t) (not_mem_code (c := '\\') (by decide) rfl)
    (not_mem_code (c := '\n') (by decide) rfl) firstIndexFastest h hlimit
  rw [readLiteral?, hnul, if_neg Bool.false_ne_true, hstart,
    Text.unifyNewlines_of_not_mem (not_mem_headerLine (by decide) (by decide))]
  dsimp only
  rw [hscan]
  dsimp only
  rw [← meaningful, hkept, tooDeep_headerPieces, if_neg Bool.false_ne_true, hvalue]
  rfl

/-! ## Short forms -/

lemma hasComma_of_not_mem {text : List Char} (hcomma : ',' ∉ text) (depth : Int) :
    hasComma depth text = false := by
  fun_induction hasComma depth text <;> simp_all

/-- Digits with nothing around them are a number. -/
lemma number?_toDigits (n : Nat) : ElementType.number? (Nat.toDigits 10 n) = some n := by
  have hdigits : ∀ c ∈ Nat.toDigits 10 n, c.isDigit = true := fun c hc => mem_toDigits hc
  have hback : Nat.ofDigitChars 10 (Nat.toDigits 10 n) 0 = n := Nat.ofDigitChars_ten_toDigits
  obtain ⟨first, rest, heq⟩ := List.exists_cons_of_ne_nil (Nat.toDigits_ne_nil (b := 10) (n := n))
  rw [heq] at hdigits hback ⊢
  have hfirst := hdigits first List.mem_cons_self
  have hne : ∀ sign : Char, sign.isDigit = false → first ≠ sign := by
    rintro sign hsign rfl
    simp [hfirst] at hsign
  have hblank : (first == ' ' || (9 ≤ first.toNat && first.toNat ≤ 13)) = false := by
    have hprinted := isPrinted_of_isDigit hfirst
    simp only [isPrinted, Bool.and_eq_true, decide_eq_true_eq] at hprinted
    simp [hne ' ' rfl]
    omega
  rw [ElementType.number?, List.dropWhile_cons_of_neg (by rw [hblank]; exact Bool.false_ne_true)]
  split
  next digits h =>
    split at h
    next h' => exact absurd (List.cons.inj h').1 (hne '-' rfl)
    next h' => exact absurd (List.cons.inj h').1 (hne '+' rfl)
    next =>
      obtain ⟨rfl, rfl⟩ := Prod.mk.inj h
      simp only [List.isEmpty_cons, List.all_eq_true.2 hdigits, Bool.not_true, Bool.or_self,
        hback, Bool.false_and]
      rfl

/-- The type of texts is read back from its short form, if its elements are not too wide. -/
lemma layoutOfText?_textOf {length : Nat} (h : 4 * length ≤ ElementType.maxWidth) :
    layoutOfText? (ElementType.textOf length).code.toList
      = some { type := .textOf length } := by
  have hcode : (ElementType.textOf length).code.toList = '<' :: 'U' :: Nat.toDigits 10 length := by
    show (String.ofList ('<' :: 'U' :: Nat.toDigits 10 (4 * length / 4))).toList = _
    rw [Nat.mul_div_cancel_left length (by decide), String.toList_ofList]
  have hcomma : ',' ∉ 'U' :: Nat.toDigits 10 length := by
    simp only [List.mem_cons, not_or]
    exact ⟨by decide, fun hmem => absurd (mem_toDigits hmem) (by decide)⟩
  have hlist : isFormatList ('<' :: 'U' :: Nat.toDigits 10 length) = false := by
    show (true && (false || hasComma 0 ('U' :: Nat.toDigits 10 length))) = false
    rw [hasComma_of_not_mem hcomma]
    rfl
  have hletters : ElementType.ofLetters? false ('U' :: Nat.toDigits 10 length)
      = some (.textOf length) := by
    rw [ElementType.ofLetters?, number?_toDigits]
    · show (if 4 * length ≤ ElementType.maxWidth then _ else _) = _
      rw [if_pos h]
      rfl
    · exact Nat.toDigits_ne_nil
  have hof : ElementType.ofCode? (String.ofList ('<' :: 'U' :: Nat.toDigits 10 length))
      = some (.textOf length) := by
    rw [ElementType.ofCode?, String.toList_ofList]
    exact hletters
  rw [hcode, layoutOfText?, hlist, if_neg Bool.false_ne_true, hof]
  rfl

lemma layoutOfText?_int64 :
    layoutOfText? ElementType.int64.code.toList = some { type := .int64 } := by decide

/-! ## Fields -/

lemma fault?_headerEntries (t : ElementType) (firstIndexFastest : Bool) (shape : List Nat) :
    (Literal.dict (headerEntries t firstIndexFastest shape)).fault? = none := by
  have hsizes : ∀ ns : List Nat,
      Literal.misusedItem? (ns.map fun n : Nat => .int n) = none := by
    intro ns
    induction ns with
    | nil => rfl
    | cons n rest ih =>
      rw [List.map_cons, Literal.misusedItem?, ih]
      rfl
  simp [Literal.fault?, headerEntries, shapeValue, Literal.misusedKind?, Literal.misusedEntry?,
    Literal.changeable?, hsizes]

lemma shapeSizes_shapeValue (shape : List Nat) :
    shapeSizes (shapeValue shape) = .ok (shape.map Nat.cast) := by
  have hmap : (shape.map fun n : Nat => Literal.int n).mapM Literal.int?
      = some (shape.map Nat.cast) := by
    rw [List.mapM_map]
    induction shape with
    | nil => rfl
    | cons n rest ih => rw [List.mapM_cons, Function.comp_apply, ih]; rfl
  rw [shapeValue, shapeSizes, hmap]
  rfl

lemma valueOf?_cons (key : List Char) (value : Literal) (rest : List (Literal × Literal))
    (name : String) : valueOf? ((.text key, value) :: rest) name
      = (valueOf? rest name).or (if key = name.toList then some value else none) := by
  rw [valueOf?, List.reverse_cons, List.findSome?_append, ← valueOf?, List.findSome?_singleton]

/-- **The header that was written is the header that is read.** -/
theorem readHeader_headerLine {t : ElementType}
    (hcode : layoutOfText? t.code.toList = some { type := t }) (firstIndexFastest : Bool)
    {shape : List Nat} (h : ∀ n ∈ shape, IsReadable n) (blanks : Nat) (old : Bool) :
    readHeader old (headerLine t firstIndexFastest shape blanks)
      = .ok { layout := { type := t }, firstIndexFastest, sizes := shape.map Nat.cast } := by
  have hvalue : headerValue old (headerLine t firstIndexFastest shape blanks)
      = .ok (.dict (headerEntries t firstIndexFastest shape)) := by
    rw [headerValue, readLiteral?_headerLine firstIndexFastest h]
    dsimp only [bind, Except.bind]
    rw [fault?_headerEntries]
    rfl
  have hkeys : ((headerEntries t firstIndexFastest shape).map Prod.fst).all isFieldName = true := by
    show [Literal.text "descr".toList, .text "fortran_order".toList, .text "shape".toList].all
      isFieldName = true
    decide
  have hne : "descr".toList ≠ "fortran_order".toList ∧ "descr".toList ≠ "shape".toList ∧
      "fortran_order".toList ≠ "shape".toList := by decide
  have hdescr : valueOf? (headerEntries t firstIndexFastest shape) "descr"
      = some (.text t.code.toList) := by
    rw [headerEntries, valueOf?_cons, valueOf?_cons, valueOf?_cons, if_pos rfl,
      if_neg hne.1.symm, if_neg hne.2.1.symm]
    rfl
  have horder : valueOf? (headerEntries t firstIndexFastest shape) "fortran_order"
      = some (.bool firstIndexFastest) := by
    rw [headerEntries, valueOf?_cons, valueOf?_cons, valueOf?_cons, if_pos rfl, if_neg hne.2.2.symm]
    rfl
  have hshape : valueOf? (headerEntries t firstIndexFastest shape) "shape"
      = some (shapeValue shape) := by
    rw [headerEntries, valueOf?_cons, valueOf?_cons, valueOf?_cons, if_pos rfl]
    rfl
  rw [readHeader, hvalue]
  simp only [bind, Except.bind, hkeys, hdescr, horder, hshape, shapeSizes_shapeValue,
    describedLayout, hcode]
  rfl
end AutomatonShell.Archive
