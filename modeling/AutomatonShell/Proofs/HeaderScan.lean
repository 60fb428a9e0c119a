import AutomatonShell.Archive.Header
import Mathlib

/-!
# Cutting up a header that was written

The header of an array file is written in one way and may be read in many.  This is the first half
of the way back: the line that is written, cut into its pieces.  Every piece is recognised by what
it begins with, so there is one lemma for each kind of piece, and it holds whatever stands behind
it (`Scans.mark`, `Scans.quoted`, `Scans.number`, `Scans.truth`, `Scans.gap`).  The pieces of a
whole header are these lemmas one after the other (`Scans.header`).

* `Scans` — what the rest of a line is cut into.
* `sizePieces`, `headerPieces` — the pieces of a shape and of a header.
* **`Scans.header`** — a header is cut into its pieces.
-/

namespace AutomatonShell.Archive

/-- The pieces that mean something to a value. -/
def meaningful (lexemes : List Lexeme) : List Lexeme := lexemes.filter fun l => !l.isBlank

/-- **What the rest of a line is cut into**, blanks left out, and what is known behind it.  Where
the line stands makes no difference. -/
def Scans (s : ScanState) (text : List Char) (kept : List Lexeme) (s' : ScanState) : Prop :=
  ∀ line length limit, text.length ≤ limit →
    ∃ lexemes, scanRest line length limit s text = (lexemes, s') ∧ meaningful lexemes = kept

lemma Scans.nil (s : ScanState) : Scans s [] [] s := by
  intro line length limit _
  exact ⟨[], by cases limit <;> rfl, rfl⟩

/-- One piece, and what follows it.  There is a step for every character, so there is one for the
first. -/
lemma Scans.of_piece {s s' t : ScanState} {c : Char} {text rest : List Char} (lexeme : Lexeme)
    {kept : List Lexeme} (hrest : rest.length ≤ text.length)
    (hpiece : ∀ line length limit, scanRest line length (limit + 1) s (c :: text)
      = (lexeme :: (scanRest line length limit t rest).1, (scanRest line length limit t rest).2))
    (h : Scans t rest kept s') : Scans s (c :: text) (meaningful [lexeme] ++ kept) s' := by
  intro line length limit hlimit
  obtain ⟨limit, rfl⟩ : ∃ k, limit = k + 1 :=
    Nat.exists_eq_succ_of_ne_zero (by simp at hlimit; omega)
  obtain ⟨lexemes, hscan, hkept⟩ := h line length limit (by simp at hlimit; omega)
  refine ⟨lexeme :: lexemes, by rw [hpiece, hscan], ?_⟩
  rw [← hkept, meaningful, meaningful, meaningful, ← List.filter_append, List.singleton_append]

/-! ## Beginnings -/

/-- A character that begins neither blanks, a comment, the end of a line nor a joined line. -/
structure IsOrdinary (c : Char) : Prop where
  gap : isGap c = false
  comment : c ≠ '#'
  newline : c ≠ '\n'
  carriageReturn : c ≠ '\r'
  backslash : c ≠ '\\'

lemma lineEnd?_of_ne {c : Char} (hnewline : c ≠ '\n') (hreturn : c ≠ '\r') (rest : List Char) :
    lineEnd? (c :: rest) = none := by
  unfold lineEnd?
  split <;> simp_all

/-- A text, a number, dots, a word or a mark: what an ordinary character begins. -/
lemma scanRest_of_isOrdinary {c : Char} (hc : IsOrdinary c) (line length limit : Nat)
    (s : ScanState) (rest : List Char) :
    scanRest line length (limit + 1) s (c :: rest)
      = match scanText? line (length - (c :: rest).length) (c :: rest) with
        | some (.inl (lexeme, rest)) =>
          let (lexemes, s) := scanRest line length limit s rest
          (lexeme :: lexemes, s)
        | some (.inr pending) => ([], { s with pending := some pending })
        | none =>
          match readNumber? (c :: rest) with
          | some (written, value, rest) =>
            let (lexemes, s) := scanRest line length limit s rest
            (.number written value :: lexemes, s)
          | none =>
            if ['.', '.', '.'].isPrefixOf (c :: rest) then
              let (lexemes, s) := scanRest line length limit s (rest.drop 2)
              (.dots :: lexemes, s)
            else if isWordChar c then
              let (lexemes, s) := scanRest line length limit s ((c :: rest).dropWhile isWordChar)
              (.word ((c :: rest).takeWhile isWordChar) :: lexemes, s)
            else
              let (lexemes, s) :=
                scanRest line length limit { s with level := s.level + bracketStep c } rest
              (.mark c :: lexemes, s) := by
  have hstep := scanRest.eq_def line length (limit + 1) s (c :: rest)
  simp only [hc.gap, Bool.false_eq_true, if_false, beq_iff_eq, hc.comment,
    lineEnd?_of_ne hc.newline hc.carriageReturn, hc.backslash] at hstep
  exact hstep

/-- A text begins with a quote, or with one of four letters. -/
lemma openText?_of_ne {c : Char} (hquote : c ≠ '\'' ∧ c ≠ '"')
    (hletter : c.toLower ∉ ['b', 'r', 'u', 'f']) (rest : List Char) :
    openText? (c :: rest) = none := by
  have hstyles : ∀ style ∈ textStyles, ∀ x ∈ style.head?, x ∈ ['b', 'r', 'u', 'f'] := by
    simp [textStyles]
  rw [openText?, List.findSome?_eq_none_iff]
  intro style hstyle
  cases style with
  | nil => simp [hquote.1, hquote.2]
  | cons x xs =>
    have hx : c.toLower ≠ x := fun he => hletter (he ▸ hstyles _ hstyle x rfl)
    split
    · simp [hx]
    · rfl

lemma readNumber?_of_ne {c : Char} (hdigit : c.isDigit = false) (hdot : c ≠ '.') (hline : c ≠ '_')
    (rest : List Char) : readNumber? (c :: rest) = none := by
  have hrun : decimalRun (c :: rest) = ([], c :: rest) := by
    simp [decimalRun, digitRun, hdigit, hline]
  rw [readNumber?, hrun]
  dsimp only
  split
  · next h => simp_all
  · rfl

/-! ## Pieces -/

variable {s s' : ScanState} {rest : List Char} {kept : List Lexeme}

/-- The marks that a header is written with. -/
def headerMarks : List Char := ['\x7b', '\x7d', '(', ')', ':', ',']

lemma Scans.mark {c : Char} (hc : c ∈ headerMarks)
    (h : Scans { s with level := s.level + bracketStep c } rest kept s') :
    Scans s (c :: rest) (.mark c :: kept) s' := by
  obtain ⟨⟨hgap, hcomment, hnewline, hreturn, hbackslash⟩, hquote, hletter, hdigit, hdot, hline,
      hword⟩ : (isGap c = false ∧ c ≠ '#' ∧ c ≠ '\n' ∧ c ≠ '\r' ∧ c ≠ '\\') ∧
      (c ≠ '\'' ∧ c ≠ '"') ∧ c.toLower ∉ ['b', 'r', 'u', 'f'] ∧ c.isDigit = false ∧ c ≠ '.' ∧
      c ≠ '_' ∧ isWordChar c = false := by
    simp only [headerMarks, List.mem_cons, List.not_mem_nil, or_false] at hc
    rcases hc with rfl | rfl | rfl | rfl | rfl | rfl <;> decide
  refine Scans.of_piece (.mark c) le_rfl (fun line length limit => ?_) h
  have hdots : ['.', '.', '.'].isPrefixOf (c :: rest) = false := by
    simp [List.isPrefixOf, Ne.symm hdot]
  rw [scanRest_of_isOrdinary ⟨hgap, hcomment, hnewline, hreturn, hbackslash⟩, scanText?,
    openText?_of_ne hquote hletter, readNumber?_of_ne hdigit hdot hline]
  simp only [bind, Option.bind, hdots, Bool.false_eq_true, if_false, hword]

/-- A mark that opens and closes nothing. -/
lemma Scans.separator {c : Char} (hc : c ∈ [':', ',']) (h : Scans s rest kept s') :
    Scans s (c :: rest) (.mark c :: kept) s' := by
  refine Scans.mark ?_ ?_
  · simp only [List.mem_cons, List.not_mem_nil, or_false] at hc
    rcases hc with rfl | rfl <;> decide
  · have hstep : bracketStep c = 0 := by
      simp only [List.mem_cons, List.not_mem_nil, or_false] at hc
      rcases hc with rfl | rfl <;> rfl
    rwa [hstep, Int.add_zero]

/-- Blanks mean nothing. -/
lemma Scans.gap (blanks : List Char) (hblanks : ∀ c ∈ blanks, isGap c = true)
    (hrest : ∀ c ∈ rest.head?, isGap c = false) (h : Scans s rest kept s') :
    Scans s (blanks ++ rest) kept s' := by
  cases blanks with
  | nil => exact h
  | cons c blanks =>
    have hc : isGap c = true := hblanks c List.mem_cons_self
    have htake : rest.takeWhile isGap = [] ∧ rest.dropWhile isGap = rest := by
      cases rest with
      | nil => exact ⟨rfl, rfl⟩
      | cons d _ =>
        have hd : ¬ isGap d = true := by simpa using hrest d rfl
        exact ⟨List.takeWhile_cons_of_neg hd, List.dropWhile_cons_of_neg hd⟩
    have hwritten : (c :: (blanks ++ rest)).takeWhile isGap = c :: blanks := by
      rw [← List.cons_append, List.takeWhile_append_of_pos hblanks, htake.1, List.append_nil]
    have hbehind : (c :: (blanks ++ rest)).dropWhile isGap = rest := by
      rw [← List.cons_append, List.dropWhile_append_of_pos hblanks, htake.2]
    rw [List.cons_append]
    refine Scans.of_piece (.gap (c :: blanks)) (by simp) (fun line length limit => ?_) h
    rw [scanRest]
    simp only [hc, if_true, hwritten, hbehind]

/-- What stands between quotes is read up to the closing one. -/
lemma closeText?_of_not_mem {body : List Char} (hquote : '\'' ∉ body) (hbackslash : '\\' ∉ body)
    (rest : List Char) : closeText? '\'' false (body ++ '\'' :: rest) = some (body, rest) := by
  induction body with
  | nil => cases rest <;> simp [closeText?]
  | cons c body ih =>
    simp only [List.mem_cons, not_or] at hquote hbackslash
    obtain ⟨d, tail, htail⟩ : ∃ d tail, body ++ '\'' :: rest = d :: tail :=
      List.exists_cons_of_ne_nil (by simp)
    rw [List.cons_append, htail, closeText?, ← htail, ih hquote.2 hbackslash.2]
    simp [Ne.symm hbackslash.1, Ne.symm hquote.1]

lemma Scans.quoted {body : List Char} (hne : body ≠ []) (hquote : '\'' ∉ body)
    (hbackslash : '\\' ∉ body) (h : Scans s rest kept s') :
    Scans s ('\'' :: (body ++ '\'' :: rest)) (.text [] '\'' false body :: kept) s' := by
  obtain ⟨c, tail, rfl⟩ := List.exists_cons_of_ne_nil hne
  have hc : c ≠ '\'' := fun he => hquote (he ▸ List.mem_cons_self)
  have hopen : ∀ text, openText? ('\'' :: text) = some ([], '\'', text) :=
    fun _ => rfl
  refine Scans.of_piece (.text [] '\'' false (c :: tail)) (by simp; omega)
    (fun line length limit => ?_) h
  rw [scanRest_of_isOrdinary ⟨by decide, by decide, by decide, by decide, by decide⟩, scanText?,
    hopen]
  have htripled : (((c :: tail) ++ '\'' :: rest).take 2 == ['\'', '\'']) = false := by
    simp [hc]
  simp only [bind, Option.bind, htripled, Bool.false_eq_true, if_false,
    closeText?_of_not_mem hquote hbackslash]

/-! ## Numbers -/

lemma not_isDigit_of_mem {c : Char} (hc : c ∈ [',', ')']) : c.isDigit = false := by
  simp only [List.mem_cons, List.not_mem_nil, or_false] at hc
  rcases hc with rfl | rfl <;> rfl

lemma digitRun_append {isDigit : Char → Bool} {digits : List Char}
    (hdigits : ∀ d ∈ digits, isDigit d = true) {c : Char} (hc : isDigit c = false) (hline : c ≠ '_')
    (rest : List Char) : digitRun isDigit (digits ++ c :: rest) = (digits, c :: rest) := by
  induction digits with
  | nil => simp [digitRun, hc, hline]
  | cons d digits ih =>
    obtain ⟨hd, hdigits⟩ := List.forall_mem_cons.1 hdigits
    rw [List.cons_append, digitRun, ih hdigits]
    simp [hd]

/-- Digits stand for the number that they were made from. -/
lemma digitsValue_toDigits (n : Nat) : digitsValue 10 (Nat.toDigits 10 n) = n := by
  have hdigits : ∀ d ∈ Nat.toDigits 10 n, d.isDigit = true :=
    fun d hd => Nat.isDigit_of_mem_toDigits (by decide) (by decide) hd
  have hkept : (Nat.toDigits 10 n).filter (· != '_') = Nat.toDigits 10 n := by
    refine List.filter_eq_self.2 fun d hd => ?_
    have : d ≠ '_' := fun he => absurd (hdigits d hd) (by rw [he]; decide)
    simpa using this
  have hfold : ∀ (digits : List Char), (∀ d ∈ digits, d.isDigit = true) → ∀ start,
      digits.foldl (fun n c => 10 * n + digitValue c) start = Nat.ofDigitChars 10 digits start := by
    intro digits
    induction digits with
    | nil => exact fun _ _ => rfl
    | cons d digits ih =>
      intro h start
      obtain ⟨hd, h⟩ := List.forall_mem_cons.1 h
      rw [List.foldl_cons, ih h, Nat.ofDigitChars_cons, digitValue, if_pos hd]
      rfl
  rw [digitsValue, hkept, hfold _ hdigits, Nat.ofDigitChars_ten_toDigits]

/-- Only zero is written with a zero in front. -/
lemma head?_toDigits {n : Nat} (h : (Nat.toDigits 10 n).head? = some '0') : n = 0 := by
  induction n using Nat.strong_induction_on with
  | _ n ih =>
    by_cases hn : n < 10
    · rw [Nat.toDigits_of_lt_base hn] at h
      interval_cases n <;> first | rfl | exact absurd h (by decide)
    · rw [Nat.toDigits_of_base_le (by decide) (by omega),
        List.head?_append_of_ne_nil _ Nat.toDigits_ne_nil] at h
      have := ih (n / 10) (by omega) h
      omega

/-- A number whose first digit has no letter of a base behind it is in decimal digits. -/
lemma basedNumber?_eq_none {text : List Char} (h : ∀ x ∈ text.head?, baseOf? x = none) (d : Char) :
    basedNumber? (d :: text) = none := by
  unfold basedNumber?
  split
  · next letter tail he =>
    obtain ⟨-, rfl⟩ := List.cons.inj he
    simp [h letter rfl]
  · rfl

/-- **A number in decimal digits is read back**, if a comma or a parenthesis follows. -/
lemma readNumber?_toDigits (n : Nat) {c : Char} (hc : c ∈ [',', ')']) (rest : List Char) :
    readNumber? (Nat.toDigits 10 n ++ c :: rest)
      = some (Nat.toDigits 10 n, .int n, c :: rest) := by
  have hdigits : ∀ d ∈ Nat.toDigits 10 n, d.isDigit = true :=
    fun d hd => Nat.isDigit_of_mem_toDigits (by decide) (by decide) hd
  have hvalue := digitsValue_toDigits n
  have hzero := @head?_toDigits n
  have hzeros : n = 0 → Nat.toDigits 10 n = ['0'] := fun h => by rw [h]; rfl
  obtain ⟨d, digits, hwritten⟩ :=
    List.exists_cons_of_ne_nil (Nat.toDigits_ne_nil (b := 10) (n := n))
  rw [hwritten] at hdigits hvalue hzero hzeros ⊢
  obtain ⟨hd, -⟩ := List.forall_mem_cons.1 hdigits
  have hline : d ≠ '_' := fun he => absurd hd (by rw [he]; decide)
  obtain ⟨hcdot, hcline, hce, hcE, hcj, hcJ, hczero, hcbase⟩ : c ≠ '.' ∧ c ≠ '_' ∧ c ≠ 'e' ∧
      c ≠ 'E' ∧ c ≠ 'j' ∧ c ≠ 'J' ∧ c ≠ '0' ∧ baseOf? c = none := by
    simp only [List.mem_cons, List.not_mem_nil, or_false] at hc
    rcases hc with rfl | rfl <;> decide
  have hrun : decimalRun (d :: digits ++ c :: rest) = (d :: digits, c :: rest) := by
    rw [decimalRun, if_neg (by simpa using hline)]
    exact digitRun_append hdigits (not_isDigit_of_mem hc) hcline rest
  have hexponent : exponentPart (c :: rest) = ([], c :: rest) := by
    simp [exponentPart, hce, hcE]
  have hbased : basedNumber? (d :: digits ++ c :: rest) = none := by
    have hletter : ∀ x ∈ (digits ++ c :: rest).head?, baseOf? x = none := by
      intro x hx
      cases digits with
      | nil => exact (Option.some.inj hx) ▸ hcbase
      | cons x' digits =>
        obtain rfl : x' = x := Option.some.inj hx
        have hx' : x'.isDigit = true := hdigits x' (by simp)
        unfold baseOf?
        split <;> first | rfl | exact absurd hx' (by decide)
    exact basedNumber?_eq_none hletter d
  rw [readNumber?, hrun]
  dsimp only
  split
  · next he => simp_all
  · simp only [List.isEmpty_cons, Bool.false_and, Bool.false_eq_true, if_false, hexponent,
      List.append_nil, ne_eq, not_true_eq_false, hbased]
    split
    · next he => simp_all
    · next he => simp_all
    · split_ifs with hhead
      · obtain rfl := hzero hhead
        obtain ⟨rfl, rfl⟩ := List.cons.inj (hzeros rfl)
        simp [digitRun, hczero, hcline]
      · simp [hvalue]

/-- No digit is one of the letters that a text begins with. -/
lemma openText?_of_isDigit {c : Char} (hc : c.isDigit = true) (rest : List Char) :
    openText? (c :: rest) = none := by
  have hlower : c.toLower = c := by
    refine Char.toLower_eq_of_not_isUpper ?_
    simp only [Char.isDigit, Char.isUpper, Bool.and_eq_true, decide_eq_true_eq,
      UInt32.le_iff_toNat_le] at hc ⊢
    simp only [Char.reduceVal, UInt32.reduceToNat] at hc ⊢
    omega
  refine openText?_of_ne ⟨?_, ?_⟩ ?_ rest
  · rintro rfl
    exact absurd hc (by decide)
  · rintro rfl
    exact absurd hc (by decide)
  · rw [hlower]
    intro hmem
    simp only [List.mem_cons, List.not_mem_nil, or_false] at hmem
    rcases hmem with rfl | rfl | rfl | rfl <;> exact absurd hc (by decide)

lemma Scans.number (n : Nat) {c : Char} (hc : c ∈ [',', ')'])
    (h : Scans s (c :: rest) kept s') :
    Scans s (Nat.toDigits 10 n ++ c :: rest) (.number (Nat.toDigits 10 n) (.int n) :: kept)
      s' := by
  have hread := readNumber?_toDigits n hc rest
  have hdigits : ∀ d ∈ Nat.toDigits 10 n, d.isDigit = true :=
    fun d hd => Nat.isDigit_of_mem_toDigits (by decide) (by decide) hd
  obtain ⟨d, digits, hwritten⟩ :=
    List.exists_cons_of_ne_nil (Nat.toDigits_ne_nil (b := 10) (n := n))
  rw [hwritten] at hread hdigits ⊢
  have hd : d.isDigit = true := hdigits d List.mem_cons_self
  have hordinary : IsOrdinary d := by
    constructor
    · cases hgap : isGap d with
      | false => rfl
      | true =>
        simp only [isGap, Bool.or_eq_true, beq_iff_eq] at hgap
        rcases hgap with (rfl | rfl) | rfl <;> exact absurd hd (by decide)
    all_goals
      rintro rfl
      exact absurd hd (by decide)
  rw [List.cons_append] at hread ⊢
  refine Scans.of_piece (.number (d :: digits) (.int n)) (by simp)
    (fun line length limit => ?_) h
  rw [scanRest_of_isOrdinary hordinary, scanText?, openText?_of_isDigit hd, hread]
  rfl

/-! ## Words and the end of the line -/

/-- The word of a truth value. -/
def truthWord (b : Bool) : List Char := (if b then "True" else "False").toList

lemma Scans.truth (b : Bool) (h : Scans s (',' :: rest) kept s') :
    Scans s (truthWord b ++ ',' :: rest) (.word (truthWord b) :: kept) s' := by
  obtain ⟨c, word, hword, hordinary, hdigit, hdot, hline, hopen, hchars⟩ :
      ∃ c word, truthWord b = c :: word ∧ IsOrdinary c ∧ c.isDigit = false ∧ c ≠ '.' ∧ c ≠ '_' ∧
        openText? (c :: (word ++ ',' :: rest)) = none ∧ ∀ d ∈ c :: word, isWordChar d = true := by
    cases b
    · exact ⟨'F', "alse".toList, rfl, ⟨by decide, by decide, by decide, by decide, by decide⟩,
        by decide, by decide, by decide, rfl, by simp [isWordChar]⟩
    · exact ⟨'T', "rue".toList, rfl, ⟨by decide, by decide, by decide, by decide, by decide⟩,
        by decide, by decide, by decide, openText?_of_ne (by decide) (by decide) _,
        by simp [isWordChar]⟩
  have hcomma : isWordChar ',' = false := by decide
  have hwritten : (c :: (word ++ ',' :: rest)).takeWhile isWordChar = c :: word := by
    rw [← List.cons_append, List.takeWhile_append_of_pos hchars,
      List.takeWhile_cons_of_neg (by simp [hcomma]), List.append_nil]
  have hbehind : (c :: (word ++ ',' :: rest)).dropWhile isWordChar = ',' :: rest := by
    rw [← List.cons_append, List.dropWhile_append_of_pos hchars,
      List.dropWhile_cons_of_neg (by simp [hcomma])]
  rw [hword, List.cons_append]
  have hdots : ['.', '.', '.'].isPrefixOf (c :: (word ++ ',' :: rest)) = false := by
    simp [List.isPrefixOf, Ne.symm hdot]
  refine Scans.of_piece (.word (c :: word)) (by simp) (fun line length limit => ?_) h
  rw [scanRest_of_isOrdinary hordinary, scanText?, hopen, readNumber?_of_ne hdigit hdot hline]
  simp only [bind, Option.bind, hdots, Bool.false_eq_true, if_false, hwritten, hbehind,
    hchars c List.mem_cons_self, if_true]

lemma Scans.lineEnd (hlevel : s.level = 0) : Scans s ['\n'] [.lineEnd ['\n']] s := by
  refine Scans.of_piece (.lineEnd ['\n']) le_rfl (fun line length limit => ?_) (Scans.nil s)
  simp [scanRest, isGap, lineEnd?, hlevel]

/-! ## A whole header -/

/-- The pieces of some sizes with commas between them, up to the closing parenthesis. -/
def sizePieces : List Nat → List Lexeme
  | [] => [.mark ')']
  | [n] => [.number (Nat.toDigits 10 n) (.int n), .mark ')']
  | n :: rest => .number (Nat.toDigits 10 n) (.int n) :: .mark ',' :: sizePieces rest

/-- The pieces of a shape.  The first size has a comma behind it, whether or not another follows. -/
def shapePieces : List Nat → List Lexeme
  | [] => [.mark '(', .mark ')']
  | n :: rest =>
    .mark '(' :: .number (Nat.toDigits 10 n) (.int n) :: .mark ',' :: sizePieces rest

/-- A text between single quotes. -/
def quotedPiece (text : String) : Lexeme := .text [] '\'' false text.toList

/-- **The pieces of a header**: a table with three fields, and the end of its line. -/
def headerPieces (t : ElementType) (firstIndexFastest : Bool) (shape : List Nat) : List Lexeme :=
  [.mark '\x7b', quotedPiece "descr", .mark ':', quotedPiece t.code, .mark ',',
    quotedPiece "fortran_order", .mark ':', .word (truthWord firstIndexFastest), .mark ',',
    quotedPiece "shape", .mark ':']
  ++ shapePieces shape ++ [.mark ',', .mark '\x7d', .lineEnd ['\n']]

lemma isGap_of_isDigit {c : Char} (hc : c.isDigit = true) : isGap c = false := by
  cases hgap : isGap c with
  | false => rfl
  | true =>
    simp only [isGap, Bool.or_eq_true, beq_iff_eq] at hgap
    rcases hgap with (rfl | rfl) | rfl <;> exact absurd hc (by decide)

lemma Scans.space {c : Char} (hc : isGap c = false) (h : Scans s (c :: rest) kept s') :
    Scans s (' ' :: c :: rest) kept s' :=
  Scans.gap [' '] (by simp [isGap]) (by simpa using hc) h

/-- Sizes are cut up one after the other. -/
lemma Scans.sizes (ns : List Nat)
    (h : Scans { s with level := s.level + bracketStep ')' } rest kept s') :
    Scans s ([',', ' '].intercalate (ns.map (Nat.toDigits 10)) ++ ')' :: rest)
      (sizePieces ns ++ kept) s' := by
  fun_induction sizePieces ns with
  | case1 => exact Scans.mark (by decide) h
  | case2 n =>
    rw [List.map_singleton, List.intercalate_singleton]
    exact Scans.number n (by decide) (Scans.mark (by decide) h)
  | case3 n ms hne ih =>
    obtain ⟨m, ms, rfl⟩ := List.exists_cons_of_ne_nil fun he => hne he
    rw [List.map_cons, List.map_cons, List.intercalate_cons_cons, ← List.map_cons,
      List.append_assoc, List.append_assoc]
    refine Scans.number n (by decide) (Scans.separator (by decide) ?_)
    refine Scans.gap [' '] (by simp [isGap]) (fun c hc => ?_) ih
    -- the next size begins with a digit
    obtain ⟨d, digits, hm⟩ :=
      List.exists_cons_of_ne_nil (Nat.toDigits_ne_nil (n := m) (b := 10))
    have hd : d.isDigit = true :=
      Nat.isDigit_of_mem_toDigits (by decide) (by decide) (hm ▸ List.mem_cons_self)
    have hhead : ([',', ' '].intercalate ((m :: ms).map (Nat.toDigits 10)) ++ ')' :: rest).head?
        = some d := by
      cases ms <;> simp [List.intercalate_cons_cons, hm]
    rw [hhead] at hc
    exact Option.some.inj hc ▸ isGap_of_isDigit hd

lemma Scans.shape (shape : List Nat) (h : Scans s rest kept s') :
    Scans s ((shapeText shape).toList ++ rest) (shapePieces shape ++ kept) s' := by
  have hclose : ({ s with level := s.level + bracketStep '(' + bracketStep ')' } : ScanState)
      = s := by
    have hlevel : s.level + bracketStep '(' + bracketStep ')' = s.level := by
      show s.level + 1 + -1 = s.level
      omega
    rw [hlevel]
  have hrest :
      Scans { s with level := s.level + bracketStep '(' + bracketStep ')' } rest kept s' := by
    rwa [hclose]
  have hdigits : ∀ n : Nat, (toString n).toList = Nat.toDigits 10 n := fun n => Nat.toList_repr
  rcases shape with _ | ⟨n, _ | ⟨m, ms⟩⟩
  · exact Scans.mark (by decide) (Scans.mark (by decide) hrest)
  · simp only [shapeText, shapePieces, String.toList_append, hdigits, List.append_assoc]
    exact Scans.mark (by decide) (Scans.number n (by decide) (Scans.separator (by decide)
      (Scans.mark (by decide) hrest)))
  · simp only [shapeText, shapePieces, String.toList_append, String.toList_intercalate,
      List.map_map, List.append_assoc]
    refine Scans.mark (by decide) ?_
    have hsizes :=
      Scans.sizes (s := { s with level := s.level + bracketStep '(' }) (n :: m :: ms) hrest
    have hmap : String.toList ∘ (toString : Nat → String) = Nat.toDigits 10 := funext hdigits
    rw [hmap]
    exact hsizes

/-- A header, part by part. -/
lemma toList_headerText (t : ElementType) (firstIndexFastest : Bool) (shape : List Nat) :
    (headerText t firstIndexFastest shape).toList
      = "\x7b'descr': '".toList ++ (t.code.toList ++ ("', 'fortran_order': ".toList
        ++ (truthWord firstIndexFastest ++ (", 'shape': ".toList ++ ((shapeText shape).toList
        ++ ", \x7d".toList))))) := by
  have hheader : headerText t firstIndexFastest shape
      = "\x7b'descr': '" ++ t.code ++ "', 'fortran_order': "
        ++ (if firstIndexFastest then "True" else "False") ++ ", 'shape': " ++ shapeText shape
        ++ ", \x7d" := rfl
  rw [hheader]
  simp only [String.toList_append, List.append_assoc, truthWord]

/-- **A header is cut into its pieces**, and nothing is open behind them. -/
lemma Scans.header {t : ElementType} (hne : t.code ≠ "") (hquote : '\'' ∉ t.code.toList)
    (hbackslash : '\\' ∉ t.code.toList) (firstIndexFastest : Bool) (shape : List Nat)
    (blanks : Nat) :
    Scans {} ((headerText t firstIndexFastest shape).toList ++ List.replicate blanks ' ' ++ ['\n'])
      (headerPieces t firstIndexFastest shape) {} := by
  have htext : (headerText t firstIndexFastest shape).toList ++ List.replicate blanks ' ' ++ ['\n']
      = '\x7b' :: '\'' :: ("descr".toList ++ '\'' :: ':' :: ' ' :: '\'' :: (t.code.toList
          ++ '\'' :: ',' :: ' ' :: '\'' :: ("fortran_order".toList ++ '\'' :: ':' :: ' '
          :: (truthWord firstIndexFastest ++ ',' :: ' ' :: '\'' :: ("shape".toList ++ '\'' :: ':'
          :: ' ' :: ((shapeText shape).toList ++ ',' :: ' ' :: '\x7d'
          :: (List.replicate blanks ' ' ++ ['\n']))))))) := by
    rw [toList_headerText]
    simp only [List.append_assoc]
    rfl
  have hshape : ∀ rest, ∀ c ∈ ((shapeText shape).toList ++ rest).head?, isGap c = false := by
    intro rest c hc
    have hhead : ((shapeText shape).toList ++ rest).head? = some '(' := by
      rcases shape with _ | ⟨n, _ | ⟨m, ms⟩⟩ <;> simp [shapeText]
    rw [hhead] at hc
    exact Option.some.inj hc ▸ rfl
  have hword : ∀ rest, ∀ c ∈ (truthWord firstIndexFastest ++ rest).head?, isGap c = false := by
    cases firstIndexFastest <;> simp [truthWord, isGap]
  have hcode : t.code.toList ≠ [] := fun hnil => hne (String.toList_eq_nil_iff.1 hnil)
  rw [htext, headerPieces]
  refine Scans.mark (by decide) ?_
  refine Scans.quoted (by decide) (by decide) (by decide) (Scans.separator (by decide) ?_)
  refine Scans.space (by decide) (Scans.quoted hcode hquote hbackslash ?_)
  refine Scans.separator (by decide) (Scans.space (by decide) ?_)
  refine Scans.quoted (by decide) (by decide) (by decide) (Scans.separator (by decide) ?_)
  refine Scans.gap [' '] (by simp [isGap]) (hword _) (Scans.truth firstIndexFastest ?_)
  refine Scans.separator (by decide) (Scans.space (by decide) ?_)
  refine Scans.quoted (by decide) (by decide) (by decide) (Scans.separator (by decide) ?_)
  refine Scans.gap [' '] (by simp [isGap]) (hshape _) (Scans.shape shape ?_)
  refine Scans.separator (by decide) (Scans.space (by decide) (Scans.mark (by decide) ?_))
  exact Scans.gap _ (by simp [isGap]) (by simp [isGap]) (Scans.lineEnd rfl)

lemma cutLines_line {text : List Char} (h : '\n' ∉ text) :
    cutLines (text ++ ['\n']) = [text ++ ['\n']] := by
  induction text with
  | nil => rfl
  | cons c rest ih =>
    simp only [List.mem_cons, not_or] at h
    rw [List.cons_append, cutLines, ih h.2]
    simp [Ne.symm h.1]

/-- A line that begins with a brace and leaves nothing open is a value of its own. -/
lemma scan_line {text : List Char} {kept : List Lexeme} (hnewline : '\n' ∉ text)
    (h : Scans {} ('\x7b' :: text ++ ['\n']) kept {}) :
    ∃ lexemes, scan ('\x7b' :: text ++ ['\n']) = .ok lexemes ∧ meaningful lexemes = kept := by
  have hcut : cutLines ('\x7b' :: text ++ ['\n']) = ['\x7b' :: text ++ ['\n']] :=
    cutLines_line (by simpa using hnewline)
  obtain ⟨lexemes, hscan, hkept⟩ := h 1 ('\x7b' :: text ++ ['\n']).length _ le_rfl
  have hstatement : scanStatement 1 {} ('\x7b' :: text ++ ['\n'])
      = .ok (.gap [] :: (scanRest 1 ('\x7b' :: text ++ ['\n']).length
          ('\x7b' :: text ++ ['\n']).length {} ('\x7b' :: text ++ ['\n'])).1,
        (scanRest 1 ('\x7b' :: text ++ ['\n']).length
          ('\x7b' :: text ++ ['\n']).length {} ('\x7b' :: text ++ ['\n'])).2) := rfl
  rw [hscan] at hstatement
  refine ⟨.gap [] :: lexemes, ?_, ?_⟩
  · rw [scan, hcut, scanLines]
    simp only [decide_true, Bool.not_false, Bool.and_self, if_true, hstatement]
    simp [bind, Except.bind, pure, Except.pure, scanLines]
  · rw [← hkept]
    rfl

end AutomatonShell.Archive
