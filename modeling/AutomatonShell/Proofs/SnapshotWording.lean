import AutomatonShell.Proofs.LineTexts

/-!
# The wording of what is wrong with a snapshot

Most of what a snapshot says about a stored text is shown between quotes, and there a newline is
written as an escape (`isLine_quoted`).  What is shown as it stands is the path of the file, the
name of a state that is not listed, and a name that a transition refers to; the wording is on one
line just when these are (`SnapshotError.isLine_message_iff`).

* `isLine_quoted`, `isLine_quotedCodes` — quoted texts are on one line.
* `ModelError.shown`, `SnapshotError.shown` — what is shown as it stands.
* **`SnapshotError.isLine_message_iff`** — the wording of a snapshot error.
-/

namespace AutomatonShell

/-! ## Quoted texts -/

namespace Text

lemma newline_not_mem_toDigits (n : Nat) : '\n' ∉ Nat.toDigits 16 n := by
  have hdigit : ∀ d < 16, Nat.digitChar d ≠ '\n' := by decide
  suffices ∀ fuel n acc, '\n' ∉ acc → '\n' ∉ Nat.toDigitsCore 16 fuel n acc from
    this _ n [] List.not_mem_nil
  intro fuel
  induction fuel with
  | zero => exact fun n acc h => h
  | succ fuel ih =>
    intro n acc h
    have hcons : '\n' ∉ Nat.digitChar (n % 16) :: acc :=
      fun hmem => (List.mem_cons.1 hmem).elim
        (fun he => hdigit _ (Nat.mod_lt n (by decide)) he.symm) h
    rw [Nat.toDigitsCore]
    split_ifs
    · exact hcons
    · exact ih _ _ hcons

lemma newline_not_mem_hexPadded (width n : Nat) : '\n' ∉ hexPadded width n := by
  rw [hexPadded, List.mem_append, not_or]
  exact ⟨fun hmem => absurd (List.eq_of_mem_replicate hmem) (by decide),
    newline_not_mem_toDigits n⟩

lemma newline_not_mem_escapeNumber (code : Nat) : '\n' ∉ escapeNumber code := by
  rw [escapeNumber]
  split_ifs <;> simp [newline_not_mem_hexPadded]

lemma newline_not_mem_escapeChar {quote : Char} (hquote : quote ≠ '\n') (c : Char) :
    '\n' ∉ escapeChar quote c := by
  rw [escapeChar]
  split_ifs with hself htab hnewline hreturn hprintable
  · simp only [Bool.or_eq_true, decide_eq_true_eq] at hself
    rcases hself with rfl | rfl
    · simpa using hquote.symm
    · decide
  · decide
  · decide
  · decide
  · simpa using Ne.symm hnewline
  · exact newline_not_mem_escapeNumber _

lemma quoteFor_ne (text : List Char) : quoteFor text ≠ '\n' := by
  rw [quoteFor]
  split_ifs <;> decide

/-- Escapes between two quotes. -/
lemma newline_not_mem_between {α : Type} {quote : Char} {items : List α} {escape : α → List Char}
    (hquote : quote ≠ '\n') (hescape : ∀ item, '\n' ∉ escape item) :
    '\n' ∉ quote :: items.flatMap escape ++ [quote] := by
  simp only [List.mem_append, List.mem_cons, List.mem_flatMap, List.not_mem_nil, or_false, not_or,
    not_exists, not_and]
  exact ⟨⟨hquote.symm, fun item _ => hescape item⟩, hquote.symm⟩

/-- **A quoted text is on one line.** -/
lemma isLine_quoted (text : String) : IsLine (quoted text) := by
  have hquote := quoteFor_ne text.toList
  rw [quoted, isLine_ofList]
  exact newline_not_mem_between hquote (newline_not_mem_escapeChar hquote)

lemma isLine_quotedCodes (codes : List Nat) : IsLine (quotedCodes codes) := by
  have hquote := quoteFor_ne (codes.map Char.ofNat)
  rw [quotedCodes, isLine_ofList]
  refine newline_not_mem_between hquote fun code => ?_
  rw [escapeCode]
  split_ifs
  · exact newline_not_mem_escapeChar hquote _
  · exact newline_not_mem_escapeNumber code

lemma isLine_quotedList (texts : List String) : IsLine (quotedList texts) := by
  have hopen : IsLine "[" := isLine_ofList.2 (by decide)
  have hcomma : IsLine ", " := isLine_ofList.2 (by decide)
  have hclose : IsLine "]" := isLine_ofList.2 (by decide)
  rw [quotedList, isLine_append, isLine_append, isLine_intercalate hcomma]
  exact ⟨⟨hopen, List.forall_mem_map.2 fun text _ => isLine_quoted text⟩, hclose⟩

end Text

lemma Archive.Label.isLine_quoted (label : Archive.Label) : IsLine label.quoted := by
  cases label with
  | text value => exact Text.isLine_quoted value
  | garbled codes => exact Text.isLine_quotedCodes codes

/-! ## Wordings -/

/-- What the wording of a refusal shows as it stands. -/
def ModelError.shown : ModelError → List String
  | .unknownSymbol name | .unknownSource name | .unknownTarget name => [name]
  | .malformedSymbol _ | .malformedState _ | .noInitialState | .unlisted _ => []

lemma ModelError.isLine_message_iff {e : ModelError} :
    IsLine e.message ↔ ∀ part ∈ e.shown, IsLine part := by
  cases e with
  | unknownSymbol | unknownSource | unknownTarget =>
    exact (isLine_behind (by decide)).trans List.forall_mem_singleton.symm
  | malformedSymbol text | malformedState text =>
    exact iff_of_true ((isLine_behind (by decide)).2 (Text.isLine_quoted text))
      (List.forall_mem_nil _)
  | noInitialState => exact iff_of_true (isLine_ofList.2 (by decide)) (List.forall_mem_nil _)
  | unlisted name => exact iff_of_true (Text.isLine_quoted name) (List.forall_mem_nil _)

namespace SnapshotError

/-- **What the wording of a snapshot error shows as it stands.** -/
def shown : SnapshotError → List String
  | notSnapshot path | corrupt path => [path]
  | notOneDimensional name => [name]
  | unknownState state => [state.readable]
  | refused e => e.shown
  | missingEntries _ | magicMismatch | versionNotInteger | unsupportedVersion _ | transitionsShape
  | manyInitialStates | duplicateStates | invalidSymbol _ | garbledState _ | garbledSymbol _
  | notCanonical | notArray | notNumber _ | unreadable _ => []

/-- **The wording of a snapshot error** is on one line just when what it shows as it stands is.
Breaking off has wordings of its own. -/
theorem isLine_message_iff {e : SnapshotError} (hnumber : ∀ kind, e ≠ .notNumber kind)
    (hread : ∀ f, e ≠ .unreadable f) : IsLine e.message ↔ ∀ part ∈ e.shown, IsLine part := by
  cases e with
  | notSnapshot | corrupt | unknownState =>
    exact (isLine_behind (by decide)).trans List.forall_mem_singleton.symm
  | notOneDimensional name =>
    have hback : IsLine " must be one-dimensional" := isLine_ofList.2 (by decide)
    exact (isLine_append.trans (and_iff_left hback)).trans List.forall_mem_singleton.symm
  | refused e => exact e.isLine_message_iff
  | missingEntries names =>
    exact iff_of_true ((isLine_behind (by decide)).2 (Text.isLine_quotedList names))
      (List.forall_mem_nil _)
  | unsupportedVersion version =>
    exact iff_of_true ((isLine_behind (by decide)).2 (isLine_repr version)) (List.forall_mem_nil _)
  | invalidSymbol label | garbledState label | garbledSymbol label =>
    exact iff_of_true ((isLine_behind (by decide)).2 label.isLine_quoted) (List.forall_mem_nil _)
  | magicMismatch | versionNotInteger | transitionsShape | manyInitialStates | duplicateStates
  | notCanonical | notArray =>
    exact iff_of_true (isLine_ofList.2 (by decide)) (List.forall_mem_nil _)
  | notNumber kind => exact absurd rfl (hnumber kind)
  | unreadable f => exact absurd rfl (hread f)

end SnapshotError

end AutomatonShell
