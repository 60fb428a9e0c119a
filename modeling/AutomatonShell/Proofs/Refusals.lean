import AutomatonShell.Proofs.Restoring

/-!
# How the content of a snapshot is refused

The checks on a snapshot and the declarations behind them give an error each.  Three of the errors
name no rule: a member of the archive is no array, one of its elements cannot be taken over at all,
or the version is a span of time that is no number.  The first is not given as soon as there is an
array under every name, and each of the others is the fault of one array.

* `IsRefusal` — the errors that name a broken rule.
* `OnlyRefuses`, `OnlyBlames` — checks that give no other errors, and checks that may also come
  upon an element that cannot be taken over or a version that is no number.
* **`onlyBlames_toAutomaton`** — reading a snapshot whose arrays are there.
* `onlyRefuses_toAutomaton` — the same when all their elements can be taken over.
-/

namespace AutomatonShell

namespace Snapshot

open Archive Automaton

variable {entries : List (String × Entry)}

/-- A snapshot error that says which rule the content breaks.  The others say that a member is no
array, that an element cannot be taken over at all, or that the version is no number. -/
def IsRefusal : SnapshotError → Prop
  | .notArray => False
  | .notNumber _ => False
  | .unreadable _ => False
  | _ => True

/-- Checks whose errors are refusals. -/
def OnlyRefuses {α : Type} (x : Except SnapshotError α) : Prop :=
  ∀ e, x = .error e → IsRefusal e

lemma onlyRefuses_ok {α : Type} (x : α) : OnlyRefuses (.ok x) := nofun

lemma onlyRefuses_error {α : Type} {e : SnapshotError} (h : IsRefusal e) :
    OnlyRefuses (.error e : Except SnapshotError α) := by
  intro e' he
  rwa [← Except.error.inj he]

lemma OnlyRefuses.bind {α β : Type} {x : Except SnapshotError α} {f : α → Except SnapshotError β}
    (hx : OnlyRefuses x) (hf : ∀ y, x = .ok y → OnlyRefuses (f y)) : OnlyRefuses (x >>= f) := by
  cases x with
  | error e => exact onlyRefuses_error (hx e rfl)
  | ok y => exact hf y rfl

lemma onlyRefuses_declared (result : Automaton × Option ModelError) :
    OnlyRefuses (declared result) := by
  obtain ⟨a, failure⟩ := result
  cases failure with
  | none => exact onlyRefuses_ok a
  | some e => exact onlyRefuses_error trivial

lemma onlyRefuses_rowTexts (symbol source target : Label) :
    OnlyRefuses (rowTexts symbol source target) := by
  rw [rowTexts.eq_def]
  dsimp only
  split
  · exact onlyRefuses_ok _
  · exact onlyRefuses_error trivial
  -- a label that is no text is refused behind the checks of the names in front of it
  · refine OnlyRefuses.bind ?_ fun _ _ => onlyRefuses_error trivial
    split <;> first | exact onlyRefuses_ok () | exact onlyRefuses_error trivial
  · refine OnlyRefuses.bind ?_ fun _ _ => OnlyRefuses.bind ?_ fun _ _ => onlyRefuses_error trivial
    all_goals split <;> first | exact onlyRefuses_ok () | exact onlyRefuses_error trivial

lemma onlyRefuses_declareRows (a : Automaton) (labels : List (Label × Label × Label)) :
    OnlyRefuses (declareRows a labels) := by
  induction labels generalizing a with
  | nil => exact onlyRefuses_ok a
  | cons row rest ih =>
    obtain ⟨symbol, source, target⟩ := row
    exact (onlyRefuses_rowTexts symbol source target).bind fun _ _ =>
      (onlyRefuses_declared _).bind fun b _ => ih b

lemma onlyRefuses_declareStates (a : Automaton) (states : List Label) :
    OnlyRefuses (Snapshot.declareStates a states) := by
  refine (onlyRefuses_declared _).bind fun b _ => ?_
  split
  · exact onlyRefuses_ok b
  · exact onlyRefuses_error trivial

/-! ## Elements that cannot be taken over -/

/-- The names of the arrays that list something. -/
def listNames : List String := entryNames.drop 2

/-- **Every list is there**, as an array of elements that can be taken over. -/
def HasLists (entries : List (String × Entry)) : Prop :=
  ∀ name ∈ listNames, ∃ x, arrayOf entries name = .ok x ∧ x.labels.any Label.isBeyond = false

/-- An element of the magic text or of a list cannot be taken over. -/
def HasBeyond (entries : List (String × Entry)) : Prop :=
  ∃ name ∈ "magic" :: listNames, ∃ x, arrayOf entries name = .ok x ∧
    x.labels.any Label.isBeyond = true

/-- The version is of a type that passes for integers, but it is none: a span of time that is none
itself or has a unit. -/
def HasTimeVersion (entries : List (String × Entry)) : Prop :=
  ∃ x, arrayOf entries "format_version" = .ok x ∧ x.shape = [] ∧ isInteger x.type.kind = true ∧
    ∀ n, x.values ≠ [.int n]

/-- **Why arrays are not restored**: a rule is broken, an element cannot be taken over, or the
version is no number. -/
def Blames (entries : List (String × Entry)) (e : SnapshotError) : Prop :=
  IsRefusal e ∨ e = .unreadable .codeOutOfRange ∧ HasBeyond entries ∨
    (∃ kind, e = .notNumber kind) ∧ HasTimeVersion entries

/-- Checks on the arrays that fail for no other reason. -/
def OnlyBlames (entries : List (String × Entry)) {α : Type} (x : Except SnapshotError α) : Prop :=
  ∀ e, x = .error e → Blames entries e

lemma onlyBlames_ok {α : Type} (x : α) : OnlyBlames entries (.ok x) := nofun

lemma onlyBlames_error {α : Type} {e : SnapshotError} (h : IsRefusal e) :
    OnlyBlames entries (.error e : Except SnapshotError α) := by
  intro e' he
  rw [← Except.error.inj he]
  exact Or.inl h

lemma OnlyRefuses.onlyBlames {α : Type} {x : Except SnapshotError α} (h : OnlyRefuses x) :
    OnlyBlames entries x := fun e he => Or.inl (h e he)

lemma OnlyBlames.bind {α β : Type} {x : Except SnapshotError α} {f : α → Except SnapshotError β}
    (hx : OnlyBlames entries x) (hf : ∀ y, x = .ok y → OnlyBlames entries (f y)) :
    OnlyBlames entries (x >>= f) := by
  cases x with
  | error e =>
    intro e' he
    rw [← Except.error.inj he]
    exact hx e rfl
  | ok y => exact hf y rfl

lemma onlyBlames_labelsOf {name : String} (hname : name ∈ "magic" :: listNames) {x : NdArray}
    (hx : arrayOf entries name = .ok x) : OnlyBlames entries (labelsOf x) := by
  rw [labelsOf]
  split_ifs with hbeyond
  · intro e he
    exact Or.inr (Or.inl ⟨(Except.error.inj he).symm, name, hname, x, hx, hbeyond⟩)
  · exact onlyBlames_ok _

/-- An array is there under each of the names. -/
def HasArrays (entries : List (String × Entry)) : Prop :=
  ∀ name ∈ entryNames, ∃ x, arrayOf entries name = .ok x

lemma onlyBlames_rowOf (h : HasArrays entries) {name : String} (hname : name ∈ entryNames) :
    OnlyBlames entries (rowOf entries name) ∧
      ∀ x, rowOf entries name = .ok x → arrayOf entries name = .ok x := by
  obtain ⟨x, hx⟩ := h name hname
  have hrow : rowOf entries name
      = if x.shape.length ≠ 1 then .error (.notOneDimensional name) else .ok x := by
    rw [rowOf, hx]
    rfl
  rw [hrow]
  split_ifs
  · exact ⟨onlyBlames_error trivial, nofun⟩
  · exact ⟨onlyBlames_ok x, fun y hy => Except.ok.inj hy ▸ hx⟩

lemma onlyBlames_tableOf (h : HasArrays entries) :
    OnlyBlames entries (tableOf entries) ∧
      ∀ x, tableOf entries = .ok x → arrayOf entries "transitions" = .ok x := by
  obtain ⟨x, hx⟩ := h "transitions" (by decide)
  have htable : tableOf entries = .ok x ∨ tableOf entries = .error .transitionsShape := by
    rw [tableOf, hx]
    dsimp only [bind, Except.bind]
    split
    · exact Or.inl rfl
    · exact Or.inr rfl
  rcases htable with htable | htable <;> rw [htable]
  · exact ⟨onlyBlames_ok x, fun y hy => Except.ok.inj hy ▸ hx⟩
  · exact ⟨onlyBlames_error trivial, nofun⟩

/-- A version is a number if it is a single integer. -/
lemma versionOf_eq_ok {x : NdArray} {n : Int} : versionOf x = .ok n ↔ x.values = [.int n] := by
  rw [versionOf]
  split <;> simp_all

lemma onlyBlames_versionOf {x : NdArray} (hx : arrayOf entries "format_version" = .ok x)
    (hshape : x.shape = []) (hkind : isInteger x.type.kind = true) :
    OnlyBlames entries (versionOf x) := by
  rw [versionOf]
  split
  · exact onlyBlames_ok _
  all_goals
    intro e he
    refine Or.inr (Or.inr ⟨⟨_, (Except.error.inj he).symm⟩, x, hx, hshape, hkind, ?_⟩)
    simp_all

lemma onlyBlames_checkFormat (h : HasArrays entries) :
    OnlyBlames entries (checkFormat entries) := by
  obtain ⟨magic, hmagic⟩ := h "magic" (by decide)
  obtain ⟨version, hversion⟩ := h "format_version" (by decide)
  rw [checkFormat, hmagic, hversion]
  dsimp only [bind, Except.bind]
  split_ifs with hshape hversion'
  · exact onlyBlames_error trivial
  · exact (onlyBlames_labelsOf (by decide) hmagic).bind fun labels _ => by
      split_ifs <;> exact onlyBlames_error trivial
  · refine (onlyBlames_labelsOf (by decide) hmagic).bind fun labels _ => ?_
    split_ifs
    · exact onlyBlames_error trivial
    · obtain ⟨hscalar, hkind⟩ := not_or.1 hversion'
      refine (onlyBlames_versionOf hversion (not_not.1 hscalar) (by simpa using hkind)).bind
        fun n _ => ?_
      split_ifs
      · exact onlyBlames_ok ()
      · exact onlyBlames_error trivial

lemma onlyBlames_build (symbols states initial finals : List Label) {table : NdArray}
    (h : arrayOf entries "transitions" = .ok table) :
    OnlyBlames entries (build symbols states initial finals table) := by
  have hlast : ∀ b : Automaton, OnlyBlames entries
      (do let b ← declared (b.addFinalStates (finals.filterMap Label.text?))
          declareRows b (rows (← labelsOf table))) := fun b =>
    (onlyRefuses_declared _).onlyBlames.bind fun c _ =>
      (onlyBlames_labelsOf (by decide) h).bind fun labels _ =>
        (onlyRefuses_declareRows c _).onlyBlames
  simp only [build]
  refine (onlyRefuses_declareStates _ _).onlyBlames.bind fun b _ => ?_
  split
  · exact hlast b
  · exact (onlyRefuses_declared _).onlyBlames.bind fun c _ => hlast c

/-- **Arrays are refused by naming a rule**, for an element that cannot be taken over, or for a
version that is no number. -/
theorem onlyBlames_toAutomaton (h : HasArrays entries) :
    OnlyBlames entries (toAutomaton entries) := by
  have hrow : ∀ name ∈ entryNames, ∀ {α : Type} {f : NdArray → Except SnapshotError α},
      (∀ x, arrayOf entries name = .ok x → OnlyBlames entries (f x)) →
        OnlyBlames entries (rowOf entries name >>= f) := fun name hname _ f hf =>
    (onlyBlames_rowOf h hname).1.bind fun x hx => hf x ((onlyBlames_rowOf h hname).2 x hx)
  rw [toAutomaton]
  refine (onlyBlames_checkFormat h).bind fun _ _ => ?_
  refine hrow "symbols" (by decide) fun symbols hsymbols => ?_
  refine hrow "states" (by decide) fun states hstates => ?_
  refine hrow "initial_state" (by decide) fun initial hinitial => ?_
  refine hrow "final_states" (by decide) fun finals hfinals => ?_
  refine (onlyBlames_tableOf h).1.bind fun table htable => ?_
  refine (onlyBlames_labelsOf (by decide) hsymbols).bind fun _ _ => ?_
  refine (onlyBlames_labelsOf (by decide) hstates).bind fun _ _ => ?_
  refine (onlyBlames_labelsOf (by decide) hinitial).bind fun _ _ => ?_
  refine (onlyBlames_labelsOf (by decide) hfinals).bind fun _ _ => ?_
  split_ifs
  · exact onlyBlames_error trivial
  · split
    · exact onlyBlames_error trivial
    · split
      · exact onlyBlames_error trivial
      · refine (onlyBlames_build _ _ _ _ ((onlyBlames_tableOf h).2 table htable)).bind
          fun a _ => ?_
        split_ifs
        · exact onlyBlames_ok a
        · exact onlyBlames_error trivial
  · exact onlyBlames_error trivial

/-- The format is only right if the arrays that give it are there, and the version is a number. -/
lemma exists_of_checkFormat (h : checkFormat entries = .ok ()) :
    ∃ magic version n, arrayOf entries "magic" = .ok magic ∧
      magic.labels.any Label.isBeyond = false ∧
      arrayOf entries "format_version" = .ok version ∧ version.values = [.int n] := by
  obtain ⟨magic, hmagic, h⟩ := bind_eq_ok.1 h
  dsimp only at h
  split_ifs at h
  · cases h
  · obtain ⟨labels, hlabels, h⟩ := bind_eq_ok.1 h
    split_ifs at h
    · cases h
    · obtain ⟨version, hversion, h⟩ := bind_eq_ok.1 h
      split_ifs at h
      obtain ⟨n, hn, -⟩ := bind_eq_ok.1 h
      refine ⟨magic, version, n, hmagic, ?_, hversion, versionOf_eq_ok.1 hn⟩
      rw [labelsOf] at hlabels
      split_ifs at hlabels with hbeyond
      simpa using hbeyond

/-- **Content is refused by naming the rule that it breaks.** -/
lemma onlyRefuses_toAutomaton (hformat : checkFormat entries = .ok ()) (h : HasLists entries) :
    OnlyRefuses (toAutomaton entries) := by
  obtain ⟨magic, version, n, hmagic, hbeyond, hversion, hn⟩ := exists_of_checkFormat hformat
  have harrays : HasArrays entries := by
    intro name hname
    rcases List.mem_cons.1 hname with rfl | hname
    · exact ⟨magic, hmagic⟩
    · rcases List.mem_cons.1 hname with rfl | hname
      · exact ⟨version, hversion⟩
      · exact (h name hname).imp fun x hx => hx.1
  intro e he
  rcases onlyBlames_toAutomaton harrays e he with
    hrefusal | ⟨-, name, hname, x, hx, hbeyond'⟩ | ⟨-, x, hx, -, -, hnot⟩
  · exact hrefusal
  · rcases List.mem_cons.1 hname with rfl | hname
    · rw [Except.ok.inj (hx.symm.trans hmagic), hbeyond] at hbeyond'
      cases hbeyond'
    · obtain ⟨y, hy, hnot⟩ := h name hname
      rw [Except.ok.inj (hx.symm.trans hy), hnot] at hbeyond'
      cases hbeyond'
  · obtain rfl := Except.ok.inj (hx.symm.trans hversion)
    exact absurd hn (hnot n)

end Snapshot

end AutomatonShell
