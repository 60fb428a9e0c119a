import AutomatonShell.Proofs.ArchiveMembers
import AutomatonShell.Proofs.ArrayFiles
import AutomatonShell.Proofs.SnapshotRoundTrip

/-!
# Snapshots are read back from their files

An automaton is written as an archive of seven array files.  Reading the archive gives the seven
members, reading each of these gives the array that was written, and the arrays are those of an
automaton that differs from the first one at most in the order of its final states.

An automaton that was written is never too large to be read.  The archive has less than 2³² bytes,
and a state of 2³¹ bytes or more would not be read; but every state is written as wide as the
widest, and the initial state is written twice (`length_state_le`).

* `IsMemberOf` — the member that an array is written to.
* `isStorable_of_mem_arrays` — the arrays that were written can be read.
* `Library.KeepsAutomata` — that a library reads back what it wrote, and
  `Library.keepsAutomata_standard`.
* `entriesOf_encode` — the arrays of a file are those it was written from.
* **`decode_encode`** — and so is the automaton.
-/

namespace AutomatonShell

namespace Snapshot

open Archive Automaton

variable {a : Automaton}

/-! ## Sizes -/

/-- The member that an array is written to. -/
def IsMemberOf (entry : String × NdArray) (m : Member) : Prop :=
  m.name = entry.1 ++ String.ofList memberSuffix ∧ entry.2.encode false = some m.content

lemma forall₂_isMemberOf {entries : List (String × NdArray)} {ms : List Member}
    (h : (entries.map fun (name, x) => (name, x, false)).mapM (fun (name, x, swapped) => do
      return (⟨name ++ String.ofList memberSuffix, ← x.encode swapped⟩ : Member)) = some ms) :
    List.Forall₂ IsMemberOf entries ms := by
  induction entries generalizing ms with
  | nil =>
    obtain rfl := Option.some.inj h
    exact .nil
  | cons entry rest ih =>
    simp only [List.map_cons, List.mapM_cons, bind, Option.bind_eq_some_iff] at h
    obtain ⟨m, ⟨content, hcontent, hm⟩, ms, hms, heq⟩ := h
    obtain rfl := Option.some.inj hm
    obtain rfl := Option.some.inj heq
    exact .cons ⟨rfl, hcontent⟩ (ih hms)

lemma exists_members {bytes : List UInt8} (h : encode a = some bytes) :
    ∃ ms, List.Forall₂ IsMemberOf (arrays a) ms ∧ writeMembers ms = some bytes := by
  have harrays : encodeArrays ((arrays a).map fun (name, x) => (name, x, false)) = some bytes := h
  rw [encodeArrays] at harrays
  obtain ⟨ms, hms, hbytes⟩ := Option.bind_eq_some_iff.1 harrays
  exact ⟨ms, forall₂_isMemberOf hms, hbytes⟩

/-- The elements of an array of texts do not take up more than the member they are written to. -/
lemma length_texts_le {shape : List Nat} {values : List String} {name : String} {m : Member}
    (h : IsMemberOf (name, .texts shape values) m) :
    values.length * (NdArray.widthOf values).width ≤ m.content.length := by
  have hencoded : ∀ e ∈ (NdArray.texts shape values).values,
      (Element.encode (NdArray.widthOf values) e).length = (NdArray.widthOf values).width := by
    intro e he
    obtain ⟨v, -, rfl⟩ := List.mem_map.1 he
    exact length_encode_text _ v
  have hle := length_le_of_encode (a := .texts shape values) hencoded h.2
  rwa [NdArray.texts, List.length_map] at hle

/-- **No state of an automaton that was written is too wide.**  The initial state is written twice,
and other states are as wide as the widest. -/
lemma length_state_le (h : a.WellFormed) {bytes : List UInt8} (hbytes : encode a = some bytes) :
    ∀ q ∈ a.states, 4 * q.length ≤ ElementType.maxWidth := by
  intro q hq
  obtain ⟨ms, hms, hwrite⟩ := exists_members hbytes
  have hsum := sum_content_lt hwrite
  have hbound : byteBound 4 = 4294967296 ∧ ElementType.maxWidth = 2147483647 := ⟨rfl, rfl⟩
  have hwidth : ∀ values : List String, ∀ v ∈ values,
      4 * v.length ≤ (NdArray.widthOf values).width := fun values v hv =>
    Nat.mul_le_mul_left 4 ((le_foldl_max (values.map String.length) 1).2 _ (List.mem_map_of_mem hv))
  rcases hms with _ | ⟨-, _ | ⟨-, _ | ⟨-, _ | ⟨hstates, _ | ⟨hinitial, hrest⟩⟩⟩⟩⟩
  simp only [List.map_cons, List.sum_cons] at hsum
  have hstates := length_texts_le hstates
  have hinitial := length_texts_le hinitial
  have hq' := hwidth a.states q hq
  rcases hlength : a.states with _ | ⟨p, _ | ⟨p', rest⟩⟩
  · simp [hlength] at hq
  · obtain ⟨i, hi⟩ := Option.isSome_iff_exists.1 (h.initial_isSome.2 (by simp [hlength]))
    have heq : i = q := by
      have hmem := h.initial_mem i hi
      rw [hlength, List.mem_singleton] at hmem hq
      rw [hmem, hq]
    have := hwidth a.initial.toList q (by simp [hi, heq])
    have hone : a.initial.toList.length = 1 := by simp [hi]
    rw [hlength, List.length_singleton, Nat.one_mul] at hstates
    rw [hlength] at hq'
    rw [hone, Nat.one_mul] at hinitial
    omega
  · have htwo : 2 * (NdArray.widthOf a.states).width
        ≤ a.states.length * (NdArray.widthOf a.states).width :=
      Nat.mul_le_mul_right _ (by simp [hlength])
    omega

lemma isStorable_row {values : List String}
    (hwide : ∀ v ∈ values, 4 * v.length ≤ ElementType.maxWidth)
    (hsize : values.length * (NdArray.widthOf values).width < byteBound 4) :
    (NdArray.row values).IsStorable := by
  refine isStorable_texts hwide (Nat.one_mul _) (by simp) hsize ?_
  rintro rfl
  decide

/-- **The arrays that were written can be read.** -/
lemma isStorable_of_mem_arrays (h : a.WellFormed) {bytes : List UInt8}
    (hbytes : encode a = some bytes) : ∀ entry ∈ arrays a, entry.2.IsStorable := by
  obtain ⟨ms, hms, hwrite⟩ := exists_members hbytes
  have hsum := sum_content_lt hwrite
  have hstate := length_state_le h hbytes
  have hsymbol : ∀ x ∈ a.symbols, 4 * x.length ≤ ElementType.maxWidth := by
    intro x hx
    obtain ⟨c, -, rfl⟩ := h.symbols_plain x hx
    rw [String.length_singleton]
    decide
  have htable : ∀ v ∈ a.transitions.flatMap fun t => [t.symbol, t.source, t.target],
      4 * v.length ≤ ElementType.maxWidth := by
    intro v hv
    obtain ⟨t, ht, hv⟩ := List.mem_flatMap.1 hv
    obtain ⟨hx, hsource, htarget⟩ := h.transitions_declared t ht
    simp only [List.mem_cons, List.not_mem_nil, or_false] at hv
    rcases hv with rfl | rfl | rfl
    · exact hsymbol _ hx
    · exact hstate _ hsource
    · exact hstate _ htarget
  have hcount : ∀ ts : List Transition, [ts.length, 3].foldl (· * ·) 1
      = (ts.flatMap fun t => [t.symbol, t.source, t.target]).length := by
    intro ts
    rw [List.length_flatMap]
    simp
  rcases hms with _ | ⟨-, _ | ⟨-, _ | ⟨hsymbols, _ | ⟨hstates, _ | ⟨hinitial, _ | ⟨hfinals,
    _ | ⟨htransitions, hrest⟩⟩⟩⟩⟩⟩⟩
  simp only [List.map_cons, List.sum_cons] at hsum
  have hsymbols := length_texts_le hsymbols
  have hstates := length_texts_le hstates
  have hinitial := length_texts_le hinitial
  have hfinals := length_texts_le hfinals
  have htransitions := length_texts_le htransitions
  intro entry hentry
  simp only [arrays, List.mem_cons, List.not_mem_nil, or_false] at hentry
  rcases hentry with rfl | rfl | rfl | rfl | rfl | rfl | rfl
  · exact isStorable_texts (by decide) rfl (by decide) (by decide) (by simp)
  · exact ⟨layoutOfText?_int64, by decide, by decide, by decide, by decide, rfl, by decide,
      by decide⟩
  · exact isStorable_row hsymbol (by omega)
  · exact isStorable_row hstate (by omega)
  · exact isStorable_row (fun q hq => hstate q (h.initial_mem q (Option.mem_toList.1 hq)))
      (by omega)
  · exact isStorable_row (fun q hq => hstate q (h.finals_subset q (mem_sorted.1 hq))) (by omega)
  · refine isStorable_texts htable (hcount a.transitions) (by simp) (by omega) fun hnil => ?_
    have hlength : a.transitions.length = 0 := by
      have := hcount a.transitions
      rw [hnil] at this
      simpa using this
    rw [hlength]
    decide

/-! ## Archives -/

lemma memberOf?_of_mem {members : List (String × Archive.Reading Contents)} {name : String}
    {content : Archive.Reading Contents} (hnodup : (members.map Prod.fst).Nodup)
    (hmem : (name ++ String.ofList memberSuffix, content) ∈ members)
    (hother : name ∉ members.map Prod.fst) : memberOf? members name = some content := by
  have hnone : members.reverse.lookup name = none := by
    rw [List.lookup_eq_none_iff]
    intro entry hentry
    rw [bne_iff_ne]
    rintro rfl
    exact hother (List.mem_map_of_mem (List.mem_reverse.1 hentry))
  have hsome : members.reverse.lookup (name ++ String.ofList memberSuffix) = some content := by
    obtain ⟨front, rest, heq⟩ := List.append_of_mem (List.mem_reverse.2 hmem)
    have hreverse : (members.reverse.map Prod.fst).Nodup := by
      rwa [List.map_reverse, List.nodup_reverse]
    rw [heq, List.map_append, List.map_cons] at hreverse
    refine List.lookup_eq_some_iff.2 ⟨front, rest, heq, fun entry hentry => ?_⟩
    rw [bne_iff_ne]
    intro hname
    exact (List.nodup_append.1 hreverse).2.2 _ (List.mem_map_of_mem hentry) _ List.mem_cons_self
      hname.symm
  rw [memberOf?, hnone]
  exact hsome

lemma isArrayFile_of_encode {x : NdArray} {bytes : List UInt8} (h : x.encode false = some bytes) :
    isArrayFile bytes = true := by
  rw [(encode_eq_some h).1]
  rfl

/-- Array files begin with a byte beyond ASCII, and a snapshot is an archive of them. -/
lemma mem_of_encode {bytes : List UInt8} (h : encode a = some bytes) : (0x93 : UInt8) ∈ bytes := by
  obtain ⟨ms, hms, hwrite⟩ := exists_members h
  rcases hms with _ | ⟨hm, -⟩
  refine mem_of_writeMembers hwrite List.mem_cons_self ?_
  rw [(encode_eq_some hm.2).1]
  exact List.mem_cons_self

lemma exists_of_forall₂ {α β : Type} {r : α → β → Prop} {xs : List α} {ys : List β}
    (h : List.Forall₂ r xs ys) {x : α} (hx : x ∈ xs) : ∃ y ∈ ys, r x y := by
  induction h with
  | nil => simp at hx
  | cons hr _ ih =>
    rcases List.mem_cons.1 hx with rfl | hx
    · exact ⟨_, List.mem_cons_self, hr⟩
    · obtain ⟨y, hy, hr⟩ := ih hx
      exact ⟨y, List.mem_cons_of_mem _ hy, hr⟩

lemma mapM_eq_ok {α β ε : Type} {f : α → Except ε β} {g : α → β} {xs : List α}
    (h : ∀ x ∈ xs, f x = .ok (g x)) : xs.mapM f = .ok (xs.map g) := by
  induction xs with
  | nil => rfl
  | cons x rest ih =>
    rw [List.mapM_cons, h x List.mem_cons_self, ih fun y hy => h y (List.mem_cons_of_mem x hy)]
    rfl

section

variable {ms : List Member} {bytes : List UInt8}

lemma map_name_of_forall₂ {entries : List (String × NdArray)}
    (h : List.Forall₂ IsMemberOf entries ms) :
    ms.map Member.name = (entries.map Prod.fst).map (· ++ String.ofList memberSuffix) := by
  induction h with
  | nil => rfl
  | cons hm _ ih => rw [List.map_cons, ih, hm.1]; rfl

/-- The members that are read are those that were written. -/
lemma readMembers_of_forall₂ (hms : List.Forall₂ IsMemberOf (arrays a) ms)
    (hwrite : writeMembers ms = some bytes) :
    readMembers bytes = .ok (ms.map fun m => (m.name, .ok (.plain m.content))) := by
  have hnames : ms.map Member.name = entryNames.map (· ++ String.ofList memberSuffix) :=
    map_name_of_forall₂ hms
  refine readMembers_writeMembers ?_ ?_ hwrite
  · have hascii : (entryNames.map (· ++ String.ofList memberSuffix)).all (fun name =>
        name.toList.all fun c => c != Char.ofNat 0 && c.toNat < 128) = true := by decide
    intro m hm c hc
    have hname := List.all_eq_true.1 hascii m.name (hnames ▸ List.mem_map_of_mem hm)
    simpa using List.all_eq_true.1 hname c hc
  · have hlast : (entryNames.map (· ++ String.ofList memberSuffix)).getLast?
        = some "transitions.npy" := by decide
    intro m hm
    have hname : m.name = "transitions.npy" := by
      rw [← hnames, List.getLast?_map, hm] at hlast
      exact Option.some.inj hlast
    rw [Member.nameBytes, hname]
    decide

/-- Every array is found by its name, in the member that it was written to. -/
lemma exists_memberOf? (hms : List.Forall₂ IsMemberOf (arrays a) ms) {entry : String × NdArray}
    (hentry : entry ∈ arrays a) :
    ∃ m, IsMemberOf entry m ∧
      memberOf? (ms.map fun m =>
          (m.name, (.ok (.plain m.content) : Archive.Reading Contents))) entry.1
        = some (.ok (.plain m.content)) := by
  obtain ⟨m, hmem, hm⟩ := exists_of_forall₂ hms hentry
  have hfst : (ms.map fun m =>
        (m.name, (.ok (.plain m.content) : Archive.Reading Contents))).map Prod.fst
      = entryNames.map (· ++ String.ofList memberSuffix) := by
    rw [List.map_map]
    exact map_name_of_forall₂ hms
  refine ⟨m, hm, memberOf?_of_mem ?_ ?_ ?_⟩
  · rw [hfst]
    decide
  · rw [← hm.1]
    exact List.mem_map.2 ⟨m, hmem, rfl⟩
  · have hother : ∀ name ∈ entryNames,
        name ∉ entryNames.map (· ++ String.ofList memberSuffix) := by decide
    rw [hfst]
    exact hother _ (List.mem_map_of_mem (f := Prod.fst) hentry)

/-- A member is read as the array that it was written from. -/
lemma entryOf_of_isMemberOf (h : a.WellFormed) (hbytes : encode a = some bytes)
    {entry : String × NdArray} (hentry : entry ∈ arrays a) {m : Member} (hm : IsMemberOf entry m) :
    entryOf (.plain m.content) = .ok (.array entry.2) := by
  have hexposed : (Contents.plain m.content).exposedBy [arraySignature.length] = false := rfl
  rw [entryOf, hexposed, if_neg Bool.false_ne_true,
    show (Contents.plain m.content).bytes = m.content from rfl, isArrayFile_of_encode hm.2,
    if_pos rfl, NdArray.read_encode (isStorable_of_mem_arrays h hbytes entry hentry) hm.2,
    stored_of_mem_arrays h entry hentry]
  rfl

/-- What asking for an array leads to, in an archive of some members. -/
def findIn (members : List (String × Archive.Reading Contents)) (name : String) :
    Option (Archive.Reading Entry) := (memberOf? members name).map (·.bind entryOf)

lemma openBuiltIn_of_isArchive {members : List (String × Archive.Reading Contents)}
    (harchive : isArchive bytes = true) (hmembers : readMembers bytes = .ok members) :
    openBuiltIn bytes = .ok (.archive (findIn members)) := by
  rw [openBuiltIn, harchive, hmembers]
  rfl

end

/-! ## Libraries -/

/-- **A library that keeps automata**: it opens what it wrote for one, and finds every array in it
as it was written. -/
def Library.KeepsAutomata (library : Library) : Prop :=
  ∀ {a : Automaton} {bytes : List UInt8}, a.WellFormed → library.write (arrays a) = some bytes →
    ∃ find?, library.openFile bytes = .ok (.archive find?) ∧
      ∀ entry ∈ arrays a, find? entry.1 = some (.ok (.array entry.2))

/-- The library that is built in does. -/
theorem Library.keepsAutomata_standard : Library.standard.KeepsAutomata := by
  intro a bytes h hbytes
  obtain ⟨ms, hms, hwrite⟩ := exists_members hbytes
  have harchive : isArchive bytes = true := by
    cases hms with
    | cons _ _ => rw [isArchive, isPrefixOf_of_writeMembers hwrite, Bool.true_or]
  refine ⟨_, openBuiltIn_of_isArchive harchive (readMembers_of_forall₂ hms hwrite), ?_⟩
  intro entry hentry
  obtain ⟨m, hm, hmemberOf⟩ := exists_memberOf? hms hentry
  rw [findIn, hmemberOf, Option.map_some]
  exact congrArg some (entryOf_of_isMemberOf h hbytes hentry hm)

variable {library : Library} {bytes : List UInt8}

/-- **The arrays of a file are those it was written from.** -/
lemma entriesOf_encode (hlibrary : library.KeepsAutomata) (h : a.WellFormed)
    (hbytes : encode a library = some bytes) (path : String) :
    entriesOf path bytes library = .ok ((arrays a).map fun (name, x) => (name, .array x)) := by
  obtain ⟨find?, hopen, hfind⟩ := hlibrary h hbytes
  have hfirst : entryNames = (arrays a).map Prod.fst := rfl
  have hmissing : (entryNames.filter fun name => (find? name).isNone) = [] := by
    rw [List.filter_eq_nil_iff]
    intro name hname
    obtain ⟨entry, hentry, rfl⟩ : ∃ entry ∈ arrays a, entry.1 = name :=
      List.mem_map.1 (hfirst ▸ hname)
    simp [hfind entry hentry]
  have hmapM : (arrays a).mapM (fun entry => do
      let e ← orElseError (.corrupt path) ((find? entry.1).getD .damaged)
      return (entry.1, e)) = .ok ((arrays a).map fun entry => (entry.1, .array entry.2)) := by
    refine mapM_eq_ok fun entry hentry => ?_
    rw [hfind entry hentry]
    rfl
  rw [entriesOf, hopen]
  show (if !(entryNames.filter fun name => (find? name).isNone).isEmpty then _ else _) = _
  rw [hmissing, hfirst, List.mapM_map]
  exact hmapM

/-- **Snapshots are read back from their files**: what comes back is the automaton that was written,
with its final states sorted. -/
theorem decode_encode (hlibrary : library.KeepsAutomata) (h : a.WellFormed)
    (hbytes : encode a library = some bytes) (path : String) :
    decode path bytes library = .ok { a with finals := sorted a.finals } := by
  rw [decode, entriesOf_encode hlibrary h hbytes]
  exact toAutomaton_arrays h

end Snapshot

end AutomatonShell
