import AutomatonShell.Proofs.Codecs
import AutomatonShell.Proofs.ListingText

/-!
# The bytes of a listing

A listing consists of ASCII characters, whatever the automaton: symbols and states are letters and
digits, perhaps with a newline behind a name, and so is everything that is made of them.  A codec
that keeps ASCII texts has these characters, so with such a codec **a listing can always be written
and is read back**.

* **`Automaton.WellFormed.isAscii_listingText`** — the lines of the listing of a well-formed
  automaton.
* `Automaton.WellFormed.emit_listingText`, `Automaton.WellFormed.decode_listingText` — what a codec
  makes of them that keeps ASCII texts.
-/

namespace AutomatonShell

lemma isAscii_of_isStateName {name : String} (h : isStateName name = true) :
    IsAscii name.toList := by
  obtain ⟨letters, -, hletters, htext⟩ := isStateName_iff.1 h
  have hascii : IsAscii letters := fun c hc => toNat_lt_of_isAlphanum (hletters c hc)
  rcases htext with htext | htext <;> rw [htext]
  · exact hascii
  · exact hascii.append (by simp [IsAscii])

lemma isAscii_clause {keyword between : String} {entries : List String}
    (hkeyword : IsAscii keyword.toList) (hbetween : IsAscii between.toList)
    (hentries : ∀ e ∈ entries, IsAscii e.toList) :
    ∀ line ∈ Automaton.clause keyword between entries, IsAscii line.toList := by
  intro line hline
  rw [Automaton.clause] at hline
  split_ifs at hline
  · simp at hline
  · rw [List.mem_singleton.1 hline]
    simp only [String.toList_append, String.toList_intercalate]
    refine ((hkeyword.append (by simp [IsAscii])).append ?_).append (by simp [IsAscii])
    intro c hc
    rcases mem_intercalate hc with hc | ⟨e, he, hc⟩
    · exact hbetween c hc
    · obtain ⟨entry, hentry, rfl⟩ := List.mem_map.1 he
      exact hentries entry hentry c hc

lemma Automaton.WellFormed.isAscii_listingText {a : Automaton} (h : a.WellFormed) :
    ∀ piece ∈ a.listingText.map String.toList, IsAscii piece := by
  have hstate : ∀ q ∈ a.states, IsAscii q.toList := fun q hq =>
    isAscii_of_isStateName (h.states_canonical q hq).1
  have hsymbol : ∀ x ∈ a.symbols, IsAscii x.toList := by
    intro x hx
    obtain ⟨c, hc, rfl⟩ := h.symbols_plain x hx
    refine isAscii_of_isStateName (isStateName_of_isSymbol ?_)
    exact isSymbol_singleton hc
  have htransition : ∀ t ∈ a.transitions, IsAscii t.text.toList := by
    intro t ht
    obtain ⟨hx, hsource, htarget⟩ := h.transitions_declared t ht
    simp only [Transition.text, String.toList_append]
    exact ((((hsymbol _ hx).append (by simp [IsAscii])).append (hstate _ hsource)).append
      (by simp [IsAscii])).append (hstate _ htarget)
  have hlines : ∀ line ∈ a.listing, IsAscii line.toList := by
    simp only [listing, List.forall_mem_append]
    refine ⟨⟨⟨⟨?_, ?_⟩, ?_⟩, ?_⟩, ?_⟩ <;>
      refine isAscii_clause (by simp [IsAscii]) (by simp [IsAscii]) ?_
    · exact fun x hx => hsymbol x (mem_sorted.1 hx)
    · exact fun q hq => hstate q (mem_sorted.1 hq)
    · exact fun q hq => hstate q (h.initial_mem q (Option.mem_toList.1 hq))
    · exact fun q hq => hstate q (h.finals_subset q (mem_sorted.1 hq))
    · intro text htext
      obtain ⟨t, ht, rfl⟩ := List.mem_map.1 htext
      exact htransition t ((sortedTransitions_perm a).mem_iff.1 ht)
  intro piece hpiece
  obtain ⟨written, hwritten, rfl⟩ := List.mem_map.1 hpiece
  obtain ⟨line, hline, rfl⟩ := List.mem_map.1 hwritten
  rw [String.toList_append]
  exact (hlines line hline).append (by simp [IsAscii])

namespace Automaton.WellFormed

variable {a : Automaton} {codec : Text.Codec}

/-- A listing is written to the end. -/
lemma emit_listingText (h : a.WellFormed) (hcodec : codec.KeepsAscii) :
    codec.emit (a.listingText.map String.toList)
      = (codec.written (a.listingText.map String.toList), false) :=
  Text.Codec.emit_eq_written (hcodec.expressed h.isAscii_listingText)

/-- A listing is read back. -/
lemma decode_listingText (h : a.WellFormed) (hcodec : codec.KeepsAscii) :
    codec.decode (codec.written (a.listingText.map String.toList))
      = .ok (a.listingText.map String.toList).flatten := hcodec.decode h.isAscii_listingText

end Automaton.WellFormed

end AutomatonShell
