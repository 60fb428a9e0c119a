/-!
# Cutting a line at a marker

A comment runs from the first occurrence of its marker to the end of the line.

* `beforeMarker` — the text in front of the first occurrence of a marker.
-/

namespace AutomatonShell.Text

/-- The text in front of the first occurrence of a marker; the whole text if it does not occur. -/
def beforeMarker (marker : List Char) : List Char → List Char
  | [] => []
  | c :: rest => if marker.isPrefixOf (c :: rest) then [] else c :: beforeMarker marker rest

/-- What stands in front of a marker begins the text. -/
theorem beforeMarker_isPrefix (marker text : List Char) : beforeMarker marker text <+: text := by
  induction text with
  | nil => simp [beforeMarker]
  | cons c rest ih =>
    unfold beforeMarker
    split
    · exact ⟨_, List.nil_append _⟩
    · exact List.cons_prefix_cons.2 ⟨rfl, ih⟩

end AutomatonShell.Text
