/-!
# Blanks, stripping and words

Commands are cut into words at blanks.  A blank is any character with the Unicode property
White_Space, and the four information separators U+001C to U+001F besides.

* `isBlank` — the class itself.
* `strip`, `stripEnd` — a text without the blanks around it, or behind it.
* `words` — the maximal runs of characters that are not blank.
-/

namespace AutomatonShell.Text

/-- The blank characters: White_Space, and the information separators U+001C to U+001F. -/
def isBlank (c : Char) : Bool :=
  let n := c.toNat
  (9 ≤ n && n ≤ 13) || (28 ≤ n && n ≤ 32) || n == 0x85 || n == 0xA0 || n == 0x1680
    || (0x2000 ≤ n && n ≤ 0x200A) || n == 0x2028 || n == 0x2029 || n == 0x202F || n == 0x205F
    || n == 0x3000

/-- A text without the longest run of characters of one class at its end. -/
def dropEndWhile (p : Char → Bool) (text : List Char) : List Char :=
  (text.reverse.dropWhile p).reverse

/-- A text without the blanks behind it. -/
def stripEnd (text : List Char) : List Char := dropEndWhile isBlank text

/-- A text without the blanks around it. -/
def strip (text : List Char) : List Char := stripEnd (text.dropWhile isBlank)

/-- The words of a text: its maximal runs of characters that are not blank, in order. -/
def words (text : List Char) : List (List Char) :=
  (text.splitOnP isBlank).filter fun word => !word.isEmpty

/-- No word is empty: neighbouring blanks leave nothing between them. -/
theorem ne_nil_of_mem_words {text word : List Char} (h : word ∈ words text) : word ≠ [] := by
  intro hw
  simp [words, hw] at h

end AutomatonShell.Text
