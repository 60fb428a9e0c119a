/-!
# Lines of a text file

A script is read in two steps.  First the three ways of writing a line end (LF, CR LF, CR) become
LF; then the text is cut at every line boundary.  A boundary is more than LF: form feeds, the
information separators and the Unicode line and paragraph separators end a line as well.

* `unifyNewlines` — CR LF and CR become LF.
* `lines` — the lines of a text, without their boundaries.
* `withoutFinalNewline` — a text without the one LF that may end it.
-/

namespace AutomatonShell.Text

/-- CR LF and a lone CR become LF. -/
def unifyNewlines : List Char → List Char
  | [] => []
  | '\r' :: '\n' :: rest => '\n' :: unifyNewlines rest
  | '\r' :: rest => '\n' :: unifyNewlines rest
  | c :: rest => c :: unifyNewlines rest

/-- The characters that end a line, once CR has become LF: LF, VT, FF, the file, group and record
separators, NEL, and the Unicode line and paragraph separators. -/
def isLineBoundary (c : Char) : Bool :=
  let n := c.toNat
  (10 ≤ n && n ≤ 13) || (28 ≤ n && n ≤ 30) || n == 0x85 || n == 0x2028 || n == 0x2029

/-- The lines of a text, without their boundaries.  A boundary at the very end ends the last line
and does not open an empty one, so an empty text has no lines. -/
def lines (text : List Char) : List (List Char) :=
  let pieces := text.splitOnP isLineBoundary
  if pieces.getLast? = some [] then pieces.dropLast else pieces

/-- A text without one LF at its very end. -/
def withoutFinalNewline (text : List Char) : List Char :=
  if text.getLast? = some '\n' then text.dropLast else text

end AutomatonShell.Text
