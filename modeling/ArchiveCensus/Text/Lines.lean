import ArchiveCensus.Text.Search

/-!
# Lines

`linesAt` is the splitter for any set of line ends; a carriage return followed
by a line feed counts as one end when the set holds both. The last line needs
no end, and an end at the very end of a text opens no further line.

## Main definitions

* `CodePoint.endsLine`: The Unicode line boundaries.
* `Text.linesAt`: The lines for a given set of line ends.
* `Text.lines`: The lines at Unicode boundaries.
* `Text.unifyLineEnds`: Every carriage return, alone or before a line feed, as
  a line feed.
-/

namespace ArchiveCensus

/-- A line boundary: line feed, vertical tab, form feed, carriage return, the
    separators `U+001C` to `U+001E`, next line, and the two Unicode
    separators. -/
def CodePoint.endsLine (c : CodePoint) : Bool :=
  let n := c.val
  (0xA ≤ n && n ≤ 0xD) || (0x1C ≤ n && n ≤ 0x1E) || n = 0x85 || n = 0x2028 || n = 0x2029

namespace Text

/-- One more code point at the front of the first line. -/
def growFirst (c : CodePoint) : List Text → List Text
  | [] => [[c]]
  | l :: ls => (c :: l) :: ls

/-- The lines of a text whose line ends are the code points in `ends`. -/
def linesAt (ends : CodePoint → Bool) : Text → List Text
  | [] => []
  | [c] => if ends c then [[]] else [[c]]
  | c :: d :: rest =>
    if ends c then
      if c = '\r' ∧ d = '\n' then [] :: linesAt ends rest
      else [] :: linesAt ends (d :: rest)
    else growFirst c (linesAt ends (d :: rest))

/-- The lines at Unicode line boundaries. -/
def lines (t : Text) : List Text :=
  linesAt CodePoint.endsLine t

/-- Line feeds in place of carriage returns, one for a pair. -/
def unifyLineEnds : Text → Text
  | [] => []
  | [c] => if c = '\r' then ['\n'] else [c]
  | c :: d :: rest =>
    if c = '\r' then
      if d = '\n' then CodePoint.ofChar '\n' :: unifyLineEnds rest
      else CodePoint.ofChar '\n' :: unifyLineEnds (d :: rest)
    else c :: unifyLineEnds (d :: rest)

end Text

end ArchiveCensus
