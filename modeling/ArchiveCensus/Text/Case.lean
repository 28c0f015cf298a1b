import ArchiveCensus.Text.CaseTable

/-!
# Letter Case

Full Unicode case mapping without regard to a language. Only two things go
beyond a table look-up. A capital sigma that ends a word turns into the final
form, where "ends a word" asks for a cased code point before it and none after
it, looking through case-ignorable ones. And some code points grow: the dotted
capital I in lower case, many ligatures in upper case.

## Main definitions

* `Text.lower`: A text in lower case.
* `Text.upper`: A text in upper case.
-/

namespace ArchiveCensus

namespace Text

/-- The nearest code point that counts for case is cased. -/
def nextIsCased (t : Text) : Bool :=
  match t.dropWhile (Span.covers CaseTable.caseIgnorableSpans) with
  | [] => false
  | c :: _ => Span.covers CaseTable.casedSpans c

/-- One code point in lower case, a sigma as inside a word. -/
def lowerPoint (c : CodePoint) : Text :=
  if c.val = 0x130 then [.ofChar 'i', .ofNat 0x307]
  else [(Shift.image? CaseTable.lowerShifts c).getD c]

/-- Lower case of what follows `before`, which is held in reverse. -/
def lowerFrom (before : Text) : Text → Text
  | [] => []
  | c :: rest =>
    let image :=
      if c.val = 0x3A3 then
        [.ofNat (if nextIsCased before && !nextIsCased rest then 0x3C2 else 0x3C3)]
      else lowerPoint c
    image ++ lowerFrom (c :: before) rest

/-- A text in lower case. -/
def lower (t : Text) : Text :=
  lowerFrom [] t

/-- One code point in upper case. -/
def upperPoint (c : CodePoint) : Text :=
  match CaseTable.upperExpansions.find? (·.1 == c.val) with
  | some (_, image) => image.map CodePoint.ofNat
  | none => [(Shift.image? CaseTable.upperShifts c).getD c]

/-- A text in upper case. -/
def upper (t : Text) : Text :=
  t.flatMap upperPoint

end Text

end ArchiveCensus
