import ArchiveCensus.Text.PrintTable

/-!
# Quoted Texts

How a text is shown inside a message: between quotation marks, with escapes
for what cannot be printed. Apostrophes enclose the text unless it holds an
apostrophe and no double quotation mark.

## Main definitions

* `Text.quoted`: The text as a message shows it.
-/

namespace ArchiveCensus

def apostrophe : CodePoint := .ofNat 0x27

def quotationMark : CodePoint := .ofNat 0x22

def backslash : CodePoint := .ofNat 0x5C

namespace Text

/-- One code point inside quotation marks of the kind `mark`. -/
def escapeQuoted (mark c : CodePoint) : Text :=
  if c = mark ∨ c = backslash then [backslash, c]
  else if c = '\n' then [backslash, 'n']
  else if c = '\r' then [backslash, 'r']
  else if c = '\t' then [backslash, 't']
  else if Span.covers PrintTable.unprintableSpans c then
    if c.val < 0x100 then backslash :: .ofChar 'x' :: hex 2 c.val
    else if c.val < 0x10000 then backslash :: .ofChar 'u' :: hex 4 c.val
    else backslash :: .ofChar 'U' :: hex 8 c.val
  else [c]

/-- The mark that encloses a text. -/
def quoteMark (t : Text) : CodePoint :=
  if apostrophe ∈ t ∧ quotationMark ∉ t then quotationMark else apostrophe

/-- The text between quotation marks. -/
def quoted (t : Text) : Text :=
  let mark := quoteMark t
  mark :: t.flatMap (escapeQuoted mark) ++ [mark]

end Text

end ArchiveCensus
