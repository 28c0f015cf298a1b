import ArchiveCensus.Properties

/-!
# Writing Property Files

The written forms of a list of pairs, as data: every choice that the format
leaves to a writer is a field. These are the indentation of a line, where a key
or a value turns to the next line and how far that one is indented, the
separator, the case of each hexadecimal digit, and the blank and comment lines
between the pairs. What the format forbids cannot be built, such as a comment
with a line end in it or white space as the separator after an empty key.

## Main definitions

* `Properties.Letter`: A code point below `0x10000` and its written form.
* `Properties.Word`: A key or a value with turns between its letters.
* `Properties.Separator`, `Properties.Entry`: What stands between key and
  value, and a pair on its line.
* `Properties.Row`, `Properties.write`, `Properties.pairs`: The lines of a
  content, its text, and the pairs written in it.
-/

namespace ArchiveCensus

namespace Properties

/-- Spaces and tabs, possibly none. -/
structure Gap where
  ink : Text
  blank : ∀ c ∈ ink, c = ' ' ∨ c = '\t'

/-- A digit of base sixteen, capital or not. -/
def digit (capital : Bool) (n : Nat) : CodePoint :=
  if capital then Text.hexDigitUpper n else Text.hexDigit n

/-- The digit of base sixteen at a place of a number below `0x10000`, counted
    from the highest. -/
def place (n : Nat) : Fin 4 → Nat
  | 0 => n / 4096 % 16
  | 1 => n / 256 % 16
  | 2 => n / 16 % 16
  | 3 => n % 16

/-- What is written after the backslash of a two-character escape. -/
def shortEscape? (c : CodePoint) : Option CodePoint :=
  if c = '\t' then some 't'
  else if c = '\n' then some 'n'
  else if c = '\r' then some 'r'
  else if c.val = 0xC then some 'f'
  else if c = backslash ∨ c = ' ' ∨ c = '=' ∨ c = ':' ∨ c = '#' ∨ c = '!' then some c
  else none

/-- A code point of the basic plane, and which of its four digits are capital
    where it is written with them. -/
structure Letter where
  code : CodePoint
  narrow : code.val < 0x10000
  capital : Fin 4 → Bool

def Letter.ink (l : Letter) : Text :=
  match shortEscape? l.code with
  | some c => [backslash, c]
  | none =>
    if 0x20 ≤ l.code.val ∧ l.code.val ≤ 0x7E then [l.code]
    else
      let d := fun i => digit (l.capital i) (place l.code.val i)
      [backslash, 'u', d 0, d 1, d 2, d 3]

example : (Letter.mk (.ofNat 0xE9) (by decide) fun i => i = 3).ink = Text.ofString "\\u00e9" ∧
    (Letter.mk (.ofNat 0xEB) (by decide) fun i => i = 3).ink = Text.ofString "\\u00eB" := by
  decide

/-- The end of a natural line inside a key or a value, and the white space in
    front of the next line. -/
def Gap.turn (g : Gap) : Text :=
  backslash :: CodePoint.ofChar '\n' :: g.ink

/-- A key or a value: nothing, or letters with any number of turns between two
    of them. -/
inductive Word
  | empty
  | spelled (first : Letter) (others : List (List Gap × Letter))

namespace Word

def letters : Word → List Letter
  | empty => []
  | spelled first others => first :: others.map Prod.snd

/-- What the word stands for. -/
def text (w : Word) : Text :=
  w.letters.map Letter.code

/-- The word without its turns. -/
def said (w : Word) : Text :=
  w.letters.flatMap Letter.ink

def ink : Word → Text
  | empty => []
  | spelled first others => first.ink ++ others.flatMap fun o => o.1.flatMap Gap.turn ++ o.2.ink

end Word

/-- What stands between a key and its value. -/
inductive Separator
  | marked (before : Gap) (colon : Bool) (after : Gap)
  | spaced (gap : Gap) (ne : gap.ink ≠ [])

namespace Separator

def mark (colon : Bool) : CodePoint :=
  if colon then ':' else '='

def ink : Separator → Text
  | marked before colon after => before.ink ++ mark colon :: after.ink
  | spaced gap _ => gap.ink

def isMarked : Separator → Bool
  | marked _ _ _ => true
  | spaced _ _ => false

end Separator

/-- A pair on a line of its own. White space alone cannot end an empty key. -/
structure Entry where
  indent : Gap
  key : Word
  separator : Separator
  value : Word
  apart : key = .empty → separator.isMarked = true

def Entry.ink (e : Entry) : Text :=
  e.indent.ink ++ e.key.ink ++ e.separator.ink ++ e.value.ink

/-- What is written between two line feeds. -/
inductive Row
  | entry (e : Entry)
  | comment (indent : Gap) (bang : Bool) (text : Text) (whole : ∀ c ∈ text, c.endsLine = false)
  | blank (text : Text) (white : ∀ c ∈ text, isSpace c = true ∨ c.endsLine = true)

namespace Row

def commentMark (bang : Bool) : CodePoint :=
  if bang then '!' else '#'

def ink : Row → Text
  | entry e => e.ink
  | comment indent bang text _ => indent.ink ++ commentMark bang :: text
  | blank text _ => text

def pair? : Row → Option (Text × Text)
  | entry e => some (e.key.text, e.value.text)
  | comment _ _ _ _ => none
  | blank _ _ => none

end Row

/-- The content that rows make up; a last empty row ends it with a line feed. -/
def write (rows : List Row) : Text :=
  Text.joinWith [CodePoint.ofChar '\n'] (rows.map Row.ink)

/-- The pairs in the order in which they are written. -/
def pairs (rows : List Row) : List (Text × Text) :=
  rows.filterMap Row.pair?

example :
    let a : Letter := ⟨'a', by decide, fun _ => false⟩
    let space : Letter := ⟨' ', by decide, fun _ => false⟩
    let none : Gap := ⟨[], by decide⟩
    let tab : Gap := ⟨['\t'], by decide⟩
    let key : Word := .spelled a [([tab, none], space)]
    write [.comment tab true [backslash] (by decide),
        .entry ⟨none, key, .marked none true tab, .empty, by simp [key]⟩, .blank [] (by decide)]
      = Text.ofString "\t!\\\na\\\n\t\\\n\\ :\t\n" := by
  decide

end Properties

end ArchiveCensus
