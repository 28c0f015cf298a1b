import ArchiveCensus.Dictionary
import ArchiveCensus.Text.Lines
import ArchiveCensus.Text.Quoted

/-!
# Property Files

Four passes read a property file. The content is split into natural lines.
Natural lines are joined into logical ones: a line that ends in an odd number
of backslashes goes on in the next, and comments and empty lines only count
where no line is pending. A logical line is cut into key and value at the first
separator that no backslash escapes. Both are unescaped at last, so an escape
can never be mistaken for a separator.

## Main definitions

* `Properties.logicalLines`: Natural lines joined, comments dropped.
* `Properties.splitKey`: The key of a logical line and what follows it.
* `Properties.unescape`: Escapes resolved.
* `Properties.parse`: Keys and values of a content.
-/

namespace ArchiveCensus

namespace Properties

/-- The white space of the format: space, tab and form feed. -/
def isSpace (c : CodePoint) : Bool :=
  c = ' ' || c = '\t' || c.val = 0xC

/-- A line whose first code point is a comment mark. -/
def isComment (line : Text) : Bool :=
  line.head? = some '#' || line.head? = some '!'

/-- The number of backslashes at the end is odd. -/
def continues (line : Text) : Bool :=
  Text.trailingCount (· = backslash) line % 2 = 1

/-- Joins natural lines onto what is pending. -/
def joinLines : Option Text → List Text → List Text
  | none, [] => []
  | some pending, [] => [pending]
  | pending, raw :: rest =>
    let line := raw.dropWhile isSpace
    if pending.isNone && (line.isEmpty || isComment line) then joinLines none rest
    else if continues line then joinLines (some (pending.getD [] ++ line.dropLast)) rest
    else (pending.getD [] ++ line) :: joinLines none rest

/-- The logical lines among natural ones. -/
def logicalLines (natural : List Text) : List Text :=
  joinLines none natural

/-- A code point that ends a key. -/
def endsKey (c : CodePoint) : Bool :=
  c = '=' || c = ':' || isSpace c

/-- The key as it is written, and the rest of the line. An escaped code point
    never ends the key. -/
def splitKey : Text → Text × Text
  | [] => ([], [])
  | [c] => if c ≠ backslash ∧ endsKey c then ([], [c]) else ([c], [])
  | c :: d :: rest =>
    if c = backslash then
      let r := splitKey rest
      (c :: d :: r.1, r.2)
    else if endsKey c then ([], c :: d :: rest)
    else
      let r := splitKey (d :: rest)
      (c :: r.1, r.2)

/-- The value as it is written, given what follows the key: white space, at
    most one separator mark, and white space again are passed over. -/
def valueOf (afterKey : Text) : Text :=
  match afterKey.dropWhile isSpace with
  | [] => []
  | c :: rest => if c = '=' ∨ c = ':' then rest.dropWhile isSpace else c :: rest

/-- The number that four digits of base sixteen denote. -/
def hex4? (a b c d : CodePoint) : Option Nat :=
  match a.hexValue?, b.hexValue?, c.hexValue?, d.hexValue? with
  | some a, some b, some c, some d => some (a * 4096 + b * 256 + c * 16 + d)
  | _, _, _, _ => none

/-- What a backslash before `c` stands for; most code points stand for
    themselves. -/
def escaped (c : CodePoint) : CodePoint :=
  if c = 't' then '\t'
  else if c = 'n' then '\n'
  else if c = 'r' then '\r'
  else if c = 'f' then .ofNat 0xC
  else c

/-- Resolves the escapes of a key or a value. A `u` with four digits after it
    denotes a code point, surrogates included. -/
def unescape : Text → Text
  | [] => []
  | [c] => [c]
  | c :: d :: rest =>
    if c = backslash then
      if d = 'u' then
        match rest with
        | h1 :: h2 :: h3 :: h4 :: tail =>
          match hex4? h1 h2 h3 h4 with
          | some n => .ofNat n :: unescape tail
          | none => d :: unescape (h1 :: h2 :: h3 :: h4 :: tail)
        | short => d :: unescape short
      else escaped d :: unescape rest
    else c :: unescape (d :: rest)
termination_by t => t.length

/-- Key and value of a logical line. -/
def splitLine (line : Text) : Text × Text :=
  let parts := splitKey line
  (unescape parts.1, unescape (valueOf parts.2))

/-- The properties written on natural lines; a later value for a key wins. -/
def ofLines (natural : List Text) : Dictionary Text Text :=
  .ofPairs ((logicalLines natural).map splitLine)

/-- The properties of a content. -/
def parse (content : Text) : Dictionary Text Text :=
  ofLines content.lines

end Properties

end ArchiveCensus
