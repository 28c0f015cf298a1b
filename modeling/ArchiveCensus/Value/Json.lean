import ArchiveCensus.Decimal.Reading
import ArchiveCensus.Text.Search
import ArchiveCensus.Text.Utf16
import ArchiveCensus.Value

/-!
# Values as JSON

Values in writing. Only printable ASCII is written as it is; all else in a text
is escaped, so that what is written survives any encoding, and surrogates
survive too. Numbers that are not whole are written exactly: a double is a whole
number over a power of two, so it has finitely many decimal digits.

Reading takes what writing gives and whatever else JSON allows. Two escapes that
form a pair of surrogates are one code point. A number with a point or a power is
a float, also when it is whole.

## Main definitions

* `Value.Layout`: In one line, or indented.
* `Value.render`: A value in writing.
* `Value.parse?`: The value that a text denotes.
-/

namespace ArchiveCensus

namespace Value

/-! ### Writing -/

/-- How lists and maps are laid out. -/
inductive Layout where
  /-- In one line. -/
  | oneLine
  /-- One item a line, indented by so many spaces for each level. -/
  | indented (width : Nat)
deriving DecidableEq

namespace Layout

/-- A new line at a depth, if there are lines. -/
def line : Layout → (depth : Nat) → Text
  | oneLine, _ => []
  | indented width, depth => CodePoint.ofChar '\n' :: List.replicate (width * depth) ' '

/-- What stands between two items at a depth. -/
def comma (l : Layout) (depth : Nat) : Text :=
  match l with
  | oneLine => ", "
  | indented _ => CodePoint.ofChar ',' :: l.line depth

end Layout

/-- A quotation mark. -/
def quoteMark : CodePoint := '\x22'

/-- A backslash. -/
def backslash : CodePoint := '\x5c'

/-- The letter that stands for a code point behind a backslash, if it has one. -/
def escapeLetter? (c : CodePoint) : Option CodePoint :=
  if c = quoteMark || c = backslash then some c
  else if c = '\n' then some 'n'
  else if c = '\r' then some 'r'
  else if c = '\t' then some 't'
  else if c.val = 8 then some 'b'
  else if c.val = 12 then some 'f'
  else none

/-- A code point inside quotation marks. -/
def escape (c : CodePoint) : Text :=
  match escapeLetter? c with
  | some letter => [backslash, letter]
  | none =>
    if 0x20 ≤ c.val && c.val ≤ 0x7E then [c]
    else
      (Utf16.unitsOf c).flatMap fun unit =>
        [backslash, CodePoint.ofChar 'u'] ++ Text.hex 4 unit

/-- A text in quotation marks. -/
def quote (t : Text) : Text :=
  quoteMark :: t.flatMap escape ++ [quoteMark]

/-- A float, exactly. -/
def renderFloat (x : Float) : Text :=
  if x.isNaN then "NaN"
  else if x.isInf then if x < 0 then "-Infinity" else "Infinity"
  else
    let (num, den) := Decimal.ratio x.abs
    let common := num.natAbs.gcd den
    let halvings := (den / common).log2
    let sign : Text := if x.toBits >>> 63 = 1 then "-" else []
    -- Each halving is five tenths.
    sign ++ Text.ofNat (num.natAbs / common * Nat.pow 5 halvings)
      ++ if halvings = 0 then Text.ofString ".0" else Text.ofString "e-" ++ Text.ofNat halvings

mutual

/-- A value in writing, at a depth. -/
def renderAt (l : Layout) (depth : Nat) : Value → Text
  | null => "null"
  | bool b => if b then "true" else "false"
  | int n => Text.ofInt n
  | float x => renderFloat x
  | text t => quote t
  | list [] => "[]"
  | list (x :: rest) =>
    CodePoint.ofChar '[' :: l.line (depth + 1) ++ renderAt l (depth + 1) x
      ++ renderItems l (depth + 1) rest ++ l.line depth ++ Text.ofString "]"
  | map [] => [CodePoint.ofChar '\x7b', CodePoint.ofChar '\x7d']
  | map ((k, x) :: rest) =>
    CodePoint.ofChar '\x7b' :: l.line (depth + 1) ++ quote k ++ Text.ofString ": "
      ++ renderAt l (depth + 1) x
      ++ renderFields l (depth + 1) rest ++ l.line depth ++ [CodePoint.ofChar '\x7d']

/-- The items of a list after the first. -/
def renderItems (l : Layout) (depth : Nat) : List Value → Text
  | [] => []
  | x :: rest => l.comma depth ++ renderAt l depth x ++ renderItems l depth rest

/-- The entries of a map after the first. -/
def renderFields (l : Layout) (depth : Nat) : List (Text × Value) → Text
  | [] => []
  | (k, x) :: rest =>
    l.comma depth ++ quote k ++ Text.ofString ": " ++ renderAt l depth x
      ++ renderFields l depth rest

end

/-- A value in writing. -/
def render (l : Layout) (v : Value) : Text :=
  renderAt l 0 v

/-! ### Reading -/

/-- White space between the parts of a value. -/
def isGap (c : CodePoint) : Bool :=
  c = ' ' || c = '\t' || c = '\n' || c = '\r'

/-- The rest after white space. -/
def skipGaps (t : Text) : Text :=
  t.dropWhile isGap

/-- What a letter behind a backslash stands for. -/
def unescapeLetter (c : CodePoint) : CodePoint :=
  if c = 'n' then '\n'
  else if c = 'r' then '\r'
  else if c = 't' then '\t'
  else if c = 'b' then .ofNat 8
  else if c = 'f' then .ofNat 12
  else c

/-- The number of hexadecimal digits. -/
def hexOf (digits : List CodePoint) : Nat :=
  digits.foldl (fun n c => 16 * n + c.hexValue?.getD 0) 0

/-- The text up to the closing quotation mark, and the rest. What was read
    before is held in reverse. -/
def readText (before : Text) : Text → Option (Text × Text)
  | [] => none
  | c :: rest =>
    if c = quoteMark then some (before.reverse, rest)
    else if c = backslash then
      match rest with
      | u :: a :: b :: x :: y :: rest =>
        if u = 'u' then readText (.ofNat (hexOf [a, b, x, y]) :: before) rest
        else readText (unescapeLetter u :: before) (a :: b :: x :: y :: rest)
      | u :: rest => readText (unescapeLetter u :: before) rest
      | [] => none
    else readText (c :: before) rest

/-- The text with each pair of surrogates as one code point. -/
def joinPairs : Text → Text
  | [] => []
  | [c] => [c]
  | c :: d :: rest =>
    if 0xD800 ≤ c.val ∧ c.val < 0xDC00 ∧ 0xDC00 ≤ d.val ∧ d.val < 0xE000 then
      .ofNat (0x10000 + (c.val - 0xD800) * 0x400 + (d.val - 0xDC00)) :: joinPairs rest
    else c :: joinPairs (d :: rest)

/-- What numbers are made of. -/
def isNumberPart (c : CodePoint) : Bool :=
  c.isDigit || c = '-' || c = '+' || c = '.' || c = 'e' || c = 'E'

/-- The value of a number in writing. -/
def numberOf? (t : Text) : Option Value :=
  let (negative, digits) := Decimal.cutSign t
  if digits.isEmpty then none
  else if digits.all CodePoint.isDigit then
    let n : Int := Decimal.natOf digits
    some (int (if negative then -n else n))
  else (Decimal.parse? negative digits).map fun d => float d.toFloat

/-- The values that are words. -/
def words : List (Text × Value) :=
  [(Text.ofString "null", null), (Text.ofString "true", bool true),
    (Text.ofString "false", bool false), (Text.ofString "NaN", float (0.0 / 0.0)),
    (Text.ofString "Infinity", float (1.0 / 0.0)),
    (Text.ofString "-Infinity", float (-1.0 / 0.0))]

/-- A word or a number at the front, and the rest. -/
def readAtom (t : Text) : Option (Value × Text) :=
  match words.findSome? fun w => (Text.afterStart? w.1 t).map fun rest => (w.2, rest) with
  | some found => some found
  | none =>
    (numberOf? (t.takeWhile isNumberPart)).map fun v => (v, t.dropWhile isNumberPart)

mutual

/-- The value at the front, and the rest. A call costs one, and there are at most
    two for each code point of the text. -/
def read : (fuel : Nat) → Text → Option (Value × Text)
  | 0, _ => none
  | fuel + 1, t =>
    match skipGaps t with
    | [] => none
    | c :: rest =>
      if c = quoteMark then (readText [] rest).map fun x => (text (joinPairs x.1), x.2)
      else if c = '[' then
        match skipGaps rest with
        | [] => none
        | d :: rest => if d = ']' then some (list [], rest) else readItems fuel [] (d :: rest)
      else if c = '\x7b' then
        match skipGaps rest with
        | [] => none
        | d :: rest => if d = '\x7d' then some (map [], rest) else readFields fuel [] (d :: rest)
      else readAtom (c :: rest)

/-- The items up to the end of a list. What was read before is held in reverse. -/
def readItems : (fuel : Nat) → List Value → Text → Option (Value × Text)
  | 0, _, _ => none
  | fuel + 1, before, t =>
    match read fuel t with
    | none => none
    | some (v, rest) =>
      match skipGaps rest with
      | [] => none
      | c :: rest =>
        if c = ',' then readItems fuel (v :: before) rest
        else if c = ']' then some (list (v :: before).reverse, rest)
        else none

/-- The entries up to the end of a map. What was read before is held in
    reverse. -/
def readFields : (fuel : Nat) → List (Text × Value) → Text → Option (Value × Text)
  | 0, _, _ => none
  | fuel + 1, before, t =>
    match read fuel t with
    | some (text k, rest) =>
      match skipGaps rest with
      | [] => none
      | c :: rest =>
        if c = ':' then
          match read fuel rest with
          | none => none
          | some (v, rest) =>
            match skipGaps rest with
            | [] => none
            | c :: rest =>
              if c = ',' then readFields fuel ((k, v) :: before) rest
              else if c = '\x7d' then some (map ((k, v) :: before).reverse, rest)
              else none
        else none
    | _ => none

end

/-- The value that a text denotes. -/
def parse? (t : Text) : Option Value :=
  match read (2 * t.length + 2) t with
  | some (v, rest) => if (skipGaps rest).isEmpty then some v else none
  | none => none

end Value

end ArchiveCensus
