import ArchiveCensus.Text.Search

/-!
# File Name Patterns

Patterns for one component of a path: a star for any text, a question mark for
any code point, brackets for one of several, and everything else for itself. A
bracket that is not closed is an ordinary code point.

## Main definitions

* `Pattern`, `Pattern.parse`: Patterns and how they are written.
* `Pattern.fits`: The pattern fits a whole component.
-/

namespace ArchiveCensus

/-- One element of a set in brackets. -/
structure Pattern.Range where
  first : CodePoint
  last : CodePoint

/-- One step of a pattern. -/
inductive Pattern.Step where
  | same (c : CodePoint)
  | one
  | many
  | among (negated : Bool) (ranges : List Pattern.Range)

/-- A pattern for a whole component. -/
abbrev Pattern := List Pattern.Step

namespace Pattern

/-- The elements of a set. A hyphen between two code points makes a range. -/
def rangesOf : Text → List Range
  | a :: h :: b :: rest =>
    if h = '-' then ⟨a, b⟩ :: rangesOf rest else ⟨a, a⟩ :: rangesOf (h :: b :: rest)
  | a :: rest => ⟨a, a⟩ :: rangesOf rest
  | [] => []

/-- The inside of a bracket and what follows it. A closing bracket in the first
    place belongs to the inside. -/
def cutSet? (t : Text) : Option (Bool × Text × Text) :=
  let negated := t.head? = some '!'
  let body := if negated then t.tail else t
  match body with
  | [] => none
  | c :: rest =>
    (Text.cutAt? ']' rest).map fun (inside, after) => (negated, c :: inside, after)

/-- Reads a pattern; `fuel` bounds the number of its steps. -/
def parseFrom : (fuel : Nat) → Text → Pattern
  | 0, _ => []
  | _ + 1, [] => []
  | fuel + 1, c :: rest =>
    if c = '*' then .many :: parseFrom fuel rest
    else if c = '?' then .one :: parseFrom fuel rest
    else if c = '[' then
      match cutSet? rest with
      | none => .same c :: parseFrom fuel rest
      | some (negated, inside, after) => .among negated (rangesOf inside) :: parseFrom fuel after
    else .same c :: parseFrom fuel rest

/-- The pattern that a text denotes. -/
def parse (t : Text) : Pattern :=
  parseFrom t.length t

/-- The code point is one of the elements. -/
def inRanges (ranges : List Range) (c : CodePoint) : Bool :=
  ranges.any fun r => r.first.val ≤ c.val && c.val ≤ r.last.val

/-- The pattern fits the whole text. -/
def fits : Pattern → Text → Bool
  | [], t => t.isEmpty
  | .many :: steps, [] => fits steps []
  | .many :: steps, c :: cs => fits steps (c :: cs) || fits (.many :: steps) cs
  | _ :: _, [] => false
  | .same d :: steps, c :: cs => c = d && fits steps cs
  | .one :: steps, _ :: cs => fits steps cs
  | .among negated ranges :: steps, c :: cs =>
    (inRanges ranges c != negated) && fits steps cs
termination_by p t => (p.length, t.length)

end Pattern

end ArchiveCensus
