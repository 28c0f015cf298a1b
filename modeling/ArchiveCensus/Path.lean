import ArchiveCensus.Text.Percent
import ArchiveCensus.Text.Search

/-!
# Paths

A path is where it starts and the components after that. Reading a path drops
empty components and single dots; double dots stay, because what they mean
depends on the disk. Exactly two leading slashes are a start of their own,
three or more are one.

## Main definitions

* `Path.parse`, `Path.toText`: Reading and writing.
* `Path.name`: The last component.
* `Path.absolute`: The path seen from a directory.
* `Path.toUrl?`: The path as a `file:` URL.
-/

namespace ArchiveCensus

/-- Where a path starts. -/
inductive Anchor where
  | here
  | root
  | doubleRoot
deriving DecidableEq

/-- A path in components. -/
structure Path where
  anchor : Anchor
  parts : List Text
deriving DecidableEq

namespace Anchor

/-- The slashes in front of the first component. -/
def slashes : Anchor → Text
  | here => []
  | root => "/"
  | doubleRoot => "//"

/-- The start that the leading slashes of a text denote. -/
def ofText (t : Text) : Anchor :=
  match (t.takeWhile fun c : CodePoint => c = '/').length with
  | 0 => here
  | 2 => doubleRoot
  | _ => root

end Anchor

namespace Path

/-- The current directory. -/
def current : Path :=
  ⟨.here, []⟩

/-- The components that count among the pieces between slashes. -/
def components (t : Text) : List Text :=
  (Text.pieces '/' t).filter fun p => p ≠ [] && p ≠ Text.ofString "."

/-- The path that a text denotes. -/
def parse (t : Text) : Path :=
  ⟨.ofText t, components t⟩

/-- The path in writing, a dot for the current directory. -/
def toText (p : Path) : Text :=
  match p.anchor, p.parts with
  | .here, [] => "."
  | anchor, parts => anchor.slashes ++ Text.joinWith "/" parts

/-- The last component, empty when there is none. -/
def name (p : Path) : Text :=
  p.parts.getLastD []

/-- The path one component further. -/
def child (p : Path) (component : Text) : Path :=
  { p with parts := p.parts ++ [component] }

/-- The path seen from the directory `base`. -/
def absolute (base p : Path) : Path :=
  match p.anchor with
  | .here => ⟨base.anchor, base.parts ++ p.parts⟩
  | _ => p

/-- The bytes that name one code point on disk. Surrogates `U+DC80` to `U+DCFF`
    stand for single bytes that are no UTF-8. -/
def diskBytes? (c : CodePoint) : Option (List UInt8) :=
  if 0xDC80 ≤ c.val ∧ c.val ≤ 0xDCFF then some [UInt8.ofNat (c.val - 0xDC00)]
  else if c.isSurrogate then none
  else some (Utf8.encodePoint c)

/-- The bytes that name a text on disk. -/
def encode? : Text → Option (List UInt8)
  | [] => some []
  | c :: cs =>
    match diskBytes? c, encode? cs with
    | some b, some bs => some (b ++ bs)
    | _, _ => none

/-- A component as disks list it: two texts with the same bytes name one thing,
    and disks list it without surrogates if they can. -/
def onDisk (component : Text) : Text :=
  if component.isScalar then component
  else ((encode? component).map Utf8.decodeEscaping).getD component

/-- What a path keeps literally in a URL. -/
def keptInUrl (c : CodePoint) : Bool :=
  c.isUnreserved || c = '/'

/-- The path as a `file:` URL, provided that disks can name it. -/
def toUrl? (p : Path) : Option Text :=
  (encode? p.toText).map fun bytes =>
    Text.ofString "file://" ++ Percent.encodeBytes keptInUrl bytes

end Path

end ArchiveCensus
