import ArchiveCensus.Location.Host
import ArchiveCensus.Path

/-!
# Locations of Archives

Where an archive lies: in a file, named by a `file:` URL, or inside another
archive, named by a `jar:` URL with an outer path and an inner entry.

The nested form exists in two spellings, `outer!/inner` and `outer/!inner`. The
second is looked for first and anywhere in the text, so an entry whose own name
starts with an exclamation mark has to be spelled in the second form. A closing
`!/` after the entry is dropped.

## Main definitions

* `Location.Fault`: Why a URL names no archive.
* `Location.splitNested`: Outer path and inner entry of a nested URL.
* `Location.filePath`: The path that a `file:` URL names.
* `Location.toUrl?`: A path as a URL; URLs stay as they are.
-/

namespace ArchiveCensus

namespace Location

/-- Why a URL names no archive. -/
inductive Fault where
  /-- The scheme is not one that leads to an archive. -/
  | unsupported (url : Text)
  /-- A nested URL does not say where the entry starts. -/
  | noSeparator (url : Text)
  /-- A nested URL has nothing on one side of the separator. -/
  | incomplete (url : Text)
  /-- The URL cannot be taken apart at all. -/
  | notUrl
deriving DecidableEq

/-- The wording of a fault; the last one has none of its own. -/
def Fault.message : Fault → Text
  | .unsupported url => Text.ofString "Unsupported archive URL scheme: " ++ url
  | .noSeparator url => Text.ofString "nested archive URL has no '!/' separator: " ++ url
  | .incomplete url => Text.ofString "nested archive URL is incomplete: " ++ url
  | .notUrl => []

/-- The beginnings of nested URLs, a longer one before its own start. -/
def nestedStarts : List Text :=
  ["jar:nested:file:", "jar:nested:", "jar:file:"]

/-- What follows the first beginning that fits. -/
def afterNestedStart? (url : Text) : Option Text :=
  nestedStarts.findSome? fun start => Text.afterStart? start url

/-- The sides of the separator between outer path and inner entry. -/
def cutNested? (rest : Text) : Option (Text × Text) :=
  (Text.cut? "/!" rest).or (Text.cut? "!/" rest)

/-- The entry without a closing `!/`. -/
def dropClosing (inner : Text) : Text :=
  if inner.endsWith "!/" then inner.take (inner.length - 2) else inner

/-- Outer path and inner entry of a nested URL. -/
def splitNested (url : Text) : Except Fault (Text × Text) :=
  match afterNestedStart? url with
  | none => .error (.unsupported url)
  | some rest =>
    match cutNested? rest with
    | none => .error (.noSeparator url)
    | some (outer, inner) =>
      let inner := dropClosing inner
      if outer.isEmpty || inner.isEmpty then .error (.incomplete url)
      else .ok (Percent.decode outer, Percent.decode inner)

/-- A URL begins after control characters and spaces, and holds no tab and no
    line end. -/
def tidy (url : Text) : Text :=
  (url.dropWhile fun c : CodePoint => c.val ≤ 0x20).filter fun c => c ≠ '\t' && c ≠ '\r' && c ≠ '\n'

/-- A letter, a digit or one of three marks. -/
def isSchemeMark (c : CodePoint) : Bool :=
  c.isAlphanumeric || c = '+' || c = '-' || c = '.'

/-- The scheme in lower case, empty if there is none, and what follows it. -/
def splitScheme (url : Text) : Text × Text :=
  match Text.cutAt? ':' url with
  | some (c :: cs, rest) =>
    if c.isLetter && (c :: cs).all isSchemeMark then ((c :: cs).map CodePoint.lowerAscii, rest)
    else ([], url)
  | _ => ([], url)

/-- A mark that ends an authority. -/
def endsAuthority (c : CodePoint) : Bool :=
  c = '/' || c = '?' || c = '#'

/-- The authority, empty if there is none, and what follows it. -/
def splitAuthority (t : Text) : Text × Text :=
  match Text.afterStart? "//" t with
  | none => ([], t)
  | some rest => (rest.takeWhile (!endsAuthority ·), rest.dropWhile (!endsAuthority ·))

/-- The path of a `file:` URL: what stands between the authority and a query or
    a fragment, unescaped. -/
def filePath (url : Text) : Except Fault Path :=
  let (scheme, afterScheme) := splitScheme (tidy url)
  let (authority, afterAuthority) := splitAuthority afterScheme
  if !Host.isSound authority then .error .notUrl
  else if scheme ≠ Text.ofString "file" then .error (.unsupported url)
  else
    let path := afterAuthority.takeWhile fun c : CodePoint => c ≠ '#' && c ≠ '?'
    .ok (.parse (Percent.decode path))

/-- The beginnings by which a text is taken for a URL. -/
def isUrl (t : Text) : Bool :=
  t.startsWith "file:" || t.startsWith "jar:"

/-- A URL for a path seen from the directory `base`, and a URL unchanged. -/
def toUrl? (base : Path) (entry : Text) : Option Text :=
  if isUrl entry then some entry else (Path.absolute base (Path.parse entry)).toUrl?

end Location

end ArchiveCensus
