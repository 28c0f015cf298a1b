import ArchiveCensus.Text.Search

/-!
# Hosts in URLs

Which authority a URL may name. Brackets must come in pairs, and where there are
any the host must be an IPv6 address or an address of a later kind. No code point
outside ASCII may look like one of the marks that divide a URL.

## Main definitions

* `Host.isIpv4`, `Host.isIpv6`: Numeric addresses.
* `Host.bareHost?`: The host without its brackets.
* `Host.isSound`: An authority that a URL may name.
-/

namespace ArchiveCensus

namespace Host

/-- A part of a dotted address: up to three digits without a needless zero, at
    most 255. -/
def isOctet (t : Text) : Bool :=
  !t.isEmpty && t.all CodePoint.isDigit && t.length ≤ 3
    && !(t.length > 1 && t.head? = some '0')
    && t.foldl (fun n c => 10 * n + (c.val - 0x30)) 0 ≤ 255

/-- An address of four octets. -/
def isIpv4 (t : Text) : Bool :=
  let octets := Text.pieces '.' t
  octets.length = 4 && octets.all isOctet

/-- A group of an IPv6 address. -/
def isGroup (t : Text) : Bool :=
  !t.isEmpty && t.length ≤ 4 && t.all fun c => c.hexValue?.isSome

/-- The groups of an address with a dotted end written as two groups. -/
def unfoldDotted? (groups : List Text) : Option (List Text) :=
  match groups.getLast? with
  | none => none
  | some last =>
    if CodePoint.ofChar '.' ∈ last then
      if isIpv4 last then some (groups.dropLast ++ [Text.ofString "0", Text.ofString "0"])
      else none
    else some groups

/-- Groups on both sides of the one gap: an end that is empty belongs to the
    gap. -/
def fitAroundGap (before after : List Text) : Bool :=
  let before := if before = [[]] then [] else before
  let after := if after = [[]] then [] else after
  before.all isGroup && after.all isGroup && before.length + after.length ≤ 7

/-- The eight groups of an address, or fewer around one gap. -/
def areGroups (groups : List Text) : Bool :=
  let inner := (groups.drop 1).dropLast
  let gaps := inner.countP (·.isEmpty)
  if groups.length > 9 || gaps > 1 then false
  else if gaps = 0 then groups.length = 8 && groups.all isGroup
  else
    let at? := 1 + inner.findIdx (·.isEmpty)
    fitAroundGap (groups.take at?) (groups.drop (at? + 1))

/-- An IPv6 address, possibly with a zone after a percent sign. -/
def isIpv6 (t : Text) : Bool :=
  let address :=
    match Text.cutAt? '%' t with
    | none => some t
    | some (_, []) => none
    | some (a, zone) => if CodePoint.ofChar '%' ∈ zone then none else some a
  match address with
  | none => false
  | some a =>
    let groups := Text.pieces ':' a
    if groups.length < 3 then false
    else
      match unfoldDotted? groups with
      | none => false
      | some groups => areGroups groups

/-- An address of a later kind: `v`, a version in base sixteen, a dot and
    something more. -/
def isLaterAddress (t : Text) : Bool :=
  match t with
  | [] => false
  | c :: rest =>
    let version := rest.takeWhile fun d => d.hexValue?.isSome
    match rest.dropWhile fun d => d.hexValue?.isSome with
    | dot :: _ :: _ => c = 'v' && !version.isEmpty && dot = '.'
    | _ => false

/-- A host that is an address and no name. -/
def isNumeric (t : Text) : Bool :=
  if t.head? = some 'v' then isLaterAddress t else isIpv6 t

/-- Code points whose compatibility form holds a mark that divides a URL. -/
def looksLikeMark (c : CodePoint) : Bool :=
  [0x2047, 0x2048, 0x2049, 0x2100, 0x2101, 0x2105, 0x2106, 0x2A74, 0xFE13, 0xFE16, 0xFE55,
    0xFE56, 0xFE5F, 0xFE6B, 0xFF03, 0xFF0F, 0xFF1A, 0xFF1F, 0xFF20].contains c.val

/-- The host and the port of an authority: what follows the last `@`. -/
def hostAndPort (authority : Text) : Text :=
  (Text.pieces '@' authority).getLastD []

/-- The host before a port, without its brackets if it has any. Nothing may stand
    before an opening bracket, and only a port after a closing one. -/
def bareHost? (hostAndPort : Text) : Option Text :=
  match Text.cutAt? '[' hostAndPort with
  | none => some (hostAndPort.takeWhile fun c : CodePoint => c ≠ ':')
  | some (before, inside) =>
    let rest := (inside.dropWhile fun c : CodePoint => c ≠ ']').tail
    if before.isEmpty && (rest.isEmpty || rest.head? = some ':') then
      some (inside.takeWhile fun c : CodePoint => c ≠ ']')
    else none

/-- Brackets come in pairs, and an authority with brackets has a numeric host, in
    brackets or not. Nothing looks like a dividing mark. -/
def isSound (authority : Text) : Bool :=
  let opened := authority.contains '['
  let closed := authority.contains ']'
  opened == closed
    && (!opened || (bareHost? (hostAndPort authority)).any isNumeric)
    && !authority.any looksLikeMark

end Host

end ArchiveCensus
