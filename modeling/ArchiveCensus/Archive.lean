import ArchiveCensus.Archive.Entry
import ArchiveCensus.Text.CodePage
import ArchiveCensus.Text.Search
import ArchiveCensus.Text.Utf8

/-!
# Archives

Reading a zip archive: an end record at the back of the file tells where the
central directory lies, the directory lists the entries, and each entry points
to a local header in front of its data.

The end record is taken from the very end of the file if it has no comment, and
else from the last place in its reach that carries its mark. What the record
says of the directory's place may be off by a constant, for instance because
something was put in front of the archive; the directory then lies right before
the end record, and all places shift by the same amount.

An entry whose data would run into the next entry or into the directory is
refused. So is one whose local name differs from the name in the directory.

Archives with the records of the large format, for more than four gigabytes or
more than 65535 entries, are not read: their end record, the locator in front of
it and the extra field of an entry are left out, and the numbers in the ordinary
records are taken as they stand.

## Main definitions

* `Archive.open?`: The archive in the bytes of a file.
* `Archive.find?`: The entry of a name; the last one of several.
* `Archive.packed`: The packed bytes of an entry.
* `Archive.read`: The bytes of an entry.
-/

namespace ArchiveCensus

/-- An archive that can be read from. -/
structure Archive where
  bytes : ByteArray
  entries : List Archive.Entry
  /-- Where the central directory starts. -/
  directory : Nat

namespace Archive

/-- The byte at a place, zero outside. -/
def byteAt (b : ByteArray) (i : Nat) : Nat :=
  if h : i < b.size then b[i].toNat else 0

/-- A number of two bytes, the lower first. -/
def word16 (b : ByteArray) (i : Nat) : Nat :=
  byteAt b i + 256 * byteAt b (i + 1)

/-- A number of four bytes, the lowest first. -/
def word32 (b : ByteArray) (i : Nat) : Nat :=
  word16 b i + 65536 * word16 b (i + 2)

/-- The marks of an end record, a directory line and a local header. -/
def endMark : Nat := 0x06054B50

def lineMark : Nat := 0x02014B50

def headerMark : Nat := 0x04034B50

/-- Their sizes without what is variable in them. -/
def endSize : Nat := 22

def lineSize : Nat := 46

def headerSize : Nat := 30

/-- The last place in `[low, low + n)` that carries the mark of an end record. -/
def lastEndMark? (b : ByteArray) (low : Nat) : (n : Nat) → Option Nat
  | 0 => none
  | n + 1 =>
    if low + n + 4 ≤ b.size ∧ word32 b (low + n) = endMark then some (low + n)
    else lastEndMark? b low n

/-- Where the end record starts. -/
def endRecord? (b : ByteArray) : Option Nat :=
  if b.size < endSize then none
  else
    let last := b.size - endSize
    if word32 b last = endMark ∧ word16 b (last + 20) = 0 then some last
    else
      let low := b.size - (65536 + endSize)
      match lastEndMark? b low (b.size - low) with
      | none => none
      | some place => if place + endSize ≤ b.size then some place else none

/-- An extra field is a sequence of parts, each with its size in front; a rest
    of fewer than four bytes is ignored. -/
def extraIsSound (b : ByteArray) : (fuel : Nat) → Bool
  | 0 => true
  | fuel + 1 =>
    if b.size < 4 then true
    else
      let size := word16 b 2
      if size + 4 > b.size then false
      else extraIsSound (b.extract (size + 4) b.size) fuel

/-- A name in the character set that the flags announce. -/
def decodeName (flags : Nat) (bytes : ByteArray) : Except Fault Text :=
  if flags.testBit 11 then
    match Utf8.decode? bytes.toList with
    | some t => .ok t
    | none => .error .badName
  else .ok (codePage437 bytes.toList)

/-- The newest version of the format that is read. -/
def newestVersion : Nat := 63

/-- Reads the directory line at `place` of the directory bytes `d`; the start of
    the entry is moved by `shift`. The second component is the place after it. -/
def readLine (d : ByteArray) (shift : Int) (place : Nat) : Except Fault (Entry × Nat) :=
  if place + lineSize > d.size ∨ word32 d place ≠ lineMark then .error .damaged
  else
    let nameStart := place + lineSize
    let extraStart := nameStart + word16 d (place + 28)
    let commentStart := extraStart + word16 d (place + 30)
    let flags := word16 d (place + 8)
    match decodeName flags (d.extract nameStart extraStart) with
    | .error f => .error f
    | .ok fullName =>
      if byteAt d (place + 6) > newestVersion then .error .unsupported
      else
        let extra := d.extract extraStart commentStart
        if !extraIsSound extra (extra.size + 1) then .error .damaged
        else
          .ok ({ name := fullName.takeWhile fun c => c.val ≠ 0
                 fullName
                 flags
                 method := word16 d (place + 10)
                 checksum := word32 d (place + 16)
                 packedSize := word32 d (place + 20)
                 size := word32 d (place + 24)
                 start := word32 d (place + 42) + shift },
            commentStart + word16 d (place + 32))

/-- Reads directory lines until the directory is used up. -/
def readLines (d : ByteArray) (shift : Int) (size : Nat) :
    (fuel : Nat) → (place : Nat) → Except Fault (List Entry)
  | 0, _ => .ok []
  | fuel + 1, place =>
    if place ≥ size then .ok []
    else
      match readLine d shift place with
      | .error f => .error f
      | .ok (entry, next) => (readLines d shift size fuel next).map (entry :: ·)

/-- The archive in the bytes of a file. -/
def open? (b : ByteArray) : Except Fault Archive :=
  match endRecord? b with
  | none => .error .damaged
  | some place =>
    let size := word32 b (place + 12)
    let told := word32 b (place + 16)
    if place < size then .error .damaged
    else
      let directory := place - size
      (readLines (b.extract directory place) (place - size - told) size (size + 1) 0).map
        fun entries => { bytes := b, entries, directory }

/-- The names of the entries, in the order of the directory. -/
def names (a : Archive) : List Text :=
  a.entries.map Entry.name

/-- The entry of a name, the last one of several, with its number. -/
def find? (a : Archive) (name : Text) : Option (Nat × Entry) :=
  ((List.range a.entries.length).zip a.entries).reverse.find? fun e => e.2.name = name

/-- Where the data of the `i`-th entry has to end: where the next entry starts,
    or the directory. Of several entries with one start, only the first may have
    data at all. -/
def limit (a : Archive) (i : Nat) (e : Entry) : Int :=
  if (a.entries.take i).any fun x => x.start = e.start then e.start
  else
    let later := a.entries.filterMap fun x => if e.start < x.start then some x.start else none
    later.min?.getD a.directory

/-- Whether the local header at `start` belongs to the entry. -/
def checkHeader (a : Archive) (e : Entry) (start : Nat) : Except Fault Unit :=
  if start + headerSize > a.bytes.size ∨ word32 a.bytes start ≠ headerMark then .error .damaged
  else if e.flags.testBit 5 ∨ e.flags.testBit 6 then .error .unsupported
  else
    let nameStart := start + headerSize
    let name := a.bytes.extract nameStart (nameStart + word16 a.bytes (start + 26))
    match decodeName (word16 a.bytes (start + 6)) name with
    | .error f => .error f
    | .ok name => if name = e.fullName then .ok () else .error .damaged

/-- Where the data behind the local header at `start` begins, the end of the file
    at the latest. -/
def dataStart (a : Archive) (start : Nat) : Nat :=
  min a.bytes.size
    (start + headerSize + word16 a.bytes (start + 26) + word16 a.bytes (start + 28))

/-- The packed bytes of the `i`-th entry, as many as the file holds, unless the
    entry cannot be read at all. -/
def packed (a : Archive) (i : Nat) (e : Entry) : Except Fault ByteArray :=
  match e.start with
  | .negSucc _ => .error .misplaced
  | .ofNat start =>
    match checkHeader a e start with
    | .error f => .error f
    | .ok () =>
      let first := dataStart a start
      if (first + e.packedSize : Int) > a.limit i e then .error .damaged
      else if e.flags.testBit 0 then .error .encrypted
      else if e.method ≠ Entry.storedMethod ∧ e.method ≠ Entry.deflatedMethod then .error .unsupported
      else .ok (a.bytes.extract first (first + e.packedSize))

/-- The bytes of the `i`-th entry, asked for at once. -/
def read (a : Archive) (i : Nat) (e : Entry) : Except Fault ByteArray :=
  match a.packed i e with
  | .error f => .error f
  | .ok bytes => e.unpack .whole bytes

/-- The bytes of the entry of a name, if there is one. -/
def readNamed? (a : Archive) (name : Text) : Except Fault (Option ByteArray) :=
  match a.find? name with
  | none => .ok none
  | some (i, e) => (a.read i e).map some

end Archive

end ArchiveCensus
