import ArchiveCensus.Archive.Checksum
import ArchiveCensus.Archive.Inflate
import ArchiveCensus.Text.CodePoint

/-!
# Entries of Archives

An entry is a line of the directory of an archive, and packed bytes that stand
for its content. The line says how long the content is: no more is handed out,
and what the packed bytes hold beyond that is of no interest. The content may
also be shorter. Either way its checksum has to be the one in the line.

Of the methods of packing there are two, storing and deflating. Members that are
packed by bzip2 or LZMA are left out; they count as unsupported.

Whether a fault in the packed bytes is met depends on how the content is asked
for. Asked for as a whole, everything is unpacked. Asked for in pieces, unpacking
stops with the piece that completes the content, and faults further on are never
seen. Each piece takes packed bytes and room for as many bytes as are still
wanted, but never less than a block.

## Main definitions

* `Archive.Fault`: Why an archive or an entry cannot be read.
* `Archive.Entry`: One line of the central directory.
* `Archive.Manner`: As a whole or in pieces.
* `Archive.Entry.unpack`: The content that packed bytes stand for.
-/

namespace ArchiveCensus

namespace Archive

/-- Why an archive or an entry cannot be read. -/
inductive Fault where
  /-- The file is no archive, or a part of it is damaged. -/
  | damaged
  /-- An entry is said to lie before the start of the file. -/
  | misplaced
  /-- A feature of the format that is not supported. -/
  | unsupported
  /-- The entry is encrypted. -/
  | encrypted
  /-- A name that says it is UTF-8 is not. -/
  | badName
  /-- The compressed data break the rules of the format. -/
  | badData
  /-- The file ends before the data of an entry do. -/
  | truncated
deriving DecidableEq

/-- A line of the central directory. -/
structure Entry where
  /-- The name up to a NUL, by which the entry is looked up. -/
  name : Text
  /-- The whole name, as the local header repeats it. -/
  fullName : Text
  flags : Nat
  method : Nat
  checksum : Nat
  packedSize : Nat
  size : Nat
  /-- Where the local header starts. -/
  start : Int

namespace Entry

/-- The method of an entry whose packed bytes are its content. -/
def storedMethod : Nat := 0

/-- The method of an entry whose packed bytes are deflated. -/
def deflatedMethod : Nat := 8

end Entry

/-- How the content of an entry is asked for. -/
inductive Manner where
  | whole
  | pieces
deriving DecidableEq

/-- The greatest number of bytes that is asked for at once. -/
def Manner.request : Manner → Nat
  | whole => 1 <<< 30
  | pieces => 65536

/-- The least number of bytes that is taken or made at once. -/
def blockSize : Nat := 4096

/-- How far unpacking has come. -/
structure Unpacking where
  inflater : Inflater
  /-- How many packed bytes were used. -/
  used : Nat := 0
  /-- How many bytes are wanted. -/
  wanted : Nat

namespace Unpacking

/-- How many packed bytes were taken. -/
def taken (u : Unpacking) : Nat :=
  u.inflater.input.given

/-- How many packed bytes are taken next: enough to have as many as bytes are
    wanted, of the `total` that belong to the entry. -/
def portion (u : Unpacking) (total : Nat) : Nat :=
  if u.wanted ≤ u.taken - u.used then 0
  else min (max (u.wanted - (u.taken - u.used)) blockSize) (total - u.taken)

/-- What is wanted next if `made` bytes came out: the rest, or another piece less
    what came out beyond it. -/
def wantedAfter (u : Unpacking) (manner : Manner) (made : Nat) : Nat :=
  match manner with
  | .whole => manner.request
  | .pieces => if made < u.wanted then u.wanted - made else manner.request - (made - u.wanted)

/-- Unpacks up to `total` bytes, of which `available` are there, up to the end of
    the content, which comes after `size` bytes at the latest. -/
def finish (manner : Manner) (size total available : Nat) :
    (fuel : Nat) → Unpacking → Except Fault ByteArray
  | 0, u => .ok u.inflater.output
  | fuel + 1, u =>
    let portion := u.portion total
    let taken := min (u.taken + portion) available
    if portion > 0 ∧ taken ≤ u.taken then .error .truncated
    else
      let before := u.inflater.output.size
      match u.inflater.run (before + max u.wanted blockSize) taken with
      | (_, .broken) => .error .badData
      | (inflater, stop) =>
        let used := inflater.used stop
        let made := inflater.output.size - before
        if stop = .finished ∨ total ≤ taken ∧ taken ≤ used then
          -- What the last bits still stand for comes out, sound or not.
          .ok (inflater.run (inflater.output.size + size) taken).1.output
        else if size ≤ inflater.output.size then .ok inflater.output
        else finish manner size total available fuel ⟨inflater, used, u.wantedAfter manner made⟩

end Unpacking

namespace Entry

/-- What deflated bytes stand for. -/
def inflated (e : Entry) (manner : Manner) (bytes : ByteArray) : Except Fault ByteArray :=
  Unpacking.finish manner e.size e.packedSize bytes.size (2 * bytes.size + e.size + 4)
    { inflater := .ofBytes bytes, wanted := manner.request }

/-- What stored bytes stand for. If some are missing, either the rest completes the
    content or none is there to be taken. -/
def stored (e : Entry) (bytes : ByteArray) : Except Fault ByteArray :=
  if bytes.size < e.packedSize ∧ bytes.size < max 1 e.size then .error .truncated else .ok bytes

/-- The content that packed bytes stand for. -/
def unpack (e : Entry) (manner : Manner) (bytes : ByteArray) : Except Fault ByteArray :=
  match if e.method = storedMethod then e.stored bytes else e.inflated manner bytes with
  | .error f => .error f
  | .ok content =>
    let content := content.extract 0 e.size
    if (crc32 content).toNat = e.checksum then .ok content else .error .damaged

end Entry

end Archive

end ArchiveCensus
