/-!
# Inflating Deflated Data

A deflated stream is a sequence of blocks: stored ones, and compressed ones
whose symbols are written in two prefix codes. A symbol is a byte, the end of
the block, or the order to repeat bytes that came out before.

A prefix code is given by the lengths of its words alone. `PrefixCode.decode`
reads one bit after the other and keeps, for the length reached, the first word
of that length and how many symbols have shorter words.

An inflater can be handed its input in parts and asked for its output in parts.
So it is a machine that makes small steps, each of which reads something whole
or writes something, and it stops where it lacks input or room. It reads ahead of
what it writes: a symbol is read while there is no room for it, so damage right
behind the output that was asked for is noticed, and damage further on is not.

## Main definitions

* `PrefixCode`: A code by the lengths of its words.
* `Inflater`: A machine and how far it has come.
* `Inflater.step`: One step.
* `Inflater.run`: Steps up to a stop.
-/

namespace ArchiveCensus

namespace Archive

/-- Why inflating stops. -/
inductive Stop where
  /-- The input that was handed over is used up. -/
  | starved
  /-- There is no room for more output. -/
  | full
  /-- The stream breaks a rule. -/
  | broken
  /-- The last block is at its end. -/
  | finished
deriving DecidableEq

/-- Bytes with a position in bits, low bit first. Only the first `given` bytes have
    been handed over. -/
structure Bits where
  bytes : ByteArray
  given : Nat
  position : Nat

namespace Bits

/-- The next `n` bits as a number, the first one lowest. -/
def take (s : Bits) (n : Nat) : Except Stop (Nat × Bits) :=
  if s.position + n > 8 * s.given then .error .starved
  else
    let value := (List.range n).foldr
      (fun i v =>
        let at_ := s.position + i
        let byte := (s.bytes.get! (at_ / 8)).toNat
        2 * v + (byte >>> (at_ % 8)) % 2) 0
    .ok (value, { s with position := s.position + n })

/-- From the start of the next byte. -/
def align (s : Bits) : Bits :=
  { s with position := 8 * ((s.position + 7) / 8) }

end Bits

/-- A prefix code: how many words there are of each length, and the symbols in
    order of their words. -/
structure PrefixCode where
  counts : Array Nat
  symbols : Array Nat
  longest : Nat

namespace PrefixCode

/-- The longest word that the format allows. -/
def maxLength : Nat := 15

/-- The code whose `i`-th symbol has a word of the `i`-th length, and none if
    that is zero. -/
def ofLengths (lengths : List Nat) : PrefixCode :=
  let sizes := List.range (maxLength + 1)
  let symbols := (List.range lengths.length).zip lengths
  { counts := (sizes.map fun n => if n = 0 then 0 else lengths.count n).toArray
    symbols :=
      ((sizes.drop 1).flatMap fun n => (symbols.filter (·.2 = n)).map Prod.fst).toArray
    longest := lengths.foldl max 0 }

/-- The share of words of the greatest length that no symbol uses; negative if
    there are more words than fit. -/
def slack (c : PrefixCode) : Int :=
  (c.counts.toList.drop 1).foldl (fun (left : Int) (n : Nat) => 2 * left - n) 1

/-- Words fit, and none is left unless the longest has one bit. -/
def isSound (c : PrefixCode) : Bool :=
  c.slack = 0 || (c.slack > 0 && c.longest ≤ 1)

/-- Reads a word, having read `length` bits of it. -/
def decodeFrom (c : PrefixCode) :
    (fuel length word first index : Nat) → Bits → Except Stop (Nat × Bits)
  | 0, _, _, _, _, _ => .error .broken
  | fuel + 1, length, word, first, index, s =>
    match s.take 1 with
    | .error stop => .error stop
    | .ok (bit, s) =>
      let length := length + 1
      let word := 2 * word + bit
      let count := c.counts.getD length 0
      if word < first + count then .ok (c.symbols.getD (index + (word - first)) 0, s)
      else c.decodeFrom fuel length word (2 * (first + count)) (index + count) s

/-- The symbol of the next word. -/
def decode (c : PrefixCode) (s : Bits) : Except Stop (Nat × Bits) :=
  c.decodeFrom (max 1 c.longest) 0 0 0 0 s

end PrefixCode

/-- Smallest length and number of further bits of each length symbol. -/
def lengthTable : Array (Nat × Nat) :=
  #[(3, 0), (4, 0), (5, 0), (6, 0), (7, 0), (8, 0), (9, 0), (10, 0), (11, 1), (13, 1), (15, 1),
    (17, 1), (19, 2), (23, 2), (27, 2), (31, 2), (35, 3), (43, 3), (51, 3), (59, 3), (67, 4),
    (83, 4), (99, 4), (115, 4), (131, 5), (163, 5), (195, 5), (227, 5), (258, 0)]

/-- Smallest distance and number of further bits of each distance symbol. -/
def distanceTable : Array (Nat × Nat) :=
  #[(1, 0), (2, 0), (3, 0), (4, 0), (5, 1), (7, 1), (9, 2), (13, 2), (17, 3), (25, 3), (33, 4),
    (49, 4), (65, 5), (97, 5), (129, 6), (193, 6), (257, 7), (385, 7), (513, 8), (769, 8),
    (1025, 9), (1537, 9), (2049, 10), (3073, 10), (4097, 11), (6145, 11), (8193, 12),
    (12289, 12), (16385, 13), (24577, 13)]

/-- The number that a symbol and the bits after it denote. -/
def extended (table : Array (Nat × Nat)) (symbol : Nat) (s : Bits) : Except Stop (Nat × Bits) :=
  match table[symbol]? with
  | none => .error .broken
  | some (base, extra) => (s.take extra).map fun r => (base + r.1, r.2)

/-- The output with `length` bytes more, each a copy of the one `distance`
    before it. -/
def repeatBytes (output : ByteArray) (distance : Nat) : (length : Nat) → ByteArray
  | 0 => output
  | length + 1 =>
    repeatBytes (output.push (output.get! (output.size - distance))) distance length

/-- Length and distance of a repetition whose length symbol has been read. -/
def repetition (distances : PrefixCode) (symbol : Nat) (s : Bits) :
    Except Stop (Nat × Nat × Bits) :=
  match extended lengthTable symbol s with
  | .error stop => .error stop
  | .ok (length, s) =>
    match distances.decode s with
    | .error stop => .error stop
    | .ok (symbol, s) =>
      match extended distanceTable symbol s with
      | .error stop => .error stop
      | .ok (distance, s) => .ok (length, distance, s)

/-- The code of symbols that needs no description. -/
def fixedSymbols : PrefixCode :=
  .ofLengths (List.replicate 144 8 ++ List.replicate 112 9 ++ List.replicate 24 7
    ++ List.replicate 8 8)

/-- The code of distances that needs no description. -/
def fixedDistances : PrefixCode :=
  .ofLengths (List.replicate 32 5)

/-- The order in which the lengths of the describing code are written. -/
def describingOrder : List Nat :=
  [16, 17, 18, 0, 8, 7, 9, 6, 10, 5, 11, 4, 12, 3, 13, 2, 14, 1, 15]

/-- Reads `n` numbers of three bits. -/
def takeTriples : (n : Nat) → Bits → Except Stop (List Nat × Bits)
  | 0, s => .ok ([], s)
  | n + 1, s =>
    match s.take 3 with
    | .error stop => .error stop
    | .ok (v, s) => (takeTriples n s).map fun r => (v :: r.1, r.2)

/-- The code in which the lengths of the two other codes are described. A code
    without words reads every bit as the length zero. -/
def readDescribed (describing : PrefixCode) (s : Bits) : Except Stop (Nat × Bits) :=
  if describing.longest = 0 then (s.take 1).map fun r => (0, r.2) else describing.decode s

/-- Reads `total` lengths; `read` holds those read so far, the last one first. -/
def readLengths (describing : PrefixCode) (total : Nat) :
    (fuel : Nat) → List Nat → Bits → Except Stop (List Nat × Bits)
  | 0, read, s => .ok (read.reverse, s)
  | fuel + 1, read, s =>
    if read.length ≥ total then .ok (read.reverse, s)
    else
      match readDescribed describing s with
      | .error stop => .error stop
      | .ok (symbol, s) =>
        if symbol < 16 then readLengths describing total fuel (symbol :: read) s
        else
          let (base, extra) := if symbol = 16 then (3, 2) else if symbol = 17 then (3, 3) else (11, 7)
          match s.take extra with
          | .error stop => .error stop
          | .ok (more, s) =>
            let value? := if symbol = 16 then read.head? else some 0
            match value? with
            | none => .error .broken
            | some value =>
              if read.length + base + more > total then .error .broken
              else readLengths describing total fuel (List.replicate (base + more) value ++ read) s

/-- The two codes that a block describes before its symbols. -/
def readCodes (s : Bits) : Except Stop (PrefixCode × PrefixCode × Bits) :=
  match s.take 14 with
  | .error stop => .error stop
  | .ok (sizes, s) =>
    let symbols := sizes % 32 + 257
    let distances := sizes / 32 % 32 + 1
    let described := sizes / 1024 + 4
    if symbols > 286 ∨ distances > 30 then .error .broken
    else
      match takeTriples described s with
      | .error stop => .error stop
      | .ok (triples, s) =>
        let lengths := (List.range 19).map fun i =>
          (((describingOrder.zip triples).find? (·.1 = i)).map Prod.snd).getD 0
        let describing := PrefixCode.ofLengths lengths
        if describing.slack ≠ 0 ∧ describing.longest ≠ 0 then .error .broken
        else
          match readLengths describing (symbols + distances) (symbols + distances) [] s with
          | .error stop => .error stop
          | .ok (lengths, s) =>
            let symbolCode := PrefixCode.ofLengths (lengths.take symbols)
            let distanceCode := PrefixCode.ofLengths (lengths.drop symbols)
            if lengths.getD 256 0 = 0 then .error .broken
            else if !symbolCode.isSound || !distanceCode.isSound then .error .broken
            else .ok (symbolCode, distanceCode, s)

/-- What an inflater does next. -/
inductive Phase where
  /-- To read the head of a block, unless the last block is at its end. -/
  | head
  /-- To copy so many bytes from the input. -/
  | stored (left : Nat)
  /-- To read a symbol. -/
  | symbol
  /-- To write a byte. -/
  | byte (value : UInt8)
  /-- To repeat so many bytes. -/
  | repeating (distance left : Nat)

/-- A machine that inflates, and how far it has come. -/
structure Inflater where
  input : Bits
  phase : Phase := .head
  /-- The block is the last one. -/
  last : Bool := false
  /-- The codes of the block. -/
  symbols : PrefixCode := fixedSymbols
  distances : PrefixCode := fixedDistances
  output : ByteArray := .empty

namespace Inflater

/-- A machine at the start of a stream, to which nothing has been handed over. -/
def ofBytes (bytes : ByteArray) : Inflater :=
  { input := ⟨bytes, 0, 0⟩ }

/-- The head of a stored block: two copies of its length, one inverted. -/
def enterStored (s : Inflater) (input : Bits) : Except Stop Inflater :=
  match input.align.take 32 with
  | .error stop => .error stop
  | .ok (lengths, input) =>
    let length := lengths % 65536
    if lengths / 65536 ≠ 65535 - length then .error .broken
    else .ok { s with input, phase := .stored length }

/-- The head of a block with codes of its own. -/
def enterDescribed (s : Inflater) (input : Bits) : Except Stop Inflater :=
  match readCodes input with
  | .error stop => .error stop
  | .ok (symbols, distances, input) => .ok { s with input, symbols, distances, phase := .symbol }

/-- The head of a block: whether it is the last one, its kind, and what its kind
    says first. -/
def enterBlock (s : Inflater) : Except Stop Inflater :=
  match s.input.take 3 with
  | .error stop => .error stop
  | .ok (head, input) =>
    let s := { s with last := head % 2 = 1 }
    match head / 2 with
    | 0 => s.enterStored input
    | 1 =>
      .ok { s with
            input, phase := .symbol, symbols := fixedSymbols, distances := fixedDistances }
    | 2 => s.enterDescribed input
    | _ => .error .broken

/-- Reads a symbol, with length and distance if it asks for a repetition. -/
def readSymbol (s : Inflater) : Except Stop (Phase × Bits) :=
  match s.symbols.decode s.input with
  | .error stop => .error stop
  | .ok (symbol, input) =>
    if symbol < 256 then .ok (.byte (UInt8.ofNat symbol), input)
    else if symbol = 256 then .ok (.head, input)
    else
      match repetition s.distances (symbol - 257) input with
      | .error stop => .error stop
      | .ok (length, distance, input) => .ok (.repeating distance length, input)

/-- How many bytes there is room for, if the output may not grow beyond `cap`. -/
def room (cap : Nat) (s : Inflater) : Nat :=
  cap - s.output.size

/-- Copies bytes from the input, as many as there are and fit. -/
def copyStored (cap left : Nat) (s : Inflater) : Inflater × Option Stop :=
  let start := s.input.position / 8
  let n := min left (min (s.room cap) (s.input.given - start))
  if n = 0 then (s, some (if s.room cap = 0 then .full else .starved))
  else
    ({ s with
       output := s.input.bytes.copySlice start s.output s.output.size n
       input := { s.input with position := 8 * (start + n) }
       phase := .stored (left - n) }, none)

/-- Repeats bytes, as many as fit. They have to be there. -/
def copyBack (cap distance left : Nat) (s : Inflater) : Inflater × Option Stop :=
  let n := min left (s.room cap)
  if n = 0 then (s, some .full)
  else if distance > s.output.size then (s, some .broken)
  else
    ({ s with
       output := repeatBytes s.output distance n, phase := .repeating distance (left - n) }, none)

/-- One step with room for output up to `cap` bytes in all. -/
def step (cap : Nat) (s : Inflater) : Inflater × Option Stop :=
  match s.phase with
  | .head =>
    if s.last then (s, some .finished)
    else
      match s.enterBlock with
      | .error stop => (s, some stop)
      | .ok s => (s, none)
  | .stored 0 => ({ s with phase := .head }, none)
  | .stored left => s.copyStored cap left
  | .symbol =>
    match s.readSymbol with
    | .error stop => (s, some stop)
    | .ok (phase, input) => ({ s with phase, input }, none)
  | .byte value =>
    if s.room cap = 0 then (s, some .full)
    else ({ s with output := s.output.push value, phase := .symbol }, none)
  | .repeating _ 0 => ({ s with phase := .symbol }, none)
  | .repeating distance left => s.copyBack cap distance left

/-- Steps up to a stop, `fuel` at most. -/
def runFor (cap : Nat) : (fuel : Nat) → Inflater → Inflater × Stop
  | 0, s => (s, .starved)
  | fuel + 1, s =>
    match s.step cap with
    | (s, some stop) => (s, stop)
    | (s, none) => runFor cap fuel s

/-- Steps up to a stop, with the first `given` bytes of the input handed over. No
    bit of the input takes more than three steps. -/
def run (cap given : Nat) (s : Inflater) : Inflater × Stop :=
  let s := { s with input := { s.input with given } }
  s.runFor cap (24 * given + 8)

/-- How many bytes of the input have been used, if the machine stopped for such a
    reason. -/
def used (s : Inflater) : Stop → Nat
  | .starved => s.input.given
  | _ => (s.input.position + 7) / 8

end Inflater

end Archive

end ArchiveCensus
