/-
# Compressed data

Objects are stored in the compressed form of RFC 1951, in the frame of RFC 1950.
It is a row of blocks, which hold bytes as they are or codes for bytes and for
repetitions of earlier bytes. Bits are taken from each byte from the lowest on.
A code is given by the lengths of its words: the words of a length follow each
other in the order of their symbols, behind all shorter words. Every step of
reading takes at least one bit, so the length of the data bounds the steps.
-/

namespace VersionTrail.Storage

/-- Data, and the number of bits in front of the next one. -/
structure BitReader where
  data : ByteArray
  position : Nat

namespace BitReader

/-- Reads a bit. -/
def bit? (r : BitReader) : Option (Nat × BitReader) :=
  r.data[r.position / 8]?.map fun byte =>
    ((byte.toNat >>> (r.position % 8)) % 2, { r with position := r.position + 1 })

/-- Reads a number of some bits, the lowest one first. -/
def number? : Nat → BitReader → Option (Nat × BitReader)
  | 0, r => some (0, r)
  | n + 1, r => do
    let (low, r) ← r.bit?
    let (high, r) ← number? n r
    some (2 * high + low, r)

/-- Skips the rest of a byte that was read in part. -/
def align (r : BitReader) : BitReader :=
  { r with position := (r.position + 7) / 8 * 8 }

/-- A bound on the steps of reading. -/
def bound (r : BitReader) : Nat :=
  8 * r.data.size - r.position + 1

end BitReader

/-- A code. -/
structure Code where
  /-- How many words there are of each length, from one bit on. -/
  counts : List Nat
  /-- The symbols in the order of their words. -/
  symbols : Array Nat

/-- The lengths that a word can have. -/
def wordLengths : List Nat :=
  List.range' 1 15

namespace Code

/-- The code in which each symbol has a word of the given length, and none if
the length is zero. -/
def ofLengths (lengths : List Nat) : Code where
  counts := wordLengths.map fun n => lengths.count n
  symbols := (wordLengths.flatMap fun n =>
    (lengths.zipIdx.filter fun p => p.1 == n).map Prod.snd).toArray

/-- Reads a word bit by bit. `word` is what was read, `first` the first word of
the present length, and `index` the number of all shorter words. -/
def readWord (symbols : Array Nat) :
    List Nat → (word first index : Nat) → BitReader → Option (Nat × BitReader)
  | [], _, _, _, _ => none
  | count :: counts, word, first, index, r => do
    let (b, r) ← r.bit?
    let word := 2 * word + b
    if word < first + count then (symbols[index + (word - first)]?).map fun symbol => (symbol, r)
    else readWord symbols counts word (2 * (first + count)) (index + count) r

/-- Reads a symbol. -/
def symbol? (c : Code) (r : BitReader) : Option (Nat × BitReader) :=
  readWord c.symbols c.counts 0 0 0 r

end Code

/-- A number that is given by the start of a range and by some bits more. -/
def ranged? (ranges : Array (Nat × Nat)) (symbol : Nat) (r : BitReader) :
    Option (Nat × BitReader) := do
  let (start, bits) ← ranges[symbol]?
  let (more, r) ← r.number? bits
  some (start + more, r)

/-- The ranges of the lengths of repetitions. -/
def lengthRanges : Array (Nat × Nat) :=
  #[(3, 0), (4, 0), (5, 0), (6, 0), (7, 0), (8, 0), (9, 0), (10, 0), (11, 1), (13, 1), (15, 1),
    (17, 1), (19, 2), (23, 2), (27, 2), (31, 2), (35, 3), (43, 3), (51, 3), (59, 3), (67, 4),
    (83, 4), (99, 4), (115, 4), (131, 5), (163, 5), (195, 5), (227, 5), (258, 0)]

/-- The ranges of the distances to what is repeated. -/
def distanceRanges : Array (Nat × Nat) :=
  #[(1, 0), (2, 0), (3, 0), (4, 0), (5, 1), (7, 1), (9, 2), (13, 2), (17, 3), (25, 3), (33, 4),
    (49, 4), (65, 5), (97, 5), (129, 6), (193, 6), (257, 7), (385, 7), (513, 8), (769, 8),
    (1025, 9), (1537, 9), (2049, 10), (3073, 10), (4097, 11), (6145, 11), (8193, 12), (12289, 12),
    (16385, 13), (24577, 13)]

/-- Appends `n` bytes, each of which repeats the one that stands at a distance
in front of it. -/
def repeatBytes (distance : Nat) : Nat → ByteArray → Option ByteArray
  | 0, out => some out
  | n + 1, out =>
    if distance = 0 ∨ out.size < distance then none
    else
      match out[out.size - distance]? with
      | some b => repeatBytes distance n (out.push b)
      | none => none

/-- Appends the bytes of a block of codes, in at most `n` steps. -/
def codedBytes (literals distances : Code) :
    Nat → BitReader → ByteArray → Option (ByteArray × BitReader)
  | 0, _, _ => none
  | n + 1, r, out => do
    let (symbol, r) ← literals.symbol? r
    if symbol < 256 then codedBytes literals distances n r (out.push symbol.toUInt8)
    else if symbol = 256 then some (out, r)
    else
      let (length, r) ← ranged? lengthRanges (symbol - 257) r
      let (near, r) ← distances.symbol? r
      let (distance, r) ← ranged? distanceRanges near r
      let out ← repeatBytes distance length out
      codedBytes literals distances n r out

/-- Appends `n` bytes as they are. -/
def plainBytes : Nat → BitReader → ByteArray → Option (ByteArray × BitReader)
  | 0, r, out => some (out, r)
  | n + 1, r, out => do
    let (b, r) ← r.number? 8
    plainBytes n r (out.push b.toUInt8)

/-- Reads lengths of words up to a count, which are coded as well; some symbols
stand for repetitions. The last length comes first. -/
def readLengths (code : Code) (count : Nat) :
    Nat → BitReader → List Nat → Option (List Nat × BitReader)
  | 0, _, _ => none
  | n + 1, r, lengths =>
    if count ≤ lengths.length then if lengths.length = count then some (lengths, r) else none
    else do
      let (symbol, r) ← code.symbol? r
      if symbol < 16 then readLengths code count n r (symbol :: lengths)
      else if symbol = 16 then
        let (more, r) ← r.number? 2
        let last ← lengths.head?
        readLengths code count n r (List.replicate (3 + more) last ++ lengths)
      else
        let (more, r) ← if symbol = 17 then ranged? #[(3, 3)] 0 r else ranged? #[(11, 7)] 0 r
        readLengths code count n r (List.replicate more 0 ++ lengths)

/-- The order in which the lengths of the words for lengths are given. -/
def lengthOrder : List Nat :=
  [16, 17, 18, 0, 8, 7, 9, 6, 10, 5, 11, 4, 12, 3, 13, 2, 14, 1, 15]

/-- Reads some numbers of three bits. -/
def tripleBits : Nat → BitReader → Option (List Nat × BitReader)
  | 0, r => some ([], r)
  | n + 1, r => do
    let (x, r) ← r.number? 3
    let (xs, r) ← tripleBits n r
    some (x :: xs, r)

/-- Reads the two codes at the front of a block. -/
def readCodes (r : BitReader) : Option ((Code × Code) × BitReader) := do
  let (literalCount, r) ← r.number? 5
  let (distanceCount, r) ← r.number? 5
  let (lengthCount, r) ← r.number? 4
  let (given, r) ← tripleBits (lengthCount + 4) r
  let pairs := lengthOrder.zip given
  let code := Code.ofLengths ((List.range 19).map fun symbol => (pairs.lookup symbol).getD 0)
  let count := literalCount + 257 + (distanceCount + 1)
  let (backwards, r) ← readLengths code count (count + 1) r []
  let (literals, distances) := backwards.reverse.splitAt (literalCount + 257)
  some ((.ofLengths literals, .ofLengths distances), r)

/-- The two codes of blocks that give none. -/
def usualCodes : Code × Code :=
  (.ofLengths (List.replicate 144 8 ++ List.replicate 112 9 ++ List.replicate 24 7 ++
      List.replicate 8 8),
    .ofLengths (List.replicate 30 5))

/-- Appends the bytes of a block of a kind. -/
def blockBytes (kind : Nat) (r : BitReader) (out : ByteArray) : Option (ByteArray × BitReader) :=
  match kind with
  | 0 => do
    let (count, r) ← r.align.number? 16
    let (inverse, r) ← r.number? 16
    if count + inverse = 65535 then plainBytes count r out else none
  | 1 => codedBytes usualCodes.1 usualCodes.2 r.bound r out
  | 2 => do
    let (codes, r) ← readCodes r
    codedBytes codes.1 codes.2 r.bound r out
  | _ => none

/-- Appends the bytes of all blocks, of which there are at most `n`. -/
def blocksBytes : Nat → BitReader → ByteArray → Option (ByteArray × BitReader)
  | 0, _, _ => none
  | n + 1, r, out => do
    let (last, r) ← r.bit?
    let (kind, r) ← r.number? 2
    let (out, r) ← blockBytes kind r out
    if last = 1 then some (out, r) else blocksBytes n r out

/-- The check sum of some bytes: their sum, and the sum of all sums on the
way. -/
def checkSum (bytes : ByteArray) : Nat :=
  let (low, high) := bytes.foldl (fun (low, high) b =>
    let low := (low + b.toNat) % 65521
    (low, (high + low) % 65521)) (1, 0)
  65536 * high + low

/-- The number that some bytes stand for, the first one being the highest. -/
def bigNumber? (data : ByteArray) (start : Nat) : Nat → Option Nat
  | 0 => some 0
  | n + 1 => do
    let high ← bigNumber? data start n
    let low ← data[start + n]?
    some (256 * high + low.toNat)

/-- The data whose compressed form starts at a byte. -/
def inflate? (data : ByteArray) (start : Nat) : Option ByteArray := do
  let header ← bigNumber? data start 2
  if header / 256 % 16 ≠ 8 ∨ header % 31 ≠ 0 ∨ header / 32 % 2 = 1 then none
  let r : BitReader := ⟨data, 8 * (start + 2)⟩
  let (out, r) ← blocksBytes r.bound r .empty
  let sum ← bigNumber? data (r.align.position / 8) 4
  if checkSum out = sum then some out else none

end VersionTrail.Storage
