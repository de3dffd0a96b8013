/-
# Stored objects

An object is stored as its kind and its content. The content of a commit or a
tag is a header of lines, each of which starts with the name of a field, and
behind an empty line the message. A signature has a name, an address between
angle brackets, the seconds since the start of 1970 and the offset of local time
in hours and minutes.
-/
import VersionTrail.History.Graph
import VersionTrail.Storage.Inflate

namespace VersionTrail.Storage

open VersionTrail.Text
open VersionTrail.History (Signature CommitObject Object)

/-- The kind of an object. -/
inductive Kind where
  | commit
  | tree
  | blob
  | tag
  deriving DecidableEq, Repr

/-- The kind with a name. -/
def Kind.ofName? : String → Option Kind
  | "commit" => some .commit
  | "tree" => some .tree
  | "blob" => some .blob
  | "tag" => some .tag
  | _ => none

/-- An object as it is stored. -/
structure StoredObject where
  kind : Kind
  content : ByteArray

/-- Some bytes as a text. -/
def bytesText? (bytes : List UInt8) : Option String :=
  String.fromUTF8? ⟨bytes.toArray⟩

/-- Some bytes as a text; the other text if they are none. -/
def bytesText (bytes : List UInt8) (otherwise : String) : String :=
  (bytesText? bytes).getD otherwise

/-- The bytes of a character below 128. -/
def byteOf (c : Char) : UInt8 :=
  c.toNat.toUInt8

/-- The bytes of a text. -/
def textBytes (s : String) : List UInt8 :=
  s.toUTF8.toList

/-- The bytes in front of the first `mark` and those behind it. Nothing is
behind it if it is not there. -/
def splitByte (mark : UInt8) (bytes : List UInt8) : List UInt8 × List UInt8 :=
  (bytes.takeWhile (· != mark), (bytes.dropWhile (· != mark)).drop 1)

/-- The lines of a header and the message behind it. There are at most `n`
lines. -/
def splitHeader : Nat → List UInt8 → List (List UInt8) × List UInt8
  | 0, bytes => ([], bytes)
  | n + 1, bytes =>
    match splitByte (byteOf '\n') bytes with
    | ([], message) => ([], message)
    | (line, rest) =>
      let (lines, message) := splitHeader n rest
      (line :: lines, message)

/-- What a line of a header has behind the name of a field. -/
def fieldOf? (name : String) (line : List UInt8) : Option (List UInt8) :=
  let start := textBytes name ++ [byteOf ' ']
  if start.isPrefixOf line then some (line.drop start.length) else none

/-- The values of a field. -/
def fieldValues (name : String) (lines : List (List UInt8)) : List (List UInt8) :=
  lines.filterMap (fieldOf? name)

/-- An integer with at most one sign at the front of a text, and the text behind
it. -/
def integerFront? (cs : List Char) : Option (Int × List Char) :=
  let (negative, ds) := match cs with
    | '-' :: ds => (true, ds)
    | '+' :: ds => (false, ds)
    | ds => (false, ds)
  let digits := ds.takeWhile Char.isDigit
  if digits.isEmpty then none
  else
    let n : Int := Nat.ofDigitChars 10 digits 0
    some (if negative then -n else n, ds.drop digits.length)

/-- The minutes of an offset that is written as a sign, hours and minutes. A
malformed one counts as none. -/
def offsetMinutes (cs : List Char) : Int :=
  match cs with
  | sign :: c :: rest =>
    match integerFront? (c :: rest) with
    | some (n, _) =>
      let (hours, minutes) := (n.natAbs / 100, n.natAbs % 100)
      if n < 0 ∨ 59 < minutes then 0
      else if sign = '+' then (hours * 60 + minutes : Nat)
      else if sign = '-' then -((hours * 60 + minutes : Nat) : Int)
      else 0
    | none => 0
  | _ => 0

/-- Seconds and offset behind the address. Without them there are none. -/
def readTime? (bytes : List UInt8) : Option (Int × Int) :=
  match (bytesText bytes "").toList with
  | ' ' :: cs =>
    if cs.isEmpty then some (0, 0)
    else (integerFront? cs).map fun (seconds, rest) => (seconds, offsetMinutes (rest.drop 1))
  | _ => some (0, 0)

/-- Reads a signature. The address stands between the last pair of angle
brackets. A name or an address that is no text is replaced. -/
def readSignature? (line : List UInt8) : Option Signature :=
  let backwards := line.reverse
  let (after, front) := splitByte (byteOf '>') backwards
  let (address, name) := splitByte (byteOf '<') front
  if front.isEmpty ∨ !front.contains (byteOf '<') then none
  else
    (readTime? after.reverse).map fun (seconds, offset) =>
      { name := bytesText name.reverse "unknown"
        email := bytesText address.reverse ""
        seconds, offset }

/-- Reads the content of a commit. A message that is no text counts as empty. -/
def readCommit? (content : List UInt8) : Option CommitObject := do
  let (lines, message) := splitHeader content.length content
  let parents ← (fieldValues "parent" lines).mapM bytesText?
  let author ← (fieldValues "author" lines).head? >>= readSignature?
  let committer ← (fieldValues "committer" lines).head? >>= readSignature?
  some { message := bytesText message "", parents, author, committer }

/-- Reads the content of a tag. -/
def readTag? (content : List UInt8) : Option Object := do
  let (lines, message) := splitHeader content.length content
  let target ← (fieldValues "object" lines).head? >>= bytesText?
  some (.tag target (bytesText message ""))

namespace StoredObject

/-- The object with a decompressed form of its own: its kind and its length in
front of a zero byte, and its content. -/
def ofBytes? (bytes : ByteArray) : Option StoredObject := do
  let (header, content) := splitByte 0 bytes.toList
  let (kind, _) := splitByte (byteOf ' ') header
  let kind ← bytesText? kind >>= Kind.ofName?
  some ⟨kind, ⟨content.toArray⟩⟩

/-- The object as the history has it, unless it is malformed. -/
def toObject? (o : StoredObject) : Option Object :=
  match o.kind with
  | .commit => (readCommit? o.content.toList).map .commit
  | .tag => readTag? o.content.toList
  | .tree => some .other
  | .blob => some .other

end StoredObject

/-- The objects that an object names. -/
def objectsNamed : Object → List String
  | .commit c => c.parents
  | .tag target _ => [target]
  | .other => []

/-- A commit at which the history was cut off: it has no parents. -/
def cutOff : Object → Object
  | .commit c => .commit { c with parents := [] }
  | o => o

end VersionTrail.Storage
