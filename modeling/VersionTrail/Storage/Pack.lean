/-
# Packs of objects

A pack holds many objects. Its index lists their identifiers in order, with the
positions of their entries. An entry holds a compressed object, or compressed
changes that make it from another object: the base, which is named by the
distance to its entry or by its identifier. Changes are copies of parts of the
base, and new bytes.
-/
import VersionTrail.Storage.Object

namespace VersionTrail.Storage

/-- A pack. -/
structure Pack where
  index : ByteArray
  data : ByteArray

/-- The value of a digit of an identifier. -/
def hexValue? (c : Char) : Option Nat :=
  if '0' ≤ c ∧ c ≤ '9' then some (c.toNat - 48)
  else if 'a' ≤ c ∧ c ≤ 'f' then some (c.toNat - 87)
  else none

/-- The number of an identifier, which is written in forty digits of base
sixteen. -/
def idNumber? (id : String) : Option Nat :=
  if id.length = 40 then id.toList.foldlM (fun n c => (hexValue? c).map (16 * n + ·)) 0 else none

/-- Whether a text is an identifier. -/
def isId (text : String) : Bool :=
  (idNumber? text).isSome

namespace Pack

/-- Whether the index has the form that is known here. -/
def isKnown (p : Pack) : Bool :=
  bigNumber? p.index 0 8 == some 0xFF744F6300000002

/-- How many objects have an identifier whose first byte is at most `b`. -/
def countUpTo? (p : Pack) (b : Nat) : Option Nat :=
  bigNumber? p.index (8 + 4 * b) 4

/-- The identifier with a place in the index. -/
def idAt? (p : Pack) (place : Nat) : Option Nat :=
  bigNumber? p.index (1032 + 20 * place) 20

/-- The place of an identifier between two places, in at most `n` halvings. -/
def placeBetween? (p : Pack) (id : Nat) : Nat → Nat → Nat → Option Nat
  | 0, _, _ => none
  | n + 1, low, high =>
    if high ≤ low then none
    else do
      let middle := (low + high) / 2
      let other ← p.idAt? middle
      if other = id then some middle
      else if other < id then p.placeBetween? id n (middle + 1) high
      else p.placeBetween? id n low middle

/-- The place of an identifier in the index. -/
def place? (p : Pack) (id : Nat) : Option Nat := do
  let first := id / Nat.pow 256 19
  let low ← if first = 0 then some 0 else p.countUpTo? (first - 1)
  let high ← p.countUpTo? first
  p.placeBetween? id (high - low + 1) low high

/-- The position of the entry of an identifier. Positions that do not fit in 31
bits have a list of their own. -/
def position? (p : Pack) (id : Nat) : Option Nat := do
  let place ← p.place? id
  let total ← p.countUpTo? 255
  let short ← bigNumber? p.index (1032 + 24 * total + 4 * place) 4
  if short < 2147483648 then some short
  else bigNumber? p.index (1032 + 28 * total + 8 * (short - 2147483648)) 8

end Pack

/-- Skips the bytes of a number up to the last one, which is below 128. There
are at most `n`. -/
def skipNumber? (data : ByteArray) : Nat → Nat → Option Nat
  | 0, _ => none
  | n + 1, position => do
    let b ← data[position]?
    if b < 128 then some (position + 1) else skipNumber? data n (position + 1)

/-- The number of bytes of the longest number. -/
def longestNumber : Nat :=
  10

/-- The distance to a base, and the position behind it. `high` is the part that
was read. -/
def distance? (data : ByteArray) : Nat → Nat → Nat → Option (Nat × Nat)
  | 0, _, _ => none
  | n + 1, high, position => do
    let b ← data[position]?
    let value := 128 * high + b.toNat % 128
    if b < 128 then some (value, position + 1) else distance? data n (value + 1) (position + 1)

/-- The bytes of a number of which only those are given whose bits are set. -/
def sparseNumber? (data : ByteArray) (given : Nat) : Nat → Nat → Option (Nat × Nat)
  | 0, position => some (0, position)
  | n + 1, position =>
    if given % 2 = 0 then do
      let (high, position) ← sparseNumber? data (given / 2) n position
      some (256 * high, position)
    else do
      let low ← data[position]?
      let (high, position) ← sparseNumber? data (given / 2) n (position + 1)
      some (256 * high + low.toNat, position)

/-- Applies the changes from a position on to a base, in at most `n` steps. -/
def applyChanges (base changes : ByteArray) : Nat → Nat → ByteArray → Option ByteArray
  | 0, _, _ => none
  | n + 1, position, out =>
    match changes[position]? with
    | none => some out
    | some b =>
      if b < 128 then
        let stop := position + 1 + b.toNat
        if b = 0 ∨ changes.size < stop then none
        else applyChanges base changes n stop (out ++ changes.extract (position + 1) stop)
      else do
        let (start, next) ← sparseNumber? changes (b.toNat % 16) 4 (position + 1)
        let (count, next) ← sparseNumber? changes (b.toNat / 16 % 8) 3 next
        let count := if count = 0 then 65536 else count
        if base.size < start + count then none
        else applyChanges base changes n next (out ++ base.extract start (start + count))

/-- The object that changes make from a base. The changes start with the lengths
of both. -/
def changed? (base changes : ByteArray) : Option ByteArray := do
  let position ← skipNumber? changes longestNumber 0
  let position ← skipNumber? changes longestNumber position
  applyChanges base changes (changes.size + 1) position .empty

/-- The object that the compressed changes at a position make from a base. Of
trees and blobs only the kind is known. -/
def StoredObject.changedAt? (base : StoredObject) (data : ByteArray) (position : Nat) :
    Option StoredObject :=
  if base.kind = .tree ∨ base.kind = .blob then some base
  else do
    let changes ← inflate? data position
    let content ← changed? base.content changes
    some { base with content }

namespace Pack

/-- The object of the entry at a position, through at most `n` bases. -/
def objectAt? (p : Pack) : Nat → Nat → Option StoredObject
  | 0, _ => none
  | n + 1, position => do
    let b ← p.data[position]?
    let next ← skipNumber? p.data longestNumber position
    match b.toNat / 16 % 8 with
    | 1 => (inflate? p.data next).map (⟨.commit, ·⟩)
    | 2 => some ⟨.tree, .empty⟩
    | 3 => some ⟨.blob, .empty⟩
    | 4 => (inflate? p.data next).map (⟨.tag, ·⟩)
    | 6 =>
      let (distance, next) ← distance? p.data longestNumber 0 next
      if distance = 0 ∨ position < distance then none
      else
        let base ← p.objectAt? n (position - distance)
        base.changedAt? p.data next
    | 7 =>
      let id ← bigNumber? p.data next 20
      let start ← p.position? id
      let base ← p.objectAt? n start
      base.changedAt? p.data (next + 20)
    | _ => none

/-- The longest row of bases. -/
def longestRow : Nat :=
  4096

/-- The object with an identifier. -/
def object? (p : Pack) (id : Nat) : Option StoredObject := do
  let position ← p.position? id
  p.objectAt? longestRow position

end Pack

end VersionTrail.Storage
