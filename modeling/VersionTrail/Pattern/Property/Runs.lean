/-
# Sets of code points written as text

Two notations are read here. A run is a label with the number of code points
that carry it, and runs follow each other from code point zero. A gap list is a
list of pairs: the distance from the end of the range before, and the number of
code points in the range.
-/
import VersionTrail.Text

namespace VersionTrail.Pattern.Property

open VersionTrail.Text

/-- Ranges of code points, both ends included. -/
abbrev Ranges := List (Nat × Nat)

/-- Whether a code point lies in one of the ranges. -/
def Ranges.holds (rs : Ranges) (n : Nat) : Bool :=
  rs.any fun (low, high) => low ≤ n && n ≤ high

/-- The parts of a range that lie outside of another. -/
def cutRange (cut range : Nat × Nat) : Ranges :=
  let front := if range.1 < cut.1 then [(range.1, min range.2 (cut.1 - 1))] else []
  let back := if cut.2 < range.2 then [(max range.1 (cut.2 + 1), range.2)] else []
  if range.2 < cut.1 || cut.2 < range.1 then [range] else front ++ back

/-- The code points of some ranges that lie in none of the others. -/
def Ranges.without (rs cuts : Ranges) : Ranges :=
  cuts.foldl (fun acc cut => acc.flatMap (cutRange cut)) rs

/-- A label with the number of consecutive code points that carry it. -/
structure Run where
  label : String
  count : Nat

/-- The words of a text that spaces and line feeds separate. -/
def words (cs : List Char) : List (List Char) :=
  match cs.foldr (fun c (acc : List Char × List (List Char)) =>
      if c = ' ' ∨ c = '\n' then ([], acc.1 :: acc.2) else (c :: acc.1, acc.2)) ([], []) with
  | (first, rest) => (first :: rest).filter (!·.isEmpty)

/-- Reads runs such as `Lu26`. -/
def readRuns (s : String) : List Run :=
  (words s.toList).map fun w =>
    ⟨String.ofList (w.takeWhile (!·.isDigit)), Nat.ofDigitChars 10 (w.dropWhile (!·.isDigit)) 0⟩

/-- The ranges of the runs whose label passes a test, the first run starting at
a code point. Neighbouring ranges are joined. -/
def rangesFrom (keep : String → Bool) : Nat → List Run → Ranges
  | _, [] => []
  | start, r :: rs =>
    let rest := rangesFrom keep (start + r.count) rs
    if keep r.label && 0 < r.count then
      match rest with
      | (low, high) :: more =>
        if low = start + r.count then (start, high) :: more
        else (start, start + r.count - 1) :: rest
      | [] => [(start, start + r.count - 1)]
    else rest

/-- The ranges of the runs whose label passes a test. -/
def rangesWhere (keep : String → Bool) (runs : List Run) : Ranges :=
  rangesFrom keep 0 runs

/-- The ranges of a list of distances and counts, the first range being counted
from a code point. -/
def gapRanges : Nat → List Nat → Ranges
  | start, gap :: count :: rest =>
    (start + gap, start + gap + count - 1) :: gapRanges (start + gap + count) rest
  | _, _ => []

/-- Reads a gap list. -/
def readGaps (s : String) : Ranges :=
  gapRanges 0 ((words s.toList).map (Nat.ofDigitChars 10 · 0))

end VersionTrail.Pattern.Property
