/-
# Searching a text

All ways through a program are followed at once, character by character. At
each position the threads stand in the order of preference, at most one for
each instruction, so that the time is bounded by the product of the lengths of
program and text. The match that starts first wins, and among those the one
that the order of preference puts first.
-/
import VersionTrail.Pattern.Program

namespace VersionTrail.Pattern

/-- Noted positions, by number. -/
abbrev Slots := Array (Option Nat)

/-- The characters on both sides of a position; none at the ends of the text. -/
structure Around where
  before : Option Char
  after : Option Char

/-- Whether a neighbour is a character of a word. -/
def isWordChar (unicode : Bool) : Option Char → Bool
  | none => false
  | some c => if unicode then isWordPoint c.toNat else isAsciiWordPoint c.toNat

/-- Whether a condition holds at a position. -/
def Assertion.holds (a : Assertion) (at_ : Around) : Bool :=
  let before := at_.before
  let after := at_.after
  match a with
  | .start => before.isNone
  | .stop => after.isNone
  | .lineStart false => before.isNone || before == some '\n'
  | .lineStop false => after.isNone || after == some '\n'
  | .lineStart true =>
    before.isNone || before == some '\n' || (before == some '\r' && after != some '\n')
  | .lineStop true =>
    after.isNone || after == some '\r' || (after == some '\n' && before != some '\r')
  | .wordEdge u => isWordChar u before != isWordChar u after
  | .noWordEdge u => isWordChar u before == isWordChar u after
  | .wordStart u => !isWordChar u before && isWordChar u after
  | .wordStop u => isWordChar u before && !isWordChar u after
  | .wordStartHalf u => !isWordChar u before
  | .wordStopHalf u => !isWordChar u after

/-- A way through the program: the instruction it stands at and the positions
it has noted. -/
structure Thread where
  place : Nat
  slots : Slots

/-- The threads of one position, last first, with the instructions that were
reached there. -/
structure Front where
  seen : Array Bool
  threads : List Thread

/-- The front without threads. -/
def Front.empty (size : Nat) : Front :=
  ⟨Array.replicate size false, []⟩

/-- Follows threads, in order of preference, to the instructions that take a
character or accept. An instruction that was reached before is not entered
again: the thread that was there first is preferred. -/
def follow (code : Code) (at_ : Around) (position : Nat) : Nat → List Thread → Front → Front
  | 0, _, front => front
  | _ + 1, [], front => front
  | fuel + 1, t :: rest, front =>
    if front.seen.getD t.place true then follow code at_ position fuel rest front
    else
      let front := { front with seen := front.seen.setIfInBounds t.place true }
      match code.getD t.place .accept with
      | .look a next =>
        if a.holds at_ then follow code at_ position fuel (⟨next, t.slots⟩ :: rest) front
        else follow code at_ position fuel rest front
      | .save slot next =>
        let slots := t.slots.setIfInBounds slot (some position)
        follow code at_ position fuel (⟨next, slots⟩ :: rest) front
      | .fork first second =>
        follow code at_ position fuel (⟨first, t.slots⟩ :: ⟨second, t.slots⟩ :: rest) front
      | _ => follow code at_ position fuel rest { front with threads := t :: front.threads }

/-- Follows one more thread from a place. Each instruction is entered once and
adds at most two threads, which bounds the steps. -/
def Front.enter (front : Front) (code : Code) (at_ : Around) (position : Nat) (t : Thread) :
    Front :=
  follow code at_ position (2 * code.size + 2) [t] front

/-- Moves the threads of a position over a character, in order of preference.
A thread that accepts ends the round: those behind it are not preferred. -/
def advance (code : Code) (c : Option Char) (at_ : Around) (position : Nat) :
    List Thread → Front → Option Slots → Front × Option Slots
  | [], next, best => (next, best)
  | t :: rest, next, best =>
    match code.getD t.place .accept with
    | .accept => (next, some t.slots)
    | .take cls place =>
      match c with
      | some ch =>
        if cls.holds ch.toNat then
          advance code c at_ position rest (next.enter code at_ position ⟨place, t.slots⟩) best
        else advance code c at_ position rest next best
      | none => advance code c at_ position rest next best
    | _ => advance code c at_ position rest next best

/-- Runs the program over the rest of a text. As long as nothing was accepted,
a new thread starts at each position, behind all others. -/
def sweep (p : Program) (before : Option Char) (position : Nat) (front : Front)
    (best : Option Slots) : List Char → Option Slots
  | [] =>
    let front :=
      if best.isNone then
        front.enter p.code ⟨before, none⟩ position ⟨p.entry, Array.replicate p.slots none⟩
      else front
    (advance p.code none ⟨none, none⟩ position front.threads.reverse (.empty 0) best).2
  | c :: cs =>
    let front :=
      if best.isNone then
        front.enter p.code ⟨before, some c⟩ position ⟨p.entry, Array.replicate p.slots none⟩
      else front
    let (next, best) :=
      advance p.code (some c) ⟨some c, cs.head?⟩ (position + 1) front.threads.reverse
        (.empty p.code.size) best
    if best.isSome && next.threads.isEmpty then best
    else sweep p (some c) (position + 1) next best cs

/-- The positions noted by the first match at or behind a position. `before` is
the character in front of it. -/
def Program.search (p : Program) (before : Option Char) (position : Nat) (cs : List Char) :
    Option Slots :=
  sweep p before position (.empty p.code.size) none cs

end VersionTrail.Pattern
