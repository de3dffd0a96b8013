/-
# Programs that recognise patterns

A tree is compiled to a list of instructions, each of which names the places
where the run goes on. A fork prefers its first branch. The compiler writes
from the end of the pattern to its start: it is given the place that follows
and returns the place to enter.
-/
import VersionTrail.Pattern.Tree

namespace VersionTrail.Pattern

/-- One instruction. -/
inductive Inst where
  /-- Takes one character of the class. -/
  | take (cls : CharClass) (next : Nat)
  /-- Goes on where the condition holds. -/
  | look (a : Assertion) (next : Nat)
  /-- Notes the present position under a number. -/
  | save (slot : Nat) (next : Nat)
  /-- Goes on in two ways, of which the first is preferred. -/
  | fork (first second : Nat)
  /-- The pattern has been recognised. -/
  | accept
  deriving Repr

instance : Inhabited Inst := ⟨.accept⟩

/-- Instructions, addressed by their place. -/
abbrev Code := Array Inst

/-- Adds an instruction and gives its place. -/
def Code.emit (code : Code) (i : Inst) : Code × Nat :=
  (code.push i, code.size)

/-- A fork into a body or past it, in the order that greed asks for. -/
def forkOf (greedy : Bool) (body past : Nat) : Inst :=
  if greedy then .fork body past else .fork past body

/-- Applies a step a number of times. -/
def stepTimes (step : Code × Nat → Code × Nat) : Nat → Code × Nat → Code × Nat
  | 0, s => s
  | n + 1, s => stepTimes step n (step s)

/-- Compiles a loop that runs its body at least once. `body` compiles the
body in front of a place. -/
def emitLoop (greedy : Bool) (body : Code × Nat → Code × Nat) (s : Code × Nat) : Code × Nat :=
  let (code, again) := s.1.emit .accept
  let (code, entry) := body (code, again)
  (code.setIfInBounds again (forkOf greedy entry s.2), entry)

/-- Compiles a loop that may be skipped. A body that takes a character goes
back to the fork in front of it; any other is entered through a fork of its
own, so that a round without a character does not lose its preference. -/
def emitStar (greedy mayBeEmpty : Bool) (body : Code × Nat → Code × Nat) (s : Code × Nat) :
    Code × Nat :=
  if mayBeEmpty then
    let (code, entry) := emitLoop greedy body s
    code.emit (forkOf greedy entry s.2)
  else
    let (code, again) := s.1.emit .accept
    let (code, entry) := body (code, again)
    (code.setIfInBounds again (forkOf greedy entry s.2), again)

/-- Compiles a body that may be skipped to `past`. -/
def emitOption (greedy : Bool) (body : Code × Nat → Code × Nat) (past : Nat) (s : Code × Nat) :
    Code × Nat :=
  let (code, entry) := body s
  code.emit (forkOf greedy entry past)

/-- Compiles a tree in front of a place. -/
def Tree.emit : Tree → Code × Nat → Code × Nat
  | .empty, s => s
  | .one cls, s => s.1.emit (.take cls s.2)
  | .look a, s => s.1.emit (.look a s.2)
  | .seq a b, s => a.emit (b.emit s)
  | .alt a b, s =>
    let (code, second) := b.emit s
    let (code, first) := a.emit (code, s.2)
    code.emit (.fork first second)
  | .group i _ t, s =>
    let (code, close) := s.1.emit (.save (2 * i + 1) s.2)
    let (code, entry) := t.emit (code, close)
    code.emit (.save (2 * i) entry)
  | .repeated 0 none greedy t, s => emitStar greedy t.canBeEmpty t.emit s
  | .repeated (n + 1) none greedy t, s => stepTimes t.emit n (emitLoop greedy t.emit s)
  | .repeated least (some most) greedy t, s =>
    stepTimes t.emit least (stepTimes (emitOption greedy t.emit s.2) (most - least) s)

/-- Instructions with the place to enter and the number of noted positions. -/
structure Program where
  code : Code
  entry : Nat
  slots : Nat

/-- The program of a tree, which notes the start and the end of the whole match
under the numbers zero and one. -/
def Program.ofTree (t : Tree) : Program :=
  let (code, entry) := (Tree.group 0 none t).emit (#[.accept], 0)
  let last := t.groups.foldl (fun m g => max m g.1) 0
  ⟨code, entry, 2 * last + 2⟩

end VersionTrail.Pattern
