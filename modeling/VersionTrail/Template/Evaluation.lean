/-
# Evaluating templates

Strict evaluation stops at the first piece without a value. Lenient evaluation
has a value for every template: a reference that cannot be resolved stays as it
is written, a call that fails becomes the name of the function with the values
of its arguments in parentheses, and every such stand-in is noted. Both work
from left to right, and through the arguments before the call.
-/
import VersionTrail.Template.Call

namespace VersionTrail.Template

/-- Why a piece of a template has no value. -/
inductive Fault where
  | lookup (fault : LookupFault)
  | call (fault : CallFault)
  deriving DecidableEq, Repr

/-- The fault as a text. -/
def Fault.message : Fault → String
  | .lookup f => f.message
  | .call f => f.message

/-- The value of a reference. -/
def Reference.value (s : Scope) (r : Reference) : Except Fault String :=
  (s.resolve r).mapError .lookup

/-- The value of a call with evaluated arguments. -/
def callValue (s : Scope) (name : String) (values : List String) : Except Fault String :=
  (call s name values).mapError .call

mutual

/-- The value of a piece, or the first fault in it. -/
def Node.value (s : Scope) : Node → Except Fault String
  | .plain text => .ok text
  | .reference r => r.value s
  | .call name args => do
    let values ← argValues s args
    callValue s name values

/-- The values of pieces, joined together, or the first fault in them. -/
def valueOf (s : Scope) : List Node → Except Fault String
  | [] => .ok ""
  | n :: ns => do
    let front ← n.value s
    let back ← valueOf s ns
    .ok (front ++ back)

/-- The values of arguments, or the first fault in them. -/
def argValues (s : Scope) : List (List Node) → Except Fault (List String)
  | [] => .ok []
  | arg :: args => do
    let value ← valueOf s arg
    let values ← argValues s args
    .ok (value :: values)

end

/-- A stand-in for a piece without a value. -/
structure StandIn where
  text : String
  fault : Fault
  deriving DecidableEq, Repr

/-- The value, or else a stand-in for it. -/
def orStandIn (text : String) : Except Fault String → String × List StandIn
  | .ok value => (value, [])
  | .error fault => (text, [⟨text, fault⟩])

mutual

/-- The value of a piece with stand-ins for what has none. -/
def Node.lenientValue (s : Scope) : Node → String × List StandIn
  | .plain text => (text, [])
  | .reference r => orStandIn r.print (r.value s)
  | .call name args =>
    let (values, inner) := lenientArgs s args
    let (value, outer) := orStandIn (name ++ "(" ++ String.intercalate "," values ++ ")")
      (callValue s name values)
    (value, inner ++ outer)

/-- The values of pieces, joined together, with stand-ins. -/
def lenientValueOf (s : Scope) : List Node → String × List StandIn
  | [] => ("", [])
  | n :: ns =>
    let (front, first) := n.lenientValue s
    let (back, others) := lenientValueOf s ns
    (front ++ back, first ++ others)

/-- The values of arguments with stand-ins. -/
def lenientArgs (s : Scope) : List (List Node) → List String × List StandIn
  | [] => ([], [])
  | arg :: args =>
    let (value, first) := lenientValueOf s arg
    let (values, others) := lenientArgs s args
    (value :: values, first ++ others)

end

end VersionTrail.Template
