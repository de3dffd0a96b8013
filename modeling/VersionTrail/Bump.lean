/-
# Parameters and their changes

Parameters are named texts that are captured from the version source and then
changed by actions. Capturing never overwrites: a name that is taken is a
fault. A parameter counts as a number where its text is an integer; an absent
or blank one has no number.

An action replaces the number of a parameter or adds to it. It is written as
one of the signs `=`, `+` and `-` with digits behind it. Sums that do not fit in
64 bits are refused.

The commits above the version source are replayed on its parameters, the oldest
one first. A plain commit triggers the actions that the rule has for commits, a
merge those for merges from the branch's rule, or else those for merges from
anywhere. The version source itself triggers none.
-/
import VersionTrail.Config.Basic
import VersionTrail.Failure
import VersionTrail.History.Basic
import VersionTrail.OrderedMap

namespace VersionTrail

open VersionTrail.Text

/-- Named texts in the order in which they were first given. -/
abbrev Parameters := OrderedMap String

namespace Parameters

/-- Gives a new parameter its value. -/
def insertNew (ps : Parameters) (name value : String) : Except Failure Parameters :=
  if ps.contains name then .error (.config (.capturedTwice name))
  else .ok (ps.insert name value)

/-- Gives new parameters their values, up to the first name that is taken. -/
def extendNew (ps : Parameters) : List (String × String) → Parameters × Option Failure
  | [] => (ps, none)
  | (name, value) :: rest =>
    match insertNew ps name value with
    | .ok next => extendNew next rest
    | .error f => (ps, some f)

/-- The parameters that a list of captures gives. -/
def ofCaptures (captures : List (String × String)) : Except Failure Parameters :=
  match extendNew ∅ captures with
  | (ps, none) => .ok ps
  | (_, some f) => .error f

/-- The number of a parameter, if it is neither absent nor blank. -/
def int? (ps : Parameters) (name : String) : Except Failure (Option Int) :=
  match ps.get? name with
  | none => .ok none
  | some value =>
    let raw := trim value
    if raw.isEmpty then .ok none
    else
      match readInt? raw with
      | some n => .ok (some n)
      | none => .error (.numeric (.notInteger name raw))

end Parameters

/-- An action on the number of a parameter. -/
inductive Action where
  | set (n : Int)
  | add (n : Int)
  deriving DecidableEq, Repr

namespace Action

/-- The action that a sign stands for. -/
def ofSign? (sign : Char) (n : Nat) : Option Action :=
  match sign with
  | '=' => some (.set n)
  | '+' => some (.add n)
  | '-' => some (.add (-n))
  | _ => none

/-- Reads an action. The digits are looked at before the sign. -/
def read (text : String) : Except Failure Action :=
  match text.toList with
  | [] => .error (.config (.actionNotUnderstood text))
  | sign :: ds =>
    if !isNumeral ds then .error (.config (.actionNotUnderstood text))
    else if !fits (Nat.ofDigitChars 10 ds 0) then .error (.numeric (.actionTooLarge text))
    else
      match ofSign? sign (Nat.ofDigitChars 10 ds 0) with
      | some a => .ok a
      | none => .error (.config (.actionNotUnderstood text))

/-- The number that an action gives a parameter. An absent or blank one counts
as zero. -/
def result (a : Action) (ps : Parameters) (name : String) : Except Failure Int :=
  match a with
  | .set n => .ok n
  | .add n => do
    let current := (← ps.int? name).getD 0
    if fits (current + n) then .ok (current + n)
    else .error (.numeric (.overflow name current n))

/-- Applies an action to a parameter. -/
def apply (a : Action) (ps : Parameters) (name : String) : Except Failure Parameters := do
  let n ← a.result ps name
  .ok (ps.insert name (toString n))

end Action

/-- The actions on merges from branches of a rule. -/
def BranchRule.mergeActions (rule : BranchRule) (fromRule : Option String) :
    List (String × String) :=
  let own := fromRule.bind rule.onMerge.get?
  match own.orElse fun _ => rule.onMerge.get? fallbackRule with
  | some actions => actions.entries
  | none => []

/-- The parameters and actions that a commit triggers, in order. -/
def BranchRule.actionsFor (rule : BranchRule) (v : Visit) : List (String × String) :=
  if v.commit.isMerge then rule.mergeActions v.fromRule else rule.onCommit.entries

/-- What a replay has come to: the parameters and the number of actions up to
the first failure. -/
structure Replay where
  parameters : Parameters
  applied : Nat
  failure : Option Failure
  deriving DecidableEq

namespace Replay

/-- Reads an action and applies it. -/
def applyText (ps : Parameters) (name action : String) : Except Failure Parameters := do
  let a ← Action.read action
  a.apply ps name

/-- Applies actions one after the other. -/
def ofActions (ps : Parameters) : List (String × String) → Replay
  | [] => ⟨ps, 0, none⟩
  | (name, action) :: rest =>
    match applyText ps name action with
    | .error f => ⟨ps, 0, some f⟩
    | .ok next =>
      let r := ofActions next rest
      { r with applied := r.applied + 1 }

/-- Replays commits, given with the newest one first and the version source
last. -/
def ofVisits (rule : BranchRule) (visits : List Visit) (ps : Parameters) : Replay :=
  ofActions ps (visits.dropLast.reverse.flatMap rule.actionsFor)

/-- The replay as a result: the parameters and the number of actions. -/
def toExcept (r : Replay) : Except Failure (Parameters × Nat) :=
  match r.failure with
  | some f => .error f
  | none => .ok (r.parameters, r.applied)

end Replay

end VersionTrail
