/-
# Rendering outputs

The templates of a rule are rendered in order, and each value can be referred
to by the templates behind it. A value is cleaned by every rule whose selector
matches the name of the output, in the order of the rules. Outputs whose name
starts with an underscore are steps on the way and are left out of the result,
unless they are asked for.
-/
import VersionTrail.Config.Basic
import VersionTrail.Failure
import VersionTrail.Pattern.Basic

namespace VersionTrail.Output

open VersionTrail.Template (Scope Node)

/-- A rule for cleaning whose patterns have been read. -/
structure Cleaner where
  select : Pattern
  invalid : Pattern
  replacement : String

/-- Reads the patterns of a rule for cleaning. -/
def Cleaner.ofRule (rule : CleanRule) : Except Failure Cleaner := do
  let select ← PatternUse.outputSelector.compile rule.select
  let invalid ← PatternUse.invalidCharacter.compile rule.invalidPattern
  .ok ⟨select, invalid, rule.replacement⟩

/-- Applies a rule for cleaning to the value of an output. -/
def Cleaner.apply (name value : String) (c : Cleaner) : String :=
  if c.select.isMatch name then c.invalid.replaceAll value c.replacement else value

/-- How outputs are rendered. -/
structure Renderer where
  strict : Bool
  cleaners : List Cleaner

namespace Renderer

/-- The renderer for some settings. -/
def ofSettings (settings : OutputSettings) : Except Failure Renderer := do
  let cleaners ← settings.clean.mapM Cleaner.ofRule
  .ok ⟨settings.strict, cleaners⟩

/-- The value of an output after cleaning. -/
def clean (r : Renderer) (name value : String) : String :=
  r.cleaners.foldl (fun v c => c.apply name v) value

end Renderer

/-- The failure of an output whose template has no value. -/
def valueFailure (name template : String) (fault : Template.Fault) : Failure :=
  match fault with
  | .call f =>
    if f.isNumeric then .numeric (.call name template f)
    else .template name template (.noValue (.call f))
  | .lookup f => .template name template (.noValue (.lookup f))

/-- The value of a template that has been read, before cleaning. -/
def evaluate (strict : Bool) (name template : String) (s : Scope) (nodes : List Node) :
    Run String :=
  if strict then .ofExcept ((Template.valueOf s nodes).mapError (valueFailure name template))
  else
    let (value, standIns) := Template.lenientValueOf s nodes
    ⟨standIns.map (.standIn name template), .ok value⟩

/-- The value of a template, before cleaning. -/
def evaluateText (strict : Bool) (name template : String) (s : Scope) : Run String :=
  match Template.read template with
  | .error u => .ofExcept (.error (.template name template (.unclosed u)))
  | .ok nodes => evaluate strict name template s nodes

/-- What rendering has come to: the outputs up to the first failure. -/
structure Rendering where
  outputs : OrderedMap String
  warnings : List Warning
  failure : Option Failure
  deriving DecidableEq

namespace Renderer

/-- Renders templates one after the other, behind the given outputs. -/
def renderFrom (r : Renderer) (s : Scope) (done : OrderedMap String) :
    List (String × String) → Rendering
  | [] => ⟨done, [], none⟩
  | (name, template) :: rest =>
    let run := evaluateText r.strict name template { s with outputs := done }
    match run.outcome with
    | .error f => ⟨done, run.warnings, some f⟩
    | .ok value =>
      let next := renderFrom r s (done.insert name (r.clean name value)) rest
      { next with warnings := run.warnings ++ next.warnings }

/-- Renders the templates of a rule. The outputs that the scope holds do not
count. -/
def render (r : Renderer) (templates : OrderedMap String) (s : Scope) : Rendering :=
  r.renderFrom s ∅ templates.entries

end Renderer

/-- Whether an output is only a step on the way. -/
def isTemporary (name : String) : Bool :=
  name.toList.head? == some '_'

/-- The outputs that are shown. -/
def shown (keepTemporary : Bool) (outputs : OrderedMap String) : OrderedMap String :=
  outputs.filter fun name _ => keepTemporary || !isTemporary name

/-- The rendering as a run. -/
def Rendering.toRun (keepTemporary : Bool) (r : Rendering) : Run (OrderedMap String) :=
  match r.failure with
  | some f => ⟨r.warnings, .error f⟩
  | none => ⟨r.warnings, .ok (shown keepTemporary r.outputs)⟩

end VersionTrail.Output
