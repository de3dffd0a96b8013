/-
# Failures and runs

An analysis fails for a reason of one of six kinds: the repository could not be
read, the configuration is at fault, no version source was found, a template
has no value, a number was expected, or a file could not be read. Each failure
has a text that starts with its kind. A run gives warnings, and in the end a result
or a failure. The warnings given before a failure are kept.

A report is a chain of texts: what was being done, from the outermost step to
the innermost one, and last the failure and its own cause. It is shown on one
line, or in detail, with the kind of the failure in front and the causes on
lines of their own.
-/
import VersionTrail.Pattern.Fault
import VersionTrail.Template.Evaluation
import VersionTrail.Template.Reader

namespace VersionTrail

open VersionTrail.Text

/-- What a configured pattern is applied to. -/
inductive PatternUse where
  /-- The names of the outputs that a cleaning rule selects. -/
  | outputSelector
  /-- The characters that a cleaning rule replaces. -/
  | invalidCharacter
  /-- The branches that a rule is for. -/
  | branch (rule : String)
  /-- The names of tags. -/
  | tagMatch
  /-- The messages of merges, to find the names of the two branches. -/
  | mergeEnds
  /-- The first lines of the messages of merges. -/
  | mergeContent
  deriving DecidableEq, Repr

/-- The use as a text. -/
def PatternUse.text : PatternUse → String
  | .outputSelector => "output selector"
  | .invalidCharacter => "invalid-character"
  | .branch rule => "branch '" ++ rule ++ "'"
  | .tagMatch => "tag-match"
  | .mergeEnds => "merge from/to"
  | .mergeContent => "merge-content"

/-- The name of the rule for branches that no other rule matches. -/
def fallbackRule : String :=
  "*"

/-- What is wrong with a configuration. -/
inductive ConfigFault where
  | noFallback
  | badDateFormat (format : String)
  | badPattern (use : PatternUse) (pattern : String) (fault : Pattern.Fault)
  | actionNotUnderstood (action : String)
  | capturedTwice (parameter : String)
  | noRule (branch : String)
  | fileNotFound (path : String)
  | unreadable (reason : String)
  | invalidTimestamp (commit : String)
  | dateFormat (fault : Calendar.FormatFault)
  /-- A fault that the history's own reader states in its words. -/
  | stated (text : String)
  deriving DecidableEq, Repr

/-- The fault as a text. -/
def ConfigFault.message : ConfigFault → String
  | .noFallback =>
    "The required '" ++ fallbackRule ++ "' fallback branch definition was not found"
  | .badDateFormat format =>
    "The date format '" ++ format ++ "' is not a valid strftime format"
  | .badPattern use pattern fault =>
    "Invalid " ++ use.text ++ " pattern '" ++ pattern ++ "': " ++ fault.message
  | .actionNotUnderstood action =>
    "The action '" ++ action ++ "' was not understood. Should match '<[+-=]><number>'."
  | .capturedTwice parameter => "Parameter '" ++ parameter ++ "' was captured more than once"
  | .noRule branch =>
    "Unable to find a branch definition for '" ++ branch ++
      "' in the configuration. The required '" ++ fallbackRule ++
      "' fallback definition was also not found."
  | .fileNotFound path => "The configuration file cannot be found at '" ++ path ++ "'"
  | .unreadable reason => "Cannot parse configuration: " ++ reason
  | .invalidTimestamp commit => "Commit " ++ commit ++ " has an invalid timestamp"
  | .dateFormat fault => fault.message
  | .stated text => text

/-- What is wrong with a number. -/
inductive NumericFault where
  | notInteger (parameter value : String)
  | actionTooLarge (action : String)
  | overflow (parameter : String) (value amount : Int)
  /-- A call in the template of an output. -/
  | call (output template : String) (fault : Template.CallFault)
  deriving DecidableEq, Repr

/-- The fault as a text. -/
def NumericFault.message : NumericFault → String
  | .notInteger parameter value =>
    "Parameter '" ++ parameter ++ "' has value '" ++ value ++ "', which is not an integer"
  | .actionTooLarge action => "The value in action '" ++ action ++ "' is too large"
  | .overflow parameter value amount =>
    "Bumping '" ++ parameter ++ "' from " ++ toString value ++ " by " ++ toString amount ++
      " overflows"
  | .call output template fault =>
    fault.message ++ " (output '" ++ output ++ "', template '" ++ template ++ "')"

/-- What is wrong with the template of an output. -/
inductive TemplateFault where
  | unclosed (u : Template.Unclosed)
  | noValue (fault : Template.Fault)
  deriving DecidableEq, Repr

/-- The fault as a text. -/
def TemplateFault.message : TemplateFault → String
  | .unclosed u => u.message
  | .noValue fault => fault.message

/-- Why an analysis fails. -/
inductive Failure where
  | git (cause : String)
  | config (fault : ConfigFault)
  | sourceNotFound (branch : String) (examined : Nat)
  | template (output template : String) (fault : TemplateFault)
  | numeric (fault : NumericFault)
  | file (cause : String)
  deriving DecidableEq, Repr

namespace Failure

/-- The text of a failure to read the repository. -/
def gitText (cause : String) : String :=
  "Git operation failed: " ++ cause

/-- The text of a fault of the configuration. -/
def configText (message : String) : String :=
  "Configuration error: " ++ message

/-- The text of a search without a result. -/
def sourceText (branch : String) (examined : Nat) : String :=
  "Could not find a version source on branch '" ++ branch ++ "' after examining " ++
    toString examined ++ " commit(s). No tags or merges qualified as a version source. " ++
    "If there are candidates, adapt the configuration so they match; otherwise add a version " ++
    "tag somewhere in the history."

/-- The text of a fault of a template. -/
def templateText (output template message : String) : String :=
  "Template error in output '" ++ output ++ "' ('" ++ template ++ "'): " ++ message

/-- The text of a fault of a number. -/
def numericText (message : String) : String :=
  "Numeric parse error: " ++ message

/-- The text of a failure to read a file. -/
def fileText (cause : String) : String :=
  "I/O error: " ++ cause

/-- The failure as a text. -/
def message : Failure → String
  | .git cause => gitText cause
  | .config fault => configText fault.message
  | .sourceNotFound branch examined => sourceText branch examined
  | .template output written fault => templateText output written fault.message
  | .numeric fault => numericText fault.message
  | .file cause => fileText cause

end Failure

/-- What is worth a warning. -/
inductive Warning where
  /-- A stand-in in the value of an output. -/
  | standIn (output template : String) (s : Template.StandIn)
  /-- A matching tag gave way to another one on the same commit. -/
  | displacedTag (name target : String)
  deriving DecidableEq, Repr

/-- The warning as a text. -/
def Warning.message : Warning → String
  | .standIn _ _ s => s.fault.message
  | .displacedTag .. => "Another matching tag points at the same commit; keeping the last one"

/-- What a warning is about, by names. -/
def Warning.fields : Warning → List (String × String)
  | .standIn output template s =>
    [("output", output), ("template", template), ("placeholder", s.text)]
  | .displacedTag name target => [("tag", name), ("target", target)]

/-- The warning in one line. -/
def Warning.line (w : Warning) : String :=
  "WARN " ++ w.message ++
    String.join (w.fields.map fun (name, value) => " " ++ name ++ "=" ++ value)

/-- A result or a failure, with the warnings given on the way. -/
structure Run (α : Type) where
  warnings : List Warning
  outcome : Except Failure α
  deriving Repr

namespace Run

/-- A run without warnings. -/
def ofExcept {α : Type} (outcome : Except Failure α) : Run α :=
  ⟨[], outcome⟩

/-- A run that goes on with its result. -/
def andThen {α β : Type} (r : Run α) (next : α → Run β) : Run β :=
  match r.outcome with
  | .error f => ⟨r.warnings, .error f⟩
  | .ok a => ⟨r.warnings ++ (next a).warnings, (next a).outcome⟩

instance : Monad Run where
  pure a := ⟨[], .ok a⟩
  bind := andThen

instance : MonadLift (Except Failure) Run := ⟨ofExcept⟩

end Run

/-- The kind of a failure, as reports name it. -/
inductive ReportKind where
  | config
  | source
  | template
  | numeric
  | git
  | file
  | other
  deriving DecidableEq, Repr

/-- The kind as a text. -/
def ReportKind.text : ReportKind → String
  | .config => "configuration"
  | .source => "version-source"
  | .template => "template"
  | .numeric => "numeric"
  | .git => "git"
  | .file => "io"
  | .other => "other"

/-- A text, and what caused it, the nearest cause first. -/
structure Report where
  kind : ReportKind
  text : String
  causes : List String
  deriving DecidableEq, Repr

namespace Report

/-- The report of a failure. One of the repository or of a file has a cause of
its own. -/
def ofFailure (f : Failure) : Report :=
  match f with
  | .git cause => ⟨.git, f.message, [cause]⟩
  | .config _ => ⟨.config, f.message, []⟩
  | .sourceNotFound .. => ⟨.source, f.message, []⟩
  | .template .. => ⟨.template, f.message, []⟩
  | .numeric _ => ⟨.numeric, f.message, []⟩
  | .file cause => ⟨.file, f.message, [cause]⟩

/-- The report inside a larger step. -/
def within (step : String) (r : Report) : Report :=
  { r with text := step, causes := r.text :: r.causes }

/-- The report on one line. -/
def terse (r : Report) : String :=
  String.intercalate ": " (r.text :: r.causes)

/-- A text whose lines but the first are indented. -/
def indentLines (width : Nat) (s : String) : List Char :=
  s.toList.flatMap fun c =>
    if c = '\n' then '\n' :: List.replicate width ' ' else [c]

/-- The number of a cause, written to the right in five columns. -/
def numberColumn (n : Nat) : List Char :=
  let ds := Nat.toDigits 10 n
  List.replicate (5 - ds.length) ' ' ++ ds

/-- The causes, each on a line of its own behind its number. -/
def numberedCauses (n : Nat) : List String → List Char
  | [] => []
  | cause :: causes =>
    '\n' :: numberColumn n ++ ':' :: ' ' :: indentLines 7 cause ++ numberedCauses (n + 1) causes

/-- The causes under their heading. A single cause has no number. -/
def causesText : List String → String
  | [] => ""
  | [cause] => "\n\nCaused by:\n    " ++ String.ofList (indentLines 4 cause)
  | causes => "\n\nCaused by:" ++ String.ofList (numberedCauses 0 causes)

/-- The report in detail. -/
def detailed (r : Report) : String :=
  "[" ++ r.kind.text ++ "] " ++ r.text ++ causesText r.causes

/-- The report as it is shown to the user. -/
def describe (diagnostic : Bool) (r : Report) : String :=
  if diagnostic then r.detailed else r.terse

end Report

end VersionTrail
