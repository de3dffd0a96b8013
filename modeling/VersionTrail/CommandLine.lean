/-
# The command line

The options name a configuration, a folder in the repository, and arguments for
the templates, and ask for a diagnosis or for the list of branch rules. The
result is printed as JSON; a failure is reported with what was being done.
-/
import VersionTrail.Analysis
import VersionTrail.Failure

namespace VersionTrail.CommandLine

open VersionTrail.Text
open VersionTrail.Calendar (Moment)

/-- What the command line asks for. -/
structure Options where
  config : Option String := none
  repo : Option String := none
  vars : List String := []
  diagnostic : Bool := false
  list : Bool := false
  deriving DecidableEq, Repr

/-- Why a command line is refused. -/
inductive UsageFault where
  | unexpected (arg : String)
  | valueMissing (option : String)
  | repeated (option : String)
  deriving DecidableEq, Repr

/-- The fault as a text. -/
def UsageFault.message : UsageFault → String
  | .unexpected arg => "unexpected argument '" ++ arg ++ "' found"
  | .valueMissing option => "a value is required for '" ++ option ++ "' but none was supplied"
  | .repeated option => "the argument '" ++ option ++ "' cannot be used multiple times"

/-- An option that takes a value. -/
inductive ValueOption where
  | config
  | repo
  | var
  deriving DecidableEq, Repr

/-- An option that takes none. -/
inductive Switch where
  | diagnostic
  | list
  deriving DecidableEq, Repr

/-- An option. -/
inductive Choice where
  | value (o : ValueOption)
  | switch (s : Switch)
  deriving DecidableEq, Repr

/-- The long name of an option. -/
def Choice.longName : Choice → String
  | .value .config => "config"
  | .value .repo => "repo"
  | .value .var => "var"
  | .switch .diagnostic => "diagnostic"
  | .switch .list => "list"

/-- The short name of an option, if it has one. -/
def Choice.shortName? : Choice → Option Char
  | .value .config => some 'c'
  | .value .repo => some 'r'
  | .value .var => some 'v'
  | .switch .diagnostic => some 'd'
  | .switch .list => none

/-- All options. -/
def Choice.all : List Choice :=
  [.value .config, .value .repo, .value .var, .switch .diagnostic, .switch .list]

/-- The option as it is shown in messages. -/
def Choice.text (c : Choice) : String :=
  "--" ++ c.longName

/-- Gives an option its value. Only variables can be given more than once, and
the folder of the repository cannot be empty. -/
def Options.setValue (o : Options) (option : ValueOption) (value : String) :
    Except UsageFault Options :=
  match option with
  | .config =>
    if o.config.isSome then .error (.repeated (Choice.value .config).text)
    else .ok { o with config := some value }
  | .repo =>
    if o.repo.isSome then .error (.repeated (Choice.value .repo).text)
    else if value.isEmpty then .error (.valueMissing (Choice.value .repo).text)
    else .ok { o with repo := some value }
  | .var => .ok { o with vars := o.vars ++ [value] }

/-- Turns a switch on, which can be done once. -/
def Options.turnOn (o : Options) (s : Switch) : Except UsageFault Options :=
  match s with
  | .diagnostic =>
    if o.diagnostic then .error (.repeated (Choice.switch .diagnostic).text)
    else .ok { o with diagnostic := true }
  | .list =>
    if o.list then .error (.repeated (Choice.switch .list).text) else .ok { o with list := true }

/-- Where reading stands: the options so far, and the option whose value comes
next. -/
structure Reading where
  options : Options
  awaiting : Option ValueOption := none

/-- Reads short options behind a hyphen. A value can follow its option directly,
also behind an equals sign. -/
def readShort (arg : String) (o : Options) : List Char → Except UsageFault Reading
  | [] => .ok ⟨o, none⟩
  | c :: cs =>
    match Choice.all.find? fun choice => choice.shortName? == some c with
    | none => .error (.unexpected arg)
    | some (.switch s) => do
      let o ← o.turnOn s
      readShort arg o cs
    | some (.value option) =>
      match cs with
      | [] => .ok ⟨o, some option⟩
      | '=' :: value => (o.setValue option (String.ofList value)).map fun o => ⟨o, none⟩
      | value => (o.setValue option (String.ofList value)).map fun o => ⟨o, none⟩

/-- Reads a long option behind its two hyphens. -/
def readLong (arg : String) (o : Options) (cs : List Char) : Except UsageFault Reading :=
  let (name, value?) := match splitFirst? '=' cs with
    | some (name, value) => (String.ofList name, some (String.ofList value))
    | none => (String.ofList cs, none)
  match Choice.all.find? fun choice => choice.longName == name, value? with
  | none, _ => .error (.unexpected arg)
  | some (.switch s), none => (o.turnOn s).map fun o => ⟨o, none⟩
  | some (.switch _), some _ => .error (.unexpected arg)
  | some (.value option), none => .ok ⟨o, some option⟩
  | some (.value option), some value => (o.setValue option value).map fun o => ⟨o, none⟩

/-- Reads an argument where no value is awaited. -/
def readOption (o : Options) (arg : String) : Except UsageFault Reading :=
  match arg.toList with
  | '-' :: '-' :: c :: cs => readLong arg o (c :: cs)
  | '-' :: c :: cs => if c = '-' then .error (.unexpected arg) else readShort arg o (c :: cs)
  | _ => .error (.unexpected arg)

/-- Whether an argument can be the value of an option. -/
def isValue (arg : String) : Bool :=
  match arg.toList with
  | '-' :: _ :: _ => false
  | _ => true

/-- Reads an argument. -/
def readArg (r : Reading) (arg : String) : Except UsageFault Reading :=
  match r.awaiting with
  | some option =>
    if isValue arg then (r.options.setValue option arg).map fun o => ⟨o, none⟩
    else .error (.valueMissing (Choice.value option).text)
  | none => readOption r.options arg

/-- Reads a command line. -/
def readOptions (args : List String) : Except UsageFault Options := do
  let r ← args.foldlM readArg ⟨{}, none⟩
  match r.awaiting with
  | some option => .error (.valueMissing (Choice.value option).text)
  | none => .ok r.options

/-- The folder in the repository. -/
def Options.folder (o : Options) : String :=
  o.repo.getD "."

/-- A branch rule as a line of the list of rules. -/
def ruleLine (name : String) (rule : BranchRule) : String :=
  let regex := if isBlankText rule.regex then "(fallback)" else rule.regex
  let order := String.intercalate ", " (rule.source.order.map SourceKind.text)
  "  - " ++ name ++ " " ++ regex ++ " [" ++ order ++ "] outputs: " ++
    toString rule.output.size ++ "\n"

/-- The list of branch rules. -/
def ruleList (c : Config) : String :=
  "Configured branch rules:\n" ++
    String.join (c.branches.entries.map fun (name, rule) => ruleLine name rule)

/-- What is printed in the end. -/
structure Outcome where
  code : Nat
  /-- What is printed as the result. -/
  out : String := ""
  /-- What is printed about failures. -/
  err : String := ""
  /-- What is printed about the work that is done. -/
  status : String := ""
  warnings : List Warning := []
  deriving DecidableEq, Repr

/-- The outcome of a failed step. -/
def failed (o : Options) (step : String) (f : Failure) (warnings : List Warning) : Outcome :=
  let report := (Report.ofFailure f).within step
  { code := 1, err := "ERROR: " ++ report.describe o.diagnostic ++ "\n", warnings }

/-- The analyzer that the options ask for. -/
def Options.analyzer (o : Options) (c : Config) (process : OrderedMap String) (now : Moment) :
    Analyzer where
  config := c
  arguments := readArguments o.vars
  diagnostic := o.diagnostic
  process := process
  now := now

/-- The announcement of an analysis, which belongs to a diagnosis. -/
def Options.announcement (o : Options) : String :=
  if o.diagnostic then "→ Analyzing " ++ o.folder ++ "\n" else ""

/-- Does what the options ask for, with the configuration and the repository
that were found. -/
def run (o : Options) (config : Except Failure Config) (repo : Except Failure Repository)
    (process : OrderedMap String) (now : Moment) : Outcome :=
  match config with
  | .error f => failed o "Failed to load configuration" f []
  | .ok c =>
    if o.list then { code := 0, out := ruleList c }
    else
      let analyzer := o.analyzer c process now
      let result : Run Analysis := do
        let repo ← repo
        analyzer.analyze repo
      let outcome := match result.outcome with
        | .error f => failed o ("Failed to analyze '" ++ o.folder ++ "'") f result.warnings
        | .ok a => { code := 0, out := a.text o.diagnostic ++ "\n", warnings := result.warnings }
      { outcome with status := o.announcement }

end VersionTrail.CommandLine
