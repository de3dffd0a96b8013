/-
# What a template can refer to

Values are kept in named spaces. A reference without a space is one to an
output rendered before. A key is looked up as it is written first, and then
without regard to the case of Latin letters; the variables of the process are
looked up only as written. The names of the spaces have no case either, and two
spaces have a second name.
-/
import VersionTrail.Calendar.Civil
import VersionTrail.OrderedMap
import VersionTrail.Template.Reader
import VersionTrail.Text

namespace VersionTrail.Template

open VersionTrail.Text

/-- A space of values. -/
inductive Space where
  | arg
  | gitInfo
  | head
  | captured
  | versionSource
  | process
  deriving DecidableEq, Repr

/-- The title of a space. -/
def Space.title : Space → String
  | .arg => "Arg"
  | .gitInfo => "GitInfo"
  | .head => "Head"
  | .captured => "Match"
  | .versionSource => "VersionSource"
  | .process => "Env"

/-- A name that a space goes by: its title or a second name. -/
inductive SpaceName where
  | title (s : Space)
  /-- The second name of `GitInfo`. -/
  | common
  /-- The second name of `VersionSource`. -/
  | vs
  deriving DecidableEq, Repr

namespace SpaceName

/-- The name as it is written in messages. -/
def text : SpaceName → String
  | .title s => s.title
  | .common => "Common"
  | .vs => "Vs"

/-- All names of spaces. -/
def all : List SpaceName :=
  [.title .process, .title .arg, .title .captured, .title .versionSource, .vs, .title .gitInfo,
    .common, .title .head]

theorem mem_all (name : SpaceName) : name ∈ all := by
  rcases name with space | _ | _
  · cases space <;> decide
  · decide
  · decide

end SpaceName

/-- The space that a name in front of a key stands for, in any case. -/
def Space.ofName? (name : String) : Option Space :=
  match lowerLetters name with
  | "arg" => some .arg
  | "gitinfo" => some .gitInfo
  | "common" => some .gitInfo
  | "head" => some .head
  | "match" => some .captured
  | "versionsource" => some .versionSource
  | "vs" => some .versionSource
  | "env" => some .process
  | _ => none

/-- Everything that a template can read. -/
structure Scope where
  args : OrderedMap String := ∅
  gitInfo : OrderedMap String := ∅
  head : OrderedMap String := ∅
  parameters : OrderedMap String := ∅
  versionSource : OrderedMap String := ∅
  /-- The outputs rendered before. -/
  outputs : OrderedMap String := ∅
  /-- The variables of the process. -/
  process : OrderedMap String := ∅
  /-- The current time. -/
  now : Calendar.Moment := default

/-- The value of a key: exactly as written, or else of the first key that
differs in the case of letters only. -/
def findValue? (m : OrderedMap String) (key : String) : Option String :=
  (m.get? key).orElse fun _ => (m.find? fun k => sameLetters k key).map Prod.snd

/-- Why a reference has no value. -/
inductive LookupFault where
  /-- No output of that name has been rendered. -/
  | noOutput (key : String)
  | unknownSpace (space key : String)
  | notFound (written key : String) (space : Space)
  deriving DecidableEq, Repr

/-- The fault as a text. -/
def LookupFault.message : LookupFault → String
  | .noOutput key => "'<" ++ key ++ ">' does not name an output rendered before this one"
  | .unknownSpace space key =>
    "'<" ++ space ++ ":" ++ key ++ ">' uses the unknown namespace '" ++ space ++ "'"
  | .notFound written key space =>
    "'<" ++ written ++ ":" ++ key ++ ">' was not found in " ++ space.title

namespace Scope

/-- The values of a space. -/
def values (s : Scope) : Space → OrderedMap String
  | .arg => s.args
  | .gitInfo => s.gitInfo
  | .head => s.head
  | .captured => s.parameters
  | .versionSource => s.versionSource
  | .process => s.process

/-- The value of a key in a space. -/
def lookup? (s : Scope) (space : Space) (key : String) : Option String :=
  match space with
  | .process => s.process.get? key
  | other => findValue? (s.values other) key

/-- The value of a reference. -/
def resolve (s : Scope) (r : Reference) : Except LookupFault String :=
  match r.space with
  | none =>
    match findValue? s.outputs r.key with
    | some value => .ok value
    | none => .error (.noOutput r.key)
  | some written =>
    match Space.ofName? written with
    | none => .error (.unknownSpace written r.key)
    | some space =>
      match s.lookup? space r.key with
      | some value => .ok value
      | none => .error (.notFound written r.key space)

end Scope

end VersionTrail.Template
