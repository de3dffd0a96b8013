/-
# The program

Everything that touches the world outside is here: the command line, the files
of the configuration and of the repository, the clock and the variables of the
process are read, and the outcome is printed.
-/
import Std.Time.Zoned.Database
import VersionTrail.CommandLine
import VersionTrail.Config.Validation
import VersionTrail.History.Graph
import VersionTrail.Files
import VersionTrail.Storage.Reference

namespace VersionTrail.Program

open VersionTrail.History (Graph Object)
open VersionTrail.Storage

/-- The bytes of a file that can be read. -/
def readBytes? (path : String) : IO (Option ByteArray) := do
  try return some (← IO.FS.readBinFile path) catch _ => return none

/-- The text of a file that can be read. -/
def readText? (path : String) : IO (Option String) := do
  return (← readBytes? path).bind String.fromUTF8?

/-- The names in a folder; none if there is no folder. -/
def namesIn (path : String) : IO (List String) := do
  try
    let place ← IO.FS.realPath path
    let entries ← place.readDir
    return entries.toList.map fun entry => entry.fileName
  catch _ => return []

/-- The full path of something that is there. -/
def fullPath? (path : String) : IO (Option String) := do
  try
    let place ← IO.FS.realPath path
    return if ← place.pathExists then some place.toString else none
  catch _ => return none

/-- Whether there is a folder. -/
def isFolder (path : String) : IO Bool := do
  try
    let place ← IO.FS.realPath path
    place.isDir
  catch _ => return false

/-- What there is at a path. -/
def stateOf (path : String) : IO PathState := do
  match ← fullPath? path with
  | none => return .absent
  | some place =>
    if ← isFolder place then return .unreadable folderCause
    try
      match String.fromUTF8? (← IO.FS.readBinFile place) with
      | some content => return .file content
      | none => return .unreadable "stream did not contain valid UTF-8"
    catch
      | .permissionDenied .. => return .unreadable "Permission denied (os error 13)"
      | e => return .unreadable e.toString

/-- Where a repository has its files. -/
structure Place where
  /-- The folder with the reference to the present commit. -/
  own : String
  /-- The folder with the objects and all other references. -/
  shared : String
  /-- The folder in which files are worked on; of a bare repository its own. -/
  path : String

/-- The repository whose files are in a folder. -/
def placeIn? (folder path : String) : IO (Option Place) := do
  let shared := match ← readText? (folder ++ "/commondir") with
    | some text => pathFrom folder (Text.trim text)
    | none => folder
  let hasHead := (← readBytes? (folder ++ "/HEAD")).isSome
  let hasObjects ← isFolder (shared ++ "/objects")
  let hasReferences ← isFolder (shared ++ "/refs")
  return if hasHead && hasObjects && hasReferences then some ⟨folder, shared, path ++ "/"⟩ else none

/-- The repository that belongs to a folder. -/
def placeOf? (folder : String) : IO (Option Place) := do
  let inner := folder ++ "/.git"
  let own := match (← readText? inner).bind (behind? "gitdir:") with
    | some path => pathFrom folder (Text.trim path)
    | none => inner
  match ← placeIn? own folder with
  | some place => return some place
  | none =>
    let (around, name) := splitLast folder
    placeIn? folder (if name = ".git" then around else folder)

/-- The files from which objects are read. -/
structure Database where
  folders : List String
  packs : List Pack

/-- The packs in a folder. -/
def packsIn (folder : String) : IO (List Pack) := do
  let names := (← namesIn folder).filter fun name => name.endsWith ".idx"
  let packs ← names.mapM fun name => do
    let path := folder ++ "/" ++ String.ofList (name.toList.take (name.length - 4))
    match ← readBytes? (path ++ ".idx"), ← readBytes? (path ++ ".pack") with
    | some index, some data => return some (Pack.mk index data)
    | _, _ => return none
  return (packs.filterMap id).filter Pack.isKnown

/-- Opens the database in a folder, and those that it names beside it. -/
def openDatabase (folder : String) : IO Database := do
  let others := match ← readText? (folder ++ "/info/alternates") with
    | some text => ((text.splitOn "\n").filter fun line => !line.isEmpty).map (pathFrom folder)
    | none => []
  let folders := folder :: others
  let packs ← folders.mapM fun folder => packsIn (folder ++ "/pack")
  return ⟨folders, packs.flatten⟩

/-- Reads an object. -/
def Database.read (db : Database) (id : String) : IO (Option Object) := do
  let name := String.ofList (id.toList.take 2) ++ "/" ++ String.ofList (id.toList.drop 2)
  let stored ← db.folders.findSomeM? fun folder => do
    let bytes ← readBytes? (folder ++ "/" ++ name)
    return bytes.bind fun data => (inflate? data 0).bind StoredObject.ofBytes?
  let found := stored.orElse fun _ =>
    (idNumber? id).bind fun number => db.packs.findSome? fun pack => pack.object? number
  return found.bind StoredObject.toObject?

/-- Reads objects and all those that they name. The history is cut off at some
of them. -/
partial def loadObjects (db : Database) (cuts : List String)
    (objects : Std.HashMap String Object) : List String → IO (Std.HashMap String Object)
  | [] => return objects
  | id :: rest => do
    if objects.contains id then loadObjects db cuts objects rest
    else
      match ← db.read id with
      | none => loadObjects db cuts objects rest
      | some object =>
        let object := if cuts.contains id then cutOff object else object
        loadObjects db cuts (objects.insert id object) (objectsNamed object ++ rest)

/-- The references with files of their own, below a name. -/
partial def looseReferences (folder name : String) : IO References := do
  let path := folder ++ "/" ++ name
  if ← isFolder path then
    let parts ← (← namesIn path).mapM fun part => looseReferences folder (name ++ "/" ++ part)
    return parts.flatten
  else
    match (← readText? path).bind readTarget? with
    | some target => return [(name, target)]
    | none => return []

/-- All references. Files of their own count before packed ones. -/
def references (folder : String) : IO References := do
  let loose ← looseReferences folder "refs"
  let packed := ((← readText? (folder ++ "/packed-refs")).map readPacked).getD []
  return loose ++ packed.filter fun (name, _) => (loose.lookup name).isNone

/-- Reads a repository. -/
def Place.load? (place : Place) : IO (Option Graph) := do
  match (← readText? (place.own ++ "/HEAD")).bind readTarget? with
  | none => return none
  | some target =>
    let rs ← references place.shared
    let db ← openDatabase (place.shared ++ "/objects")
    let shallow := (← readText? (place.shared ++ "/shallow")).getD ""
    let objects ← loadObjects db (shallow.splitOn "\n") {} (rs.starts target)
    return some ⟨place.path, rs.head target, rs.tags, objects⟩

/-- Finds the repository that holds a folder. -/
def findRepository (path : String) : IO (Except Failure Repository) := do
  match ← fullPath? path with
  | none => return .error (History.noFolder path)
  | some folder =>
    match ← (foldersAround folder).findSomeM? placeOf? with
    | none => return .error (History.noRepository path)
    | some place => return History.repositoryAt (← place.load?) path

/-- The variables of the process. -/
def process : IO (OrderedMap String) := do
  return ((← readBytes? "/proc/self/environ").map fun bytes => readProcess bytes.toList).getD ∅

/-- The present moment at the present place. -/
def present : IO Calendar.Moment := do
  let stamp ← Std.Time.Timestamp.now
  let offset ← try
      let rules ← Std.Time.Database.defaultGetLocalZoneRules
      pure (rules.findLocalTimeTypeForTimestamp stamp).gmtOffset.second.val
    catch _ => pure 0
  let nanos := stamp.toNanosecondsSinceUnixEpoch.val
  return ⟨nanos / 1000000000, (nanos % 1000000000).toNat, offset⟩

/-- Finds the configuration. -/
def loadConfig (path : Option String) (process : OrderedMap String) :
    IO (Except Failure Config) := do
  let named ← stateOf (path.getD "")
  let usual ← stateOf configFileName
  let user ← match userFolder? process with
    | some folder => stateOf (folder ++ "/" ++ configFileName)
    | none => pure .absent
  let places : ConfigPlaces := { state := fun p => if path = some p then named else usual, user }
  return places.load path

/-- Does what the options ask for. -/
def work (options : CommandLine.Options) : IO CommandLine.Outcome := do
  let process ← process
  let config ← loadConfig options.config process
  let repository ←
    if options.list then pure (.error (History.noRepository options.folder))
    else findRepository options.folder
  return CommandLine.run options config repository process (← present)

end VersionTrail.Program

open VersionTrail

/-- Runs the program with the arguments of its command line. -/
def main (args : List String) : IO UInt32 := do
  match CommandLine.readOptions args with
  | .error fault =>
    IO.eprintln ("error: " ++ fault.message)
    return 2
  | .ok options =>
    let outcome ← Program.work options
    IO.eprint outcome.status
    for warning in outcome.warnings do
      IO.eprintln warning.line
    IO.print outcome.out
    IO.eprint outcome.err
    return outcome.code.toUInt32
