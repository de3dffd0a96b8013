/-
# Configuration documents

A document is a tree of tables and lists with texts, integers and truth values
in it. Numbers with a fraction, dates and nulls occur as well, but nothing in a
configuration is read from them, so only the fact is kept. The entries of a
table keep their order.

A document is a row of sections. Each has a header, the first one excepted, and
entries, whose keys can be paths. A table is given at most once: by a header,
by the paths of entries, or as a value. A table that is only on the way to
another one counts as implicit, and a header may still give it; it then has its
place where the header is.
-/
import VersionTrail.OrderedMap

namespace VersionTrail.Document

open VersionTrail.OrderedMap (put)

/-- A value in a document. -/
inductive Value where
  | null
  | boolean (b : Bool)
  | integer (n : Int)
  /-- A number with a fraction or an exponent. -/
  | fractional
  /-- A date, a time of the day, or both. -/
  | date
  | text (s : String)
  | list (items : List Value)
  | table (entries : List (String × Value))
  deriving Repr, Inhabited

/-- Why a document is refused. -/
inductive Fault where
  /-- The text does not follow the grammar. -/
  | malformed
  /-- A key or a table is given twice. -/
  | repeatedKey (key : String)
  /-- Values or keys are nested too deeply. -/
  | tooDeep
  /-- A value is not what a configuration has in its place. -/
  | unfit (wanted : String)
  deriving DecidableEq, Repr

/-- The fault as a text. -/
def Fault.message : Fault → String
  | .malformed => "the document is malformed"
  | .repeatedKey key => "duplicate key '" ++ key ++ "'"
  | .tooDeep => "the document is nested too deeply"
  | .unfit wanted => "expected " ++ wanted

/-- What a key stands for while the document is put together. -/
inductive Slot where
  | value (v : Value)
  /-- A table. It is implicit if no header gives it, and dotted if the paths of
  entries lead to it. -/
  | table (isImplicit dotted : Bool) (entries : List (String × Slot))
  /-- A list of tables, each with a header of its own; the last one first. -/
  | tables (last : List (String × Slot)) (earlier : List (List (String × Slot)))
  deriving Inhabited

/-- Keys with what they stand for. -/
abbrev Slots := List (String × Slot)

mutual

/-- What a key stands for, as a value. -/
def Slot.toValue : Slot → Value
  | .value v => v
  | .table _ _ entries => .table (entriesToValues entries)
  | .tables last earlier => .list (tablesToValues earlier [.table (entriesToValues last)])

/-- Entries as values. -/
def entriesToValues : List (String × Slot) → List (String × Value)
  | [] => []
  | (key, slot) :: rest => (key, slot.toValue) :: entriesToValues rest

/-- Tables as values, put in front of those behind them. -/
def tablesToValues : List (List (String × Slot)) → List Value → List Value
  | [], done => done
  | entries :: rest, done => tablesToValues rest (.table (entriesToValues entries) :: done)

end

/-- Changes the table that a path leads to. Tables that are missing on the way
are made. The path of an entry may not lead through a table that is given
elsewhere. -/
def update (ofEntry : Bool) (change : Bool → Slots → Except Fault Slots) :
    List String → Bool → Slots → Except Fault Slots
  | [], dotted, entries => change dotted entries
  | key :: path, _, entries =>
    match entries.lookup key with
    | none => do
      let inner ← update ofEntry change path ofEntry []
      .ok (put key (.table true ofEntry inner) entries)
    | some (.value _) => .error (.repeatedKey key)
    | some (.tables last earlier) => do
      let inner ← update ofEntry change path false last
      .ok (put key (.tables inner earlier) entries)
    | some (.table isImplicit dotted inner) =>
      if ofEntry && !isImplicit then .error (.repeatedKey key)
      else do
        let inner ← update ofEntry change path dotted inner
        .ok (put key (.table isImplicit dotted inner) entries)

/-- An entry: the path to its table, its key and its value. -/
structure Entry where
  path : List String
  key : String
  value : Value
  deriving Inhabited

/-- Adds an entry. A table to which no path leads takes no entries by a path,
and the other way round. -/
def addEntry (entries : Slots) (e : Entry) : Except Fault Slots :=
  update true (fun dotted inner =>
    if dotted == e.path.isEmpty then .error (.repeatedKey e.key)
    else
      match inner.lookup e.key with
      | some _ => .error (.repeatedKey e.key)
      | none => .ok (inner ++ [(e.key, .value e.value)])) e.path false entries

/-- The table with some entries. -/
def tableOf (es : List Entry) : Except Fault Value := do
  let entries ← es.foldlM addEntry []
  .ok (.table (entriesToValues entries))

/-- A section of a document. -/
inductive Section where
  /-- The entries in front of the first header. -/
  | top (entries : List Entry)
  /-- A table with its header. -/
  | table (path : List String) (key : String) (entries : List Entry)
  /-- A table at the end of a list of tables. -/
  | item (path : List String) (key : String) (entries : List Entry)

/-- The entries that a table has before its header. -/
def impliedEntries (key : String) (parent : Slots) : Except Fault Slots :=
  match parent.lookup key with
  | none => .ok []
  | some (.table true false entries) => .ok entries
  | some _ => .error (.repeatedKey key)

/-- Adds a table with a header to the table around it. -/
def addTable (key : String) (es : List Entry) (parent : Slots) : Except Fault Slots := do
  let implied ← impliedEntries key parent
  let entries ← es.foldlM addEntry implied
  .ok (parent.filter (fun e => e.1 != key) ++ [(key, .table false false entries)])

/-- Adds a table to a list of tables in the table around it. -/
def addItem (key : String) (es : List Entry) (parent : Slots) : Except Fault Slots := do
  let entries ← es.foldlM addEntry []
  match parent.lookup key with
  | none => .ok (parent ++ [(key, .tables entries [])])
  | some (.tables last earlier) => .ok (put key (.tables entries (last :: earlier)) parent)
  | some _ => .error (.repeatedKey key)

/-- Adds a section to what the sections in front of it gave. -/
def addSection (root : Slots) : Section → Except Fault Slots
  | .top es => es.foldlM addEntry root
  | .table path key es => update false (fun _ => addTable key es) path false root
  | .item path key es => update false (fun _ => addItem key es) path false root

/-- The document that sections make up. -/
def ofSections (sections : List Section) : Except Fault Value := do
  let root ← sections.foldlM addSection []
  .ok (.table (entriesToValues root))

end VersionTrail.Document
