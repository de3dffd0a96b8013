/-
# Reading TOML documents

A document is read line by line into sections: blank lines and comments are
skipped, a line in brackets is a header, and any other line is an entry. Lists
may run over several lines, tables between braces may not. Lists and tables
between braces can be nested up to a fixed depth. Every step of reading takes at
least one character, except for a fixed number of steps in between, so a bound
on the steps is known from the length of the text.
-/
import VersionTrail.Document.Scalar
import VersionTrail.Document.Basic

namespace VersionTrail.Document

open VersionTrail.Text

/-- The number of levels at which nesting is refused. -/
def depthLimit : Nat :=
  80

/-- A reading that must succeed. -/
def required {α : Type} : Option α → Except Fault α
  | some a => .ok a
  | none => .error .malformed

/-- Whether a character can be part of a key without marks around it. -/
def isBareKeyChar (c : Char) : Bool :=
  c.isAlphanum || c == '_' || c == '-'

/-- Reads one key. -/
def simpleKey? (cs : List Char) : Reading String :=
  match cs with
  | '"' :: _ => lineText? cs
  | '\x27' :: _ => lineText? cs
  | _ =>
    let key := cs.takeWhile isBareKeyChar
    if key.isEmpty then none else some (String.ofList key, cs.drop key.length)

/-- Reads at most `n` keys with points between them and spaces around them. -/
def keyPath : Nat → List Char → Except Fault (List String × List Char)
  | 0, _ => .error .tooDeep
  | n + 1, cs => do
    let (key, rest) ← required (simpleKey? (dropSpaces cs))
    match dropSpaces rest with
    | '.' :: behind =>
      let (keys, rest) ← keyPath n behind
      .ok (key :: keys, rest)
    | rest => .ok ([key], rest)

/-- Reads the key of an entry or of a header: the path and the last key. -/
def dottedKey (cs : List Char) : Except Fault ((List String × String) × List Char) := do
  let (keys, rest) ← keyPath (depthLimit - 1) cs
  match keys.getLast? with
  | some key => .ok ((keys.dropLast, key), rest)
  | none => .error .malformed

/-- The text behind a comment. -/
def dropComment (cs : List Char) : List Char :=
  match cs with
  | '#' :: rest => rest.dropWhile isPrintable
  | _ => cs

/-- Skips blanks, line ends and comments between the items of a list, in at most
`n` steps. -/
def dropGaps : Nat → List Char → List Char
  | 0, cs => cs
  | n + 1, cs =>
    match dropSpaces cs with
    | '#' :: rest =>
      match lineEnd? (rest.dropWhile isPrintable) with
      | some next => dropGaps n next
      | none => '#' :: rest
    | rest =>
      match lineEnd? rest with
      | some next => dropGaps n next
      | none => rest

/-- The text behind blanks, line ends and comments. -/
def gapsDropped (cs : List Char) : List Char :=
  dropGaps (cs.length + 1) cs

mutual

/-- Reads a value in at most `n` steps, inside of `depth` lists and tables. -/
def value (n depth : Nat) (cs : List Char) : Except Fault (Value × List Char) :=
  match n with
  | 0 => .error .malformed
  | n + 1 =>
    match cs with
    | '[' :: rest =>
      if depthLimit ≤ depth + 1 then .error .tooDeep
      else do
        let (items, rest) ← listItems n (depth + 1) rest
        .ok (.list items, rest)
    | '\x7b' :: rest =>
      if depthLimit ≤ depth + 1 then .error .tooDeep
      else do
        let (entries, rest) ← inlineEntries n (depth + 1) rest
        let table ← tableOf entries
        .ok (table, rest)
    | 't' :: 'r' :: 'u' :: 'e' :: rest => .ok (.boolean true, rest)
    | 'f' :: 'a' :: 'l' :: 's' :: 'e' :: rest => .ok (.boolean false, rest)
    | '"' :: _ => required ((text? cs).map fun (s, rest) => (.text s, rest))
    | '\x27' :: _ => required ((text? cs).map fun (s, rest) => (.text s, rest))
    | _ => required (if startsDate cs then date? cs else number? cs)

/-- Reads the items of a list up to its closing bracket. -/
def listItems (n depth : Nat) (cs : List Char) : Except Fault (List Value × List Char) :=
  match n with
  | 0 => .error .malformed
  | n + 1 =>
    match gapsDropped cs with
    | ']' :: rest => .ok ([], rest)
    | start => do
      let (v, rest) ← value n depth start
      match gapsDropped rest with
      | ',' :: behind =>
        let (items, rest) ← listItems n depth behind
        .ok (v :: items, rest)
      | ']' :: behind => .ok ([v], behind)
      | _ => .error .malformed

/-- Reads the entries of a table between braces. -/
def inlineEntries (n depth : Nat) (cs : List Char) : Except Fault (List Entry × List Char) :=
  match n with
  | 0 => .error .malformed
  | n + 1 =>
    match dropSpaces cs with
    | '\x7d' :: rest => .ok ([], rest)
    | start => moreEntries n depth start

/-- Reads at least one entry of a table between braces, up to the closing one. -/
def moreEntries (n depth : Nat) (cs : List Char) : Except Fault (List Entry × List Char) :=
  match n with
  | 0 => .error .malformed
  | n + 1 => do
    let ((path, key), rest) ← dottedKey cs
    let rest ← required (mark? '=' rest)
    let (v, rest) ← value n depth (dropSpaces rest)
    match dropSpaces rest with
    | ',' :: behind =>
      let (entries, rest) ← moreEntries n depth behind
      .ok (⟨path, key, v⟩ :: entries, rest)
    | '\x7d' :: behind => .ok ([⟨path, key, v⟩], behind)
    | _ => .error .malformed

end

/-- Reads an entry up to the end of its value. -/
def entry (cs : List Char) : Except Fault (Entry × List Char) := do
  let ((path, key), rest) ← dottedKey cs
  let rest ← required (mark? '=' rest)
  let (v, rest) ← value (3 * rest.length + 3) 0 (dropSpaces rest)
  .ok (⟨path, key, v⟩, rest)

/-- A header without its entries. -/
inductive Header where
  | top
  | table (path : List String) (key : String)
  | item (path : List String) (key : String)

/-- The section with a header and some entries. -/
def Header.toSection (h : Header) (es : List Entry) : Section :=
  match h with
  | .top => .top es
  | .table path key => .table path key es
  | .item path key => .item path key es

/-- Reads a header from behind its first bracket. -/
def header (cs : List Char) : Except Fault (Header × List Char) :=
  match cs with
  | '[' :: rest => do
    let ((path, key), rest) ← dottedKey rest
    let rest ← required (mark? ']' rest)
    let rest ← required (mark? ']' rest)
    .ok (.item path key, rest)
  | _ => do
    let ((path, key), rest) ← dottedKey cs
    let rest ← required (mark? ']' rest)
    .ok (.table path key, rest)

/-- The text behind the end of a line on which nothing is left but spaces and a
comment. -/
def finishLine (cs : List Char) : Except Fault (List Char) :=
  match dropComment (dropSpaces cs) with
  | [] => .ok []
  | rest => required (lineEnd? rest)

/-- Reads the lines of a document, of which there are at most `n`. `h` is the
header that holds, `es` are its entries so far, the last one first. -/
def sections (h : Header) (es : List Entry) : Nat → List Char → Except Fault (List Section)
  | 0, _ => .error .malformed
  | n + 1, cs =>
    match dropSpaces cs with
    | [] => .ok [h.toSection es.reverse]
    | '[' :: rest => do
      let (next, rest) ← header rest
      let rest ← finishLine rest
      let others ← sections next [] n rest
      .ok (h.toSection es.reverse :: others)
    | '#' :: rest => do
      let rest ← finishLine ('#' :: rest)
      sections h es n rest
    | start =>
      match lineEnd? start with
      | some rest => sections h es n rest
      | none => do
        let (e, rest) ← entry start
        let rest ← finishLine rest
        sections h (e :: es) n rest

/-- Reads a document. A byte order mark at its front is skipped. -/
def read (document : String) : Except Fault Value := do
  let cs := match document.toList with
    | '\ufeff' :: rest => rest
    | cs => cs
  let parts ← sections .top [] (cs.length + 1) cs
  ofSections parts

end VersionTrail.Document
