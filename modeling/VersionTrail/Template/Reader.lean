/-
# Reading templates

A template is plain text with references and calls in it. A reference is written
`<key>` or `<space:key>`, a call `$name(argument,argument)` where each argument is
again a template. Printing a tree gives the written form back.

A template is a row of tokens: references, openings of calls, and single
characters. A token is a reference where an angle bracket is followed by a
well-formed key up to the closing bracket, and the opening of a call where a
dollar sign is followed by a name and a parenthesis. Every other character is a
token of its own, so the written forms of the tokens make up the template.

The tokens are taken one after the other. The calls whose closing parenthesis has
not been met are kept on a stack, the innermost one on top. A comma or a closing
parenthesis ends an argument only where no plain parenthesis is open in that
argument; outside of calls both are text. A template is refused only when a call is
left open, and then the outermost open call is named.
-/
import VersionTrail.Text

namespace VersionTrail.Template

open VersionTrail.Text

/-- A reference to a value: a key, in a named space or among the outputs
rendered before. -/
structure Reference where
  space : Option String
  key : String
  deriving DecidableEq, Repr

/-- A piece of a template. -/
inductive Node where
  | plain (text : String)
  | reference (r : Reference)
  | call (name : String) (args : List (List Node))
  deriving Repr, Inhabited

/-- The written form of a reference. -/
def Reference.print (r : Reference) : String :=
  match r.space with
  | some space => "<" ++ space ++ ":" ++ r.key ++ ">"
  | none => "<" ++ r.key ++ ">"

mutual

/-- The written form of a piece. -/
def Node.print : Node → String
  | .plain text => text
  | .reference r => r.print
  | .call name args => "$" ++ name ++ "(" ++ printArgs args ++ ")"

/-- The written form of pieces that follow each other. -/
def printAll : List Node → String
  | [] => ""
  | n :: ns => n.print ++ printAll ns

/-- The written form of the arguments of a call, with commas between them. -/
def printArgs : List (List Node) → String
  | [] => ""
  | [arg] => printAll arg
  | arg :: args => printAll arg ++ "," ++ printArgs args

end

/-- A token of a template. -/
inductive Token where
  | char (c : Char)
  | reference (r : Reference)
  /-- A dollar sign, the name of a call and its opening parenthesis. -/
  | opening (name : String)
  deriving DecidableEq, Repr

/-- The characters with a meaning of their own, which no reference holds. -/
def marks : List Char :=
  ['<', '>', '(', ')', ',', '$']

/-- Whether a character can be part of a reference. -/
def isReferenceChar (c : Char) : Bool :=
  !isBlank c && !marks.contains c

/-- Whether a character can start the name of a call. -/
def startsName (c : Char) : Bool :=
  c.isAlpha || c == '_'

/-- Whether a character can continue the name of a call. -/
def continuesName (c : Char) : Bool :=
  c.isAlphanum || c == '_'

/-- The reference between two angle brackets. A colon separates the space from
the key, and neither may then be empty. -/
def referenceOf? (inner : List Char) : Option Reference :=
  match splitFirst? ':' inner with
  | some (space, key) =>
    if space.isEmpty || key.isEmpty then none
    else some ⟨some (String.ofList space), String.ofList key⟩
  | none => if inner.isEmpty then none else some ⟨none, String.ofList inner⟩

/-- The reference that starts behind an opening angle bracket. -/
def referenceAfter? (cs : List Char) : Option Reference :=
  match cs.dropWhile isReferenceChar with
  | '>' :: _ => referenceOf? (cs.takeWhile isReferenceChar)
  | _ => none

/-- The name of the call that starts behind a dollar sign. -/
def callAfter? (cs : List Char) : Option String :=
  match cs with
  | c :: _ =>
    if startsName c then
      match cs.dropWhile continuesName with
      | '(' :: _ => some (String.ofList (cs.takeWhile continuesName))
      | _ => none
    else none
  | [] => none

/-- The token that starts with a character, and how many characters behind it
belong to the token. -/
def tokenAt (c : Char) (cs : List Char) : Token × Nat :=
  if c = '<' then
    match referenceAfter? cs with
    | some r => (.reference r, (cs.takeWhile isReferenceChar).length + 1)
    | none => (.char c, 0)
  else if c = '$' then
    match callAfter? cs with
    | some name => (.opening name, name.length + 1)
    | none => (.char c, 0)
  else (.char c, 0)

/-- The tokens that follow the first `skip` characters, which belong to a token
in front. -/
def tokensAfter : Nat → List Char → List Token
  | _, [] => []
  | skip + 1, _ :: cs => tokensAfter skip cs
  | 0, c :: cs => (tokenAt c cs).1 :: tokensAfter (tokenAt c cs).2 cs

/-- The tokens of a template. -/
def tokens (template : String) : List Token :=
  tokensAfter 0 template.toList

/-- The written form of a token. -/
def Token.print : Token → String
  | .char c => String.singleton c
  | .reference r => r.print
  | .opening name => "$" ++ name ++ "("

/-- A call whose closing parenthesis is missing; the position of its dollar
sign counts characters from zero. -/
structure Unclosed where
  name : String
  position : Nat
  deriving DecidableEq, Repr

/-- The fault as a text. -/
def Unclosed.message (u : Unclosed) : String :=
  "function '$" ++ u.name ++ "' opened at position " ++ toString u.position ++
    " is missing its closing ')'"

/-- Adds a character to the text at the end. The last piece comes first. -/
def addChar (c : Char) : List Node → List Node
  | .plain text :: nodes => .plain (text.push c) :: nodes
  | nodes => .plain (String.singleton c) :: nodes

/-- A call that is still open. -/
structure OpenCall where
  name : String
  position : Nat
  /-- The finished arguments, the last one first. -/
  args : List (List Node)
  /-- The pieces of the argument that is being read, the last one first. -/
  nodes : List Node
  /-- How many plain parentheses are open in that argument. -/
  depth : Nat
  deriving Repr

namespace OpenCall

/-- Adds a piece to the argument that is being read. -/
def add (f : OpenCall) (n : Node) : OpenCall :=
  { f with nodes := n :: f.nodes }

/-- Adds a character to the argument that is being read. -/
def addChar (f : OpenCall) (c : Char) : OpenCall :=
  { f with nodes := Template.addChar c f.nodes }

/-- All arguments in order. A call with nothing between its parentheses has no
argument. -/
def allArgs (f : OpenCall) : List (List Node) :=
  if f.args.isEmpty && f.nodes.isEmpty then []
  else (f.nodes.reverse :: f.args).reverse

/-- The call once its closing parenthesis has been met. -/
def close (f : OpenCall) : Node :=
  .call f.name f.allArgs

end OpenCall

/-- What has been read. -/
structure Progress where
  /-- The pieces outside of open calls, the last one first. -/
  nodes : List Node
  /-- The open calls, the innermost one first. -/
  stack : List OpenCall
  /-- How many characters have been taken. -/
  position : Nat
  deriving Repr

namespace Progress

/-- The start of a template. -/
def start : Progress :=
  ⟨[], [], 0⟩

/-- Adds a piece to the innermost open call, or to the template itself. -/
def add (p : Progress) (n : Node) : Progress :=
  match p.stack with
  | [] => { p with nodes := n :: p.nodes }
  | f :: fs => { p with stack := f.add n :: fs }

/-- Takes a character that is a token of its own. -/
def takeChar (p : Progress) (c : Char) : Progress :=
  match p.stack with
  | [] => { p with nodes := addChar c p.nodes }
  | f :: fs =>
    if f.depth = 0 ∧ c = ',' then
      { p with stack := { f with args := f.nodes.reverse :: f.args, nodes := [] } :: fs }
    else if f.depth = 0 ∧ c = ')' then add { p with stack := fs } f.close
    else
      let depth := if c = '(' then f.depth + 1 else if c = ')' then f.depth - 1 else f.depth
      { p with stack := { f.addChar c with depth } :: fs }

/-- Takes a token. -/
def take (p : Progress) (t : Token) : Progress :=
  let next := match t with
    | .char c => p.takeChar c
    | .reference r => p.add (.reference r)
    | .opening name => { p with stack := ⟨name, p.position, [], [], 0⟩ :: p.stack }
  { next with position := p.position + t.print.length }

/-- The template, if no call is open. -/
def finish (p : Progress) : Except Unclosed (List Node) :=
  match p.stack.getLast? with
  | none => .ok p.nodes.reverse
  | some f => .error ⟨f.name, f.position⟩

end Progress

/-- Reads a template. -/
def read (template : String) : Except Unclosed (List Node) :=
  ((tokens template).foldl Progress.take Progress.start).finish

end VersionTrail.Template
