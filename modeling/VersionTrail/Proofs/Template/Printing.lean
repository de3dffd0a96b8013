/-
# Printing what was read

Printing the pieces of a template gives the template back, character for
character. Two facts carry this. The tokens of a template print as the
template, because the lookahead behind an angle bracket or a dollar sign takes
exactly the characters that its token prints. And reading keeps an invariant:
what has been read so far, printed with its open calls left open, is the text
of the tokens taken so far.
-/
import VersionTrail.Proofs.Text.Search
import VersionTrail.Template.Reader

namespace VersionTrail.Template

open VersionTrail.Text

attribute [simp] Node.print printAll Token.print
attribute [local simp] String.join_nil String.join_cons String.join_append

/-- A reference prints as what stood between its angle brackets. -/
theorem print_of_referenceOf? {inner : List Char} {r : Reference}
    (hr : referenceOf? inner = some r) : r.print = String.ofList ('<' :: inner ++ ['>']) := by
  unfold referenceOf? at hr
  split at hr
  · rename_i space key hsplit
    split at hr
    · contradiction
    · obtain rfl := Option.some.inj hr
      rw [eq_append_of_splitFirst? hsplit]
      simp [Reference.print, ← String.toList_inj]
  · split at hr
    · contradiction
    · obtain rfl := Option.some.inj hr
      simp [Reference.print, ← String.toList_inj]

/-- A reference prints as the opening bracket and the characters that the
lookahead takes. -/
theorem print_of_referenceAfter? {cs : List Char} {r : Reference}
    (hr : referenceAfter? cs = some r) :
    r.print = String.ofList ('<' :: cs.take ((cs.takeWhile isReferenceChar).length + 1)) := by
  unfold referenceAfter? at hr
  split at hr
  · rename_i rest hrest
    rw [take_length_takeWhile_succ hrest]
    exact print_of_referenceOf? hr
  · contradiction

/-- The opening of a call prints as the dollar sign and the characters that the
lookahead takes. -/
theorem print_of_callAfter? {cs : List Char} {name : String} (hname : callAfter? cs = some name) :
    (Token.opening name).print = String.ofList ('$' :: cs.take (name.length + 1)) := by
  unfold callAfter? at hname
  split at hname
  · split at hname
    · split at hname
      · rename_i rest hrest
        obtain rfl := Option.some.inj hname
        rw [String.length_ofList, take_length_takeWhile_succ hrest]
        simp [← String.toList_inj]
      · contradiction
    · contradiction
  · contradiction

/-- A token prints as its first character and those behind that belong to it. -/
theorem print_tokenAt (c : Char) (cs : List Char) :
    (tokenAt c cs).1.print = String.ofList (c :: cs.take (tokenAt c cs).2) := by
  have plain : (Token.char c).print = String.ofList (c :: cs.take 0) := by
    simp
  unfold tokenAt
  split
  · rename_i hc
    split
    · rename_i r hr
      rw [hc]
      exact print_of_referenceAfter? hr
    · exact plain
  · split
    · rename_i hc
      split
      · rename_i name hname
        rw [hc]
        exact print_of_callAfter? hname
      · exact plain
    · exact plain

/-- The tokens behind some skipped characters print as the text behind them. -/
theorem join_print_tokensAfter (skip : Nat) (cs : List Char) :
    String.join ((tokensAfter skip cs).map Token.print) = String.ofList (cs.drop skip) := by
  induction cs generalizing skip with
  | nil => simp [tokensAfter]
  | cons c cs ih =>
      cases skip with
      | zero =>
          rw [tokensAfter, List.map_cons, String.join_cons, ih, print_tokenAt,
            ← String.ofList_append, List.cons_append, List.take_append_drop, List.drop_zero]
      | succ skip => rw [tokensAfter, ih, List.drop_succ_cons]

@[simp]
theorem join_print_tokens (template : String) :
    String.join ((tokens template).map Token.print) = template := by
  rw [tokens, join_print_tokensAfter, List.drop_zero, String.ofList_toList]

@[simp]
theorem printAll_append (front back : List Node) :
    printAll (front ++ back) = printAll front ++ printAll back := by
  induction front with
  | nil => simp
  | cons n front ih => simp [ih, String.append_assoc]

theorem printAll_singleton (n : Node) : printAll [n] = n.print := by
  simp

/-- An added character prints behind the pieces, whether or not it makes a
piece of its own. -/
@[simp]
theorem printAll_reverse_addChar (c : Char) (nodes : List Node) :
    printAll (addChar c nodes).reverse = printAll nodes.reverse ++ String.singleton c := by
  unfold addChar
  split
  · simp [String.push_eq_append, String.append_assoc, -String.append_singleton]
  · simp

/-- The written form of arguments that more arguments follow. -/
def printFinished (args : List (List Node)) : String :=
  String.join (args.map fun arg => printAll arg ++ ",")

/-- The last argument has no comma behind it. -/
@[simp]
theorem printArgs_append_singleton (args : List (List Node)) (last : List Node) :
    printArgs (args ++ [last]) = printFinished args ++ printAll last := by
  induction args with
  | nil => simp [printArgs, printFinished]
  | cons arg args ih =>
      have hne : args ++ [last] ≠ [] := by simp
      rw [List.cons_append, printArgs.eq_3 _ _ hne, ih]
      simp [printFinished, String.append_assoc]

/-- The written form of a call that is still open. -/
def OpenCall.print (f : OpenCall) : String :=
  (Token.opening f.name).print ++ printFinished f.args.reverse ++ printAll f.nodes.reverse

/-- The written form of all that has been read. -/
def Progress.print (p : Progress) : String :=
  printAll p.nodes.reverse ++ String.join (p.stack.reverse.map OpenCall.print)

namespace OpenCall

@[simp]
theorem print_close (f : OpenCall) : f.close.print = f.print ++ ")" := by
  have hargs : printArgs f.allArgs = printFinished f.args.reverse ++ printAll f.nodes.reverse := by
    unfold allArgs
    split
    · rename_i hempty
      obtain ⟨hargs, hnodes⟩ : f.args = [] ∧ f.nodes = [] := by simpa using hempty
      simp [hargs, hnodes, printArgs, printFinished]
    · simp
  simp [close, hargs, print, String.append_assoc]

/-- A comma ends the argument that is being read. -/
theorem print_endArgument (f : OpenCall) :
    OpenCall.print { f with args := f.nodes.reverse :: f.args, nodes := [] } = f.print ++ "," := by
  simp [print, printFinished, String.append_assoc]

end OpenCall

namespace Progress

@[simp]
theorem print_cons (nodes : List Node) (f : OpenCall) (fs : List OpenCall) (position : Nat) :
    print ⟨nodes, f :: fs, position⟩ = print ⟨nodes, fs, position⟩ ++ f.print := by
  simp [print, String.append_assoc]

@[simp]
theorem print_position (p : Progress) (position : Nat) :
    print { p with position } = p.print :=
  rfl

/-- An added piece prints at the end. -/
@[simp]
theorem print_add (p : Progress) (n : Node) : (p.add n).print = p.print ++ n.print := by
  obtain ⟨nodes, stack, position⟩ := p
  cases stack with
  | nil => simp [add, print]
  | cons f fs => simp [add, OpenCall.add, OpenCall.print, String.append_assoc]

/-- A character that is a token of its own prints at the end, be it text, the
end of an argument or the end of a call. -/
@[simp]
theorem print_takeChar (p : Progress) (c : Char) :
    (p.takeChar c).print = p.print ++ String.singleton c := by
  obtain ⟨nodes, stack, position⟩ := p
  cases stack with
  | nil => simp [takeChar, print]
  | cons f fs =>
      unfold takeChar
      dsimp only
      split
      · rename_i hcomma
        rw [print_cons, print_cons, OpenCall.print_endArgument, hcomma.2, String.append_assoc]
        rfl
      · split
        · rename_i hclose
          rw [print_add, OpenCall.print_close, print_cons, hclose.2, ← String.append_assoc]
          rfl
        · simp [OpenCall.addChar, OpenCall.print, String.append_assoc, -String.append_singleton]

/-- Taking a token keeps the invariant. -/
@[simp]
theorem print_take (p : Progress) (t : Token) : (p.take t).print = p.print ++ t.print := by
  cases t with
  | char c => exact p.print_takeChar c
  | reference r => exact p.print_add (.reference r)
  | opening name =>
      show print ⟨p.nodes, ⟨name, p.position, [], [], 0⟩ :: p.stack, _⟩ = _
      simp [OpenCall.print, printFinished]

@[simp]
theorem print_foldl_take (ts : List Token) (p : Progress) :
    (ts.foldl take p).print = p.print ++ String.join (ts.map Token.print) := by
  induction ts generalizing p with
  | nil => simp
  | cons t ts ih => simp [ih, String.append_assoc]

/-- Nothing has been read at the start. -/
@[simp]
theorem print_start : start.print = "" := by
  simp [start, print]

/-- A finished reading has no open call, so its pieces are all that was read. -/
theorem printAll_of_finish {p : Progress} {nodes : List Node} (hfinish : p.finish = .ok nodes) :
    printAll nodes = p.print := by
  unfold finish at hfinish
  split at hfinish
  · rename_i hlast
    obtain rfl := Except.ok.inj hfinish
    simp [print, List.getLast?_eq_none_iff.mp hlast]
  · contradiction

end Progress

/-- Whatever has been taken of a template, open calls included, prints as the
template. -/
theorem print_foldl_take_tokens (template : String) :
    ((tokens template).foldl Progress.take .start).print = template := by
  simp

/-- Printing a template that was read gives back every character of it. -/
theorem printAll_read {template : String} {nodes : List Node}
    (hread : read template = .ok nodes) : printAll nodes = template :=
  (Progress.printAll_of_finish hread).trans (print_foldl_take_tokens template)

/-- Plain text in parentheses, an empty argument, a blank one and a call without
arguments all keep their characters. -/
theorem printAll_read_nested :
    let nodes : List Node :=
      [.plain "a<b",
        .call "F" [[.plain "(x,", .reference ⟨some "m", "k"⟩, .plain ")"], [], [.plain " "]],
        .plain "<", .call "G" []]
    read "a<b$F((x,<m:k>),, )<$G()" = .ok nodes ∧ printAll nodes = "a<b$F((x,<m:k>),, )<$G()" :=
  ⟨by rfl, printAll_read (by rfl)⟩

end VersionTrail.Template
