/-
# The call that is left open

A template is refused for one reason: a call is still open at its end. Then the
call at the bottom of the stack is named, the outermost one. All in front of it was
read on its own, and closing parentheses at the end of the template close what is
open, the plain parentheses of each call before the call itself.

Two invariants carry this: the outermost open call starts behind the pieces outside
of calls, and what was read stays well formed while parentheses are closed. Since a
closing parenthesis ends plain text, it completes no reference and no opening of a
call that the end of the template had cut short.
-/
import VersionTrail.Proofs.Template.Reading

namespace VersionTrail.Template

open VersionTrail.Text

/-- A number of closing parentheses. -/
def closings (k : Nat) : List Char :=
  List.replicate k ')'

/-- What is true of a call that is reported as unclosed in a template: where it
stands, what was read in front of it, and how the template can be repaired. -/
structure Unclosed.Locates (u : Unclosed) (template front back : String) (nodes : List Node) :
    Prop where
  name : IsName u.name.toList
  written : template = front ++ ("$" ++ u.name ++ "(" ++ back)
  position : u.position = front.length
  message : u.message = "function '$" ++ u.name ++ "' opened at position " ++
    toString front.length ++ " is missing its closing ')'"
  /-- In front of the call nothing is left open. -/
  front_read : read front = .ok nodes
  /-- Closing parentheses make the call the last piece, with all that was written
  behind it. -/
  repaired : ∃ k args, 1 ≤ k ∧
    read (template ++ String.ofList (closings k)) = .ok (nodes ++ [.call u.name args]) ∧
    (Node.call u.name args).print =
      "$" ++ u.name ++ "(" ++ back ++ String.ofList (closings k)

namespace Progress

/-- What reading keeps of positions. -/
structure Placed (p : Progress) : Prop where
  position : p.position = p.print.length
  /-- Behind the pieces outside of calls, the outermost call starts. -/
  outermost : ∀ n ∈ (p.stack.map OpenCall.position).getLast?,
    n = (printAll p.nodes.reverse).length

theorem placed_start : start.Placed :=
  ⟨by rw [print_start]; rfl, nofun⟩

/-- A piece changes the outside only where no call is open. -/
theorem outermost_add {p : Progress} (n : Node)
    (hp : ∀ m ∈ (p.stack.map OpenCall.position).getLast?, m = (printAll p.nodes.reverse).length) :
    ∀ m ∈ ((p.add n).stack.map OpenCall.position).getLast?,
      m = (printAll (p.add n).nodes.reverse).length := by
  obtain ⟨nodes, stack, position⟩ := p
  cases stack with
  | nil => nofun
  | cons f fs => exact hp

theorem outermost_takeChar {p : Progress} (c : Char)
    (hp : ∀ m ∈ (p.stack.map OpenCall.position).getLast?, m = (printAll p.nodes.reverse).length) :
    ∀ m ∈ ((p.takeChar c).stack.map OpenCall.position).getLast?,
      m = (printAll (p.takeChar c).nodes.reverse).length := by
  obtain ⟨nodes, stack, position⟩ := p
  cases stack with
  | nil => nofun
  | cons f fs =>
      unfold takeChar
      dsimp only
      split
      · exact hp
      · split
        · refine outermost_add f.close fun m hm => hp m ?_
          rw [List.map_cons, List.getLast?_cons, Option.mem_def.mp hm]
          rfl
        · exact hp

theorem placed_take {p : Progress} (hp : p.Placed) (t : Token) : (p.take t).Placed where
  position := by
    rw [print_take, String.length_append, ← hp.position]
    rfl
  outermost := by
    cases t with
    | char c => exact outermost_takeChar c hp.outermost
    | reference r => exact outermost_add _ hp.outermost
    | opening name =>
        obtain ⟨nodes, stack, position⟩ := p
        cases stack with
        | nil =>
            have hposition := hp.position
            simp only [print, List.reverse_nil, List.map_nil, String.join_nil,
              String.append_empty] at hposition
            rintro _ ⟨⟩
            exact hposition
        | cons f fs => exact hp.outermost

theorem placed_foldl_take {p : Progress} (hp : p.Placed) (ts : List Token) :
    (ts.foldl take p).Placed := by
  induction ts generalizing p with
  | nil => exact hp
  | cons t ts ih => exact ih (placed_take hp t)

theorem foldlM_depthAfter?_closings (depth : Nat) :
    (closings depth).foldlM depthAfter? depth = some 0 := by
  induction depth with
  | zero => rfl
  | succ depth ih =>
      have hnext : depthAfter? (depth + 1) ')' = some depth := rfl
      rw [closings, List.replicate_succ, List.foldlM_cons, hnext]
      exact ih

/-- The plain parentheses of a call are closed, and then the call. -/
theorem exists_foldl_take_closings (nodes : List Node) (f : OpenCall) (fs : List OpenCall)
    (position : Nat) :
    ∃ args position', ((closings (f.depth + 1)).map Token.char).foldl take
        ⟨nodes, f :: fs, position⟩ =
      { add ⟨nodes, fs, position⟩ (.call f.name args) with position := position' } := by
  obtain ⟨middle, hmiddle⟩ :=
    foldl_take_chars_in_call (foldlM_depthAfter?_closings f.depth) nodes fs position
  rw [closings] at hmiddle
  rw [closings, List.replicate_succ', List.map_append, List.foldl_append, hmiddle,
    List.map_singleton,
    List.foldl_cons, List.foldl_nil, take_close rfl]
  cases fs with
  | nil => exact ⟨_, _, rfl⟩
  | cons g fs => exact ⟨_, _, rfl⟩

/-- Once all calls are closed, the outermost one is the last piece. -/
theorem exists_foldl_take_closings_all {name : String} (nodes : List Node) (f : OpenCall)
    (fs : List OpenCall) (position : Nat)
    (hname : ((f :: fs).map OpenCall.name).getLast? = some name) :
    ∃ k args position', 1 ≤ k ∧
      ((closings k).map Token.char).foldl take ⟨nodes, f :: fs, position⟩ =
        ⟨.call name args :: nodes, [], position'⟩ := by
  induction fs generalizing f position with
  | nil =>
      obtain rfl : f.name = name := by simpa using hname
      obtain ⟨args, position', hclosed⟩ := exists_foldl_take_closings nodes f [] position
      exact ⟨f.depth + 1, args, position', Nat.succ_pos _, hclosed⟩
  | cons g fs ih =>
      -- The closed call is a piece of the next one, which keeps its name.
      obtain ⟨inner, middle, hinner⟩ := exists_foldl_take_closings nodes f (g :: fs) position
      rw [List.map_cons, List.map_cons, List.getLast?_cons_cons] at hname
      obtain ⟨k, args, position', -, hclosed⟩ := ih (g.add (.call f.name inner)) middle hname
      refine ⟨f.depth + 1 + k, args, position', by omega, ?_⟩
      rw [closings, List.replicate_add, List.map_append, List.foldl_append]
      exact (congrArg (List.foldl take · _) hinner).trans hclosed

theorem exists_closed_of_getLast? {stack : List OpenCall} {f : OpenCall}
    (hlast : stack.getLast? = some f) (nodes : List Node) (position : Nat) :
    ∃ k args position', 1 ≤ k ∧
      ((closings k).map Token.char).foldl take ⟨nodes, stack, position⟩ =
        ⟨.call f.name args :: nodes, [], position'⟩ := by
  cases stack with
  | nil => contradiction
  | cons g fs =>
      refine exists_foldl_take_closings_all nodes g fs position ?_
      rw [List.getLast?_map, hlast]
      rfl

theorem endsText_closings (k : Nat) : EndsText (closings k) := by
  cases k with
  | zero => nofun
  | succ k =>
      rintro _ ⟨⟩
      decide

/-- What was read is still well formed when closing parentheses follow. -/
theorem Invariant.closings {p : Progress} (hp : p.Invariant []) (k : Nat) :
    p.Invariant (closings k) where
  nodes := hp.nodes
  calls := hp.calls
  ends := by
    intro text others htext
    have hunmarked := hp.ends text others htext
    refine ⟨fun back hback => ?_, fun back hback => ?_⟩
    · have hnone := hunmarked.no_reference back hback
      rw [List.append_nil] at hnone
      exact referenceAfter?_append_of_endsText hnone (endsText_closings k)
    · have hnone := hunmarked.no_opening back hback
      rw [List.append_nil] at hnone
      exact callAfter?_append_of_endsText hnone (endsText_closings k)

theorem Invariant.foldl_take_closings {p : Progress} {k : Nat}
    (hp : p.Invariant (Template.closings k)) :
    (((Template.closings k).map Token.char).foldl take p).Invariant [] := by
  induction k generalizing p with
  | zero => exact hp
  | succ k ih => exact ih (invariant_take_char hp (by simp) (by simp))

end Progress

theorem join_print_chars (cs : List Char) :
    String.join ((cs.map Token.char).map Token.print) = String.ofList cs := by
  induction cs with
  | nil => rfl
  | cons c cs ih =>
      rw [List.map_cons, List.map_cons, String.join_cons, ih]
      simp

/-- Pieces that closing parentheses finish are read from the text with these
parentheses behind it. -/
theorem read_of_closed {p : Progress} (hp : p.Invariant []) {k : Nat} {nodes : List Node}
    {position : Nat}
    (hclosed : ((closings k).map Token.char).foldl Progress.take p = ⟨nodes, [], position⟩) :
    printAll nodes.reverse = p.print ++ String.ofList (closings k) ∧
      read (p.print ++ String.ofList (closings k)) = .ok nodes.reverse := by
  have hprint := Progress.print_foldl_take ((closings k).map Token.char) p
  have hkept := (hp.closings k).foldl_take_closings
  rw [hclosed] at hkept
  rw [hclosed, join_print_chars] at hprint
  have hwritten := (Progress.printAll_of_finish rfl).trans hprint
  exact ⟨hwritten, hwritten ▸ read_of_wellFormed (wellFormed_reverse.mpr hkept.nodes)⟩

/-- What was read up to an open call and what is written behind its parenthesis. -/
theorem exists_print_eq_of_getLast? {stack : List OpenCall} {f : OpenCall}
    (hlast : stack.getLast? = some f) (nodes : List Node) (position : Nat) :
    ∃ back, Progress.print ⟨nodes, stack, position⟩ =
      printAll nodes.reverse ++ ("$" ++ f.name ++ "(" ++ back) := by
  obtain ⟨inner, rfl⟩ := List.getLast?_eq_some_iff.mp hlast
  refine ⟨printFinished f.args.reverse ++ printAll f.nodes.reverse ++
    String.join (inner.reverse.map OpenCall.print), ?_⟩
  simp [Progress.print, OpenCall.print, String.join_cons, String.append_assoc]

/-- Whenever a template is refused, the outermost call that is open at its end is
to blame, and closing parentheses are all that the template lacks. -/
theorem exists_locates_of_read {template : String} {u : Unclosed}
    (hread : read template = .error u) :
    ∃ front back nodes, u.Locates template front back nodes := by
  have hinvariant := Progress.invariant_takeAll template.toList (Progress.invariant_start _)
  have hplaced : (Progress.start.takeAll template.toList).Placed :=
    Progress.placed_foldl_take Progress.placed_start _
  have hprint : (Progress.start.takeAll template.toList).print = template :=
    print_foldl_take_tokens template
  rw [← Progress.finish_takeAll, Progress.finish] at hread
  generalize Progress.start.takeAll template.toList = p at hinvariant hplaced hprint hread
  obtain ⟨nodes, stack, position⟩ := p
  cases hlast : stack.getLast? with
  | none => simp [hlast] at hread
  | some f =>
      obtain rfl : (⟨f.name, f.position⟩ : Unclosed) = u := by simpa [hlast] using hread
      obtain ⟨back, hback⟩ := exists_print_eq_of_getLast? hlast nodes position
      have hposition : f.position = (printAll nodes.reverse).length :=
        hplaced.outermost _ (by rw [List.getLast?_map, hlast]; rfl)
      obtain ⟨k, args, position', hk, hclosed⟩ :=
        Progress.exists_closed_of_getLast? hlast nodes position
      obtain ⟨hall, hrepaired⟩ := read_of_closed hinvariant hclosed
      rw [hprint] at hall hrepaired
      have hwritten := hprint.symm.trans hback
      have hname := (hinvariant.calls f (List.mem_of_getLast? hlast)).name
      refine ⟨printAll nodes.reverse, back, nodes.reverse, hname, hwritten, hposition, ?_,
        read_of_wellFormed (wellFormed_reverse.mpr hinvariant.nodes), k, args, hk, ?_, ?_⟩
      · rw [Unclosed.message, hposition]
      · rw [hrepaired, List.reverse_cons]
      · rw [List.reverse_cons, printAll_append, printAll_singleton, hwritten,
          String.append_assoc] at hall
        have hcancel := congrArg String.toList hall
        rw [String.toList_append, String.toList_append, List.append_cancel_left_eq] at hcancel
        exact String.toList_inj.mp hcancel

/-- Two calls and a plain parenthesis are left open, and behind them what could
begin a reference. -/
theorem exists_locates_of_read_nested :
    read "a$B(),$F(x,$G((<k" = .error ⟨"F", 6⟩ ∧
      (∃ front back nodes,
        Unclosed.Locates ⟨"F", 6⟩ "a$B(),$F(x,$G((<k" front back nodes) ∧
      (read "a$B(),$F(x,$G((<k)))").toOption.isSome = true :=
  ⟨by rfl, exists_locates_of_read (by rfl), by decide +kernel⟩

end VersionTrail.Template
