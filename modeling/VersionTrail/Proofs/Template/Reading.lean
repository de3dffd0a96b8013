/-
# What can be read

A list of pieces is read from its written form exactly where it is well formed,
and from no other text. One direction follows the pieces: each is taken as a
whole, whatever was read before and whatever comes behind. The other follows the
characters: at every moment what has been read is well formed, open calls
included. A plain text at the end may still grow, so the invariant says of it
what the lookahead found: behind none of its marks is there a reference or a
call, even together with what has not been read yet.
-/
import VersionTrail.Proofs.Template.Lookahead

namespace VersionTrail.Template

open VersionTrail.Text

namespace Progress

/-! ## Steps of reading -/

/-- Reads the characters that come next. -/
def takeAll (p : Progress) (cs : List Char) : Progress :=
  (tokensAfter 0 cs).foldl take p

@[simp]
theorem finish_takeAll (template : String) :
    (start.takeAll template.toList).finish = read template :=
  rfl

@[simp]
theorem takeAll_nil (p : Progress) : p.takeAll [] = p :=
  rfl

@[simp]
theorem takeAll_cons (p : Progress) (c : Char) (cs : List Char) :
    p.takeAll (c :: cs) = (p.take (tokenAt c cs).1).takeAll (cs.drop (tokenAt c cs).2) := by
  have hskip (skip : Nat) (cs : List Char) :
      tokensAfter skip cs = tokensAfter 0 (cs.drop skip) := by
    induction cs generalizing skip with
    | nil => simp [tokensAfter]
    | cons c cs ih =>
        cases skip with
        | zero => rfl
        | succ skip => rw [tokensAfter, ih, List.drop_succ_cons]
  rw [takeAll, tokensAfter, List.foldl_cons, hskip, takeAll]

end Progress

/-- The token at a character is a reference or the opening of a call where the
lookahead finds one, and otherwise the character itself. -/
theorem tokenAt_cases (c : Char) (cs : List Char) :
    (∃ r, c = '<' ∧ referenceAfter? cs = some r ∧ (tokenAt c cs).1 = .reference r) ∨
      (∃ name, c = '$' ∧ callAfter? cs = some name ∧ (tokenAt c cs).1 = .opening name) ∨
      (tokenAt c cs = (.char c, 0) ∧ (c = '<' → referenceAfter? cs = none) ∧
        (c = '$' → callAfter? cs = none)) := by
  unfold tokenAt
  by_cases hangle : c = '<'
  · cases href : referenceAfter? cs with
    | some r => simp [hangle]
    | none => simp [hangle]
  by_cases hdollar : c = '$'
  · cases hcall : callAfter? cs with
    | some name => simp [hdollar]
    | none => simp [hdollar]
  · simp [hangle, hdollar]

theorem tokenAt_eq_char {c : Char} {cs : List Char} (hangle : c = '<' → referenceAfter? cs = none)
    (hdollar : c = '$' → callAfter? cs = none) : tokenAt c cs = (.char c, 0) := by
  rcases tokenAt_cases c cs with ⟨r, hc, hr, -⟩ | ⟨name, hc, hname, -⟩ | ⟨htoken, -, -⟩
  · simp [hangle hc] at hr
  · simp [hdollar hc] at hname
  · exact htoken

namespace Progress

theorem takeAll_char {c : Char} {cs : List Char} (hangle : c = '<' → referenceAfter? cs = none)
    (hdollar : c = '$' → callAfter? cs = none) (p : Progress) :
    p.takeAll (c :: cs) = (p.take (.char c)).takeAll cs := by
  rw [takeAll_cons, tokenAt_eq_char hangle hdollar, List.drop_zero]

/-- A well-formed reference is taken as a whole. -/
theorem takeAll_reference {r : Reference} (hr : r.WellFormed) (p : Progress) (rest : List Char) :
    p.takeAll (r.print.toList ++ rest) = (p.take (.reference r)).takeAll rest := by
  obtain ⟨inner, hinner, hlegal⟩ := hr.exists_inner
  have hclose : isReferenceChar '>' = false := not_isReferenceChar_of_mem_marks (by decide)
  have htoken : tokenAt '<' (inner ++ '>' :: rest) = (.reference r, inner.length + 1) := by
    rw [tokenAt, if_pos rfl, referenceAfter?_append hlegal, hinner,
      takeWhile_append_cons hlegal hclose]
  have hwritten : r.print.toList ++ rest = '<' :: (inner ++ '>' :: rest) := by
    simp [print_of_referenceOf? hinner]
  rw [hwritten, takeAll_cons, htoken]
  simp

/-- So is the opening of a call. -/
theorem takeAll_opening {name : String} (hname : IsName name.toList) (p : Progress)
    (rest : List Char) :
    p.takeAll ('$' :: (name.toList ++ '(' :: rest)) = (p.take (.opening name)).takeAll rest := by
  have htoken : tokenAt '$' (name.toList ++ '(' :: rest) = (.opening name, name.length + 1) := by
    rw [tokenAt, if_neg (by decide), if_pos rfl, callAfter?_append hname, String.ofList_toList]
  rw [takeAll_cons, htoken, ← String.length_toList]
  simp

/-- The characters of plain text are taken one by one. -/
theorem takeAll_plain {text rest : List Char} (htext : IsPlain text) (hrest : EndsText rest)
    (p : Progress) :
    p.takeAll (text ++ rest) = ((text.map Token.char).foldl take p).takeAll rest := by
  induction text generalizing p with
  | nil => rfl
  | cons c text ih =>
      have hangle : c = '<' → referenceAfter? (text ++ rest) = none := by
        rintro rfl
        exact referenceAfter?_of_isPlain htext hrest
      have hdollar : c = '$' → callAfter? (text ++ rest) = none := by
        rintro rfl
        exact callAfter?_of_isPlain htext hrest
      rw [List.cons_append, takeAll_char hangle hdollar, ih htext.of_cons, List.map_cons,
        List.foldl_cons]

/-! ## Pieces are taken as a whole -/

theorem take_char_in_call {f : OpenCall} {c : Char} {depth : Nat}
    (hdepth : depthAfter? f.depth c = some depth) (nodes : List Node) (fs : List OpenCall)
    (position : Nat) :
    take ⟨nodes, f :: fs, position⟩ (.char c) =
      ⟨nodes, { f.addChar c with depth } :: fs, position + (Token.char c).print.length⟩ := by
  obtain ⟨hplace, hcount⟩ := depthAfter?_eq_some_iff.mp hdepth
  have hcomma : ¬ (f.depth = 0 ∧ c = ',') := by
    rintro ⟨hzero, rfl⟩
    simp [hzero] at hplace
  have hclose : ¬ (f.depth = 0 ∧ c = ')') := by
    rintro ⟨hzero, rfl⟩
    simp [hzero] at hplace
  have hnext : (if c = '(' then f.depth + 1 else if c = ')' then f.depth - 1 else f.depth) =
      depth := by
    by_cases hopen : c = '('
    · simpa [hopen] using hcount
    · by_cases hshut : c = ')'
      · simp [hshut] at hcount ⊢
        omega
      · simpa [hopen, hshut] using hcount
  simp only [take, takeChar, if_neg hcomma, if_neg hclose, hnext]

theorem take_close {f : OpenCall} (hdepth : f.depth = 0) (nodes : List Node) (fs : List OpenCall)
    (position : Nat) :
    take ⟨nodes, f :: fs, position⟩ (.char ')') =
      { add ⟨nodes, fs, position⟩ f.close with
        position := position + (Token.char ')').print.length } := by
  simp [take, takeChar, hdepth]

theorem take_comma {f : OpenCall} (hdepth : f.depth = 0) (nodes : List Node) (fs : List OpenCall)
    (position : Nat) :
    take ⟨nodes, f :: fs, position⟩ (.char ',') =
      ⟨nodes, { f with args := f.nodes.reverse :: f.args, nodes := [] } :: fs,
        position + (Token.char ',').print.length⟩ := by
  simp [take, takeChar, hdepth]

/-- In an argument, characters are text while they close only what was opened. -/
theorem foldl_take_chars_in_call {f : OpenCall} {cs : List Char} {depth : Nat}
    (hdepth : cs.foldlM depthAfter? f.depth = some depth) (nodes : List Node)
    (fs : List OpenCall) (position : Nat) :
    ∃ position', (cs.map Token.char).foldl take ⟨nodes, f :: fs, position⟩ =
      ⟨nodes, { f with nodes := cs.foldl (fun ns c => addChar c ns) f.nodes, depth } :: fs,
        position'⟩ := by
  induction cs generalizing f position with
  | nil =>
      obtain rfl : f.depth = depth := by simpa using hdepth
      exact ⟨position, rfl⟩
  | cons c cs ih =>
      rw [List.foldlM_cons, Option.bind_eq_bind, Option.bind_eq_some_iff] at hdepth
      obtain ⟨next, hnext, hrest⟩ := hdepth
      rw [List.map_cons, List.foldl_cons, take_char_in_call hnext]
      exact ih (f := { f.addChar c with depth := next }) hrest _

/-- Outside of calls all characters are text. -/
theorem foldl_take_chars (cs : List Char) (nodes : List Node) (position : Nat) :
    ∃ position', (cs.map Token.char).foldl take ⟨nodes, [], position⟩ =
      ⟨cs.foldl (fun ns c => addChar c ns) nodes, [], position'⟩ := by
  induction cs generalizing nodes position with
  | nil => exact ⟨position, rfl⟩
  | cons c cs ih =>
      rw [List.map_cons, List.foldl_cons, List.foldl_cons]
      exact ih (addChar c nodes) _

end Progress

/-- Characters make one plain text, behind pieces that do not end with one. -/
theorem foldl_addChar {text : String} (htext : text ≠ "") {nodes : List Node}
    (hnodes : ¬ StartsWithText nodes) :
    text.toList.foldl (fun ns c => addChar c ns) nodes = .plain text :: nodes := by
  have hgrow (cs : List Char) (front : String) :
      cs.foldl (fun ns c => addChar c ns) (.plain front :: nodes) =
        .plain (front ++ String.ofList cs) :: nodes := by
    induction cs generalizing front with
    | nil => simp
    | cons c cs ih =>
        rw [List.foldl_cons, addChar, ih, String.push_eq_append, String.append_assoc]
        simp
  cases hcs : text.toList with
  | nil => exact absurd (String.toList_inj.mp hcs) htext
  | cons c cs =>
      have hfirst : addChar c nodes = .plain (String.singleton c) :: nodes := by
        unfold addChar
        split
        · exact absurd trivial hnodes
        · rfl
      rw [List.foldl_cons, hfirst, hgrow, ← String.ofList_toList (s := text), hcs]
      simp

theorem endsText_printAll {ns : List Node} (hns : ¬ StartsWithText ns) {rest : List Char}
    (hrest : EndsText rest) : EndsText ((printAll ns).toList ++ rest) := by
  cases ns with
  | nil => simpa using hrest
  | cons n ns =>
      cases n with
      | plain text => exact absurd trivial hns
      | reference r =>
          obtain ⟨space, key⟩ := r
          cases space <;> simp [Reference.print]
      | call name args => simp

/-- A call that is closed behind its last argument has the arguments that were
read. -/
theorem OpenCall.close_eq {f : OpenCall} {args : List (List Node)} (hargs : args ≠ [[]])
    (hread : f.nodes.reverse :: f.args = args.reverse) : f.close = .call f.name args := by
  have hnonempty : (f.args.isEmpty && f.nodes.isEmpty) = false := by
    rw [Bool.eq_false_iff]
    intro hempty
    obtain ⟨hnone, hnodes⟩ : f.args = [] ∧ f.nodes = [] := by simpa using hempty
    rw [hnone, hnodes, ← List.reverse_inj, List.reverse_reverse] at hread
    exact hargs hread.symm
  rw [close, allArgs, hnonempty, hread]
  simp

open Progress in
mutual

/-- A reference or a call is added to what is read at the moment. -/
theorem takeAll_piece : ∀ n : Node, n.WellFormed → ¬ n.IsText → ∀ (p : Progress) (rest : List Char),
    ∃ position, p.takeAll (n.print.toList ++ rest) = takeAll { p.add n with position } rest
  | .plain text, _, htext, _, _ => absurd trivial htext
  | .reference r, hr, _, p, rest => by
      refine ⟨p.position + r.print.length, ?_⟩
      rw [Node.print, takeAll_reference hr]
      rfl
  | .call name args, ⟨hname, hne, hargs⟩, _, p, rest => by
      -- Up to the closing parenthesis the call is open, with all its arguments.
      have hopen : ∃ f position, p.takeAll ((Node.call name args).print.toList ++ rest) =
          takeAll ⟨p.nodes, f :: p.stack, position⟩ (')' :: rest) ∧ f.depth = 0 ∧
          f.close = .call name args := by
        have hwritten : (Node.call name args).print.toList ++ rest =
            '$' :: (name.toList ++ '(' :: ((printArgs args).toList ++ ')' :: rest)) := by
          simp
        rw [hwritten, takeAll_opening hname]
        cases args with
        | nil => exact ⟨⟨name, p.position, [], [], 0⟩, _, rfl, rfl, rfl⟩
        | cons arg args =>
            obtain ⟨f, position, hread, hsame, hdepth, hall⟩ := takeAll_args (arg :: args) hargs
              (List.cons_ne_nil _ _) p.nodes ⟨name, p.position, [], [], 0⟩ p.stack _ rest rfl rfl
            refine ⟨f, position, hread, hdepth, ?_⟩
            rw [f.close_eq hne (by simpa using hall), hsame]
      obtain ⟨f, position, hread, hdepth, hf⟩ := hopen
      refine ⟨position + (Token.char ')').print.length, ?_⟩
      rw [hread, takeAll_char (by simp) (by simp), take_close hdepth, hf]
      cases hstack : p.stack <;> simp [add, hstack]

/-- Pieces in an argument are added to it. -/
theorem takeAll_argument : ∀ ns : List Node, WellFormed ns →
    ∀ (nodes : List Node) (f : OpenCall) (fs : List OpenCall) (position depth : Nat)
      (rest : List Char), ¬ (StartsWithText f.nodes ∧ StartsWithText ns) →
    (ownText ns).foldlM depthAfter? f.depth = some depth → EndsText rest →
    ∃ position', takeAll ⟨nodes, f :: fs, position⟩ ((printAll ns).toList ++ rest) =
      takeAll ⟨nodes, { f with nodes := ns.reverse ++ f.nodes, depth } :: fs, position'⟩ rest
  | [], _, nodes, f, fs, position, depth, rest, _, hdepth, _ => by
      obtain rfl : f.depth = depth := by simpa using hdepth
      exact ⟨position, by simp⟩
  | n :: ns, ⟨hn, hnext, hns⟩, nodes, f, fs, position, depth, rest, hstart, hdepth, hrest => by
      rw [printAll, String.toList_append, List.append_assoc, List.reverse_cons, List.append_assoc,
        List.singleton_append]
      by_cases htext : n.IsText
      · obtain ⟨text, rfl⟩ := htext.exists_text
        have hnext : ¬ StartsWithText ns := fun h => hnext ⟨trivial, h⟩
        have hstart : ¬ StartsWithText f.nodes := fun h => hstart ⟨h, trivial⟩
        rw [ownText, List.foldlM_append, Option.bind_eq_bind, Option.bind_eq_some_iff] at hdepth
        obtain ⟨between, hbetween, hdepth⟩ := hdepth
        obtain ⟨middle, hchars⟩ := foldl_take_chars_in_call hbetween nodes fs position
        rw [foldl_addChar hn.1 hstart] at hchars
        rw [Node.print, takeAll_plain hn.2 (endsText_printAll hnext hrest), hchars]
        exact takeAll_argument ns hns nodes
          { f with nodes := .plain text :: f.nodes, depth := between } fs middle depth rest
          (fun h => hnext h.2) hdepth hrest
      · obtain ⟨middle, hmiddle⟩ := takeAll_piece n hn htext ⟨nodes, f :: fs, position⟩
          ((printAll ns).toList ++ rest)
        rw [hmiddle]
        exact takeAll_argument ns hns nodes (f.add n) fs middle depth rest (fun h => htext h.1)
          (by rwa [ownText_cons_of_not_isText htext] at hdepth) hrest

/-- Arguments are added to the call. -/
theorem takeAll_args : ∀ args : List (List Node), ArgsWellFormed args → args ≠ [] →
    ∀ (nodes : List Node) (f : OpenCall) (fs : List OpenCall) (position : Nat) (rest : List Char),
    f.nodes = [] → f.depth = 0 →
    ∃ f' position', takeAll ⟨nodes, f :: fs, position⟩ ((printArgs args).toList ++ ')' :: rest) =
      takeAll ⟨nodes, f' :: fs, position'⟩ (')' :: rest) ∧ f'.name = f.name ∧ f'.depth = 0 ∧
      f'.nodes.reverse :: f'.args = args.reverse ++ f.args
  | [], _, hne, _, _, _, _, _, _, _ => absurd rfl hne
  | [arg], ⟨harg, hbalanced, _⟩, _, nodes, f, fs, position, rest, hf, hdepth => by
      have hcount := foldlM_depthAfter?_eq_some_iff.mpr hbalanced
      rw [← hdepth] at hcount
      obtain ⟨last, hlast⟩ := takeAll_argument arg harg nodes f fs position f.depth (')' :: rest)
        (by simp [hf, StartsWithText]) hcount (by simp)
      rw [printArgs, hlast]
      exact ⟨_, last, rfl, rfl, hdepth, by simp [hf]⟩
  | arg :: next :: args, ⟨harg, hbalanced, hargs⟩, _, nodes, f, fs, position, rest, hf, hdepth => by
      have hcount := foldlM_depthAfter?_eq_some_iff.mpr hbalanced
      rw [← hdepth] at hcount
      obtain ⟨middle, hmiddle⟩ := takeAll_argument arg harg nodes f fs position f.depth
        (',' :: ((printArgs (next :: args)).toList ++ ')' :: rest))
        (by simp [hf, StartsWithText]) hcount (by simp)
      have hcomma := take_comma (f := { f with nodes := arg.reverse ++ f.nodes }) hdepth nodes fs
        middle
      obtain ⟨f', last, hlast, hname, hdepth', hall⟩ := takeAll_args (next :: args) hargs
        (List.cons_ne_nil _ _) nodes { f with args := arg :: f.args, nodes := [] } fs
        (middle + (Token.char ',').print.length) rest rfl hdepth
      refine ⟨f', last, ?_, hname, hdepth', by simpa using hall⟩
      have hwritten : (printArgs (arg :: next :: args)).toList ++ ')' :: rest =
          (printAll arg).toList ++ (',' :: ((printArgs (next :: args)).toList ++ ')' :: rest)) := by
        simp [printArgs]
      rw [hwritten, hmiddle, takeAll_char (by simp) (by simp), hcomma, ← hlast]
      simp [hf]

end

/-- Pieces outside of calls are added to the template. -/
theorem Progress.takeAll_printAll {ns : List Node} (hns : WellFormed ns) {nodes : List Node}
    (hstart : ¬ (StartsWithText nodes ∧ StartsWithText ns)) (position : Nat) :
    ∃ position', takeAll ⟨nodes, [], position⟩ (printAll ns).toList =
      ⟨ns.reverse ++ nodes, [], position'⟩ := by
  induction ns generalizing nodes position with
  | nil => exact ⟨position, by simp⟩
  | cons n ns ih =>
      obtain ⟨hn, hnext, hns⟩ := hns
      rw [printAll, String.toList_append, List.reverse_cons, List.append_assoc,
        List.singleton_append]
      by_cases htext : n.IsText
      · obtain ⟨text, rfl⟩ := htext.exists_text
        have hnext : ¬ StartsWithText ns := fun h => hnext ⟨trivial, h⟩
        have hstart : ¬ StartsWithText nodes := fun h => hstart ⟨h, trivial⟩
        have hnothing : EndsText [] := fun c h => by simp at h
        have hend : EndsText (printAll ns).toList := by
          simpa using endsText_printAll hnext hnothing
        obtain ⟨middle, hchars⟩ := foldl_take_chars text.toList nodes position
        rw [foldl_addChar hn.1 hstart] at hchars
        rw [Node.print, takeAll_plain hn.2 hend, hchars]
        exact ih hns (fun h => hnext h.2) middle
      · obtain ⟨middle, hmiddle⟩ :=
          takeAll_piece n hn htext ⟨nodes, [], position⟩ (printAll ns).toList
        have hstart : ¬ (StartsWithText (n :: nodes) ∧ StartsWithText ns) := fun h => htext h.1
        rw [hmiddle]
        exact ih hns hstart middle

/-! ## What is read is well formed -/

/-- What a lookahead found behind its mark in a text that other characters
follow: nothing. -/
def FindsNothing {α : Type} (mark : Char) (find? : List Char → Option α)
    (text rest : List Char) : Prop :=
  ∀ back, mark :: back <:+ text → find? (back ++ rest) = none

/-- The next character joins the text if nothing is found behind it either. -/
theorem FindsNothing.concat {α : Type} {mark c : Char} {find? : List Char → Option α}
    {text rest : List Char} (htext : FindsNothing mark find? text (c :: rest))
    (hc : c = mark → find? rest = none) : FindsNothing mark find? (text ++ [c]) rest := by
  intro back h
  rcases List.suffix_concat_iff.mp h with hnil | ⟨front, hfront, hsuffix⟩
  · simp at hnil
  · cases front with
    | nil =>
        obtain ⟨rfl, rfl⟩ : mark = c ∧ back = [] := by simpa using hfront
        exact hc rfl
    | cons d front =>
        obtain ⟨rfl, rfl⟩ : mark = d ∧ back = front ++ [c] := by simpa using hfront
        simpa using htext front hsuffix

/-- A text in which the lookahead found no reference and no call. -/
structure Unmarked (text rest : List Char) : Prop where
  no_reference : FindsNothing '<' referenceAfter? text rest
  no_opening : FindsNothing '$' callAfter? text rest

namespace Unmarked

theorem nil (rest : List Char) : Unmarked [] rest :=
  ⟨fun _ h => by simp at h, fun _ h => by simp at h⟩

theorem concat {text rest : List Char} {c : Char} (htext : Unmarked text (c :: rest))
    (hangle : c = '<' → referenceAfter? rest = none)
    (hdollar : c = '$' → callAfter? rest = none) : Unmarked (text ++ [c]) rest :=
  ⟨htext.no_reference.concat hangle, htext.no_opening.concat hdollar⟩

theorem isPlain {text rest : List Char} (htext : Unmarked text rest) : IsPlain text where
  no_reference inner hinner h := by
    obtain ⟨front, back, rfl⟩ := h
    have hnone := htext.no_reference (inner ++ '>' :: back) ⟨front, by simp⟩
    have hsome := (isSome_referenceOf?_iff hinner.legal).mpr hinner
    rw [List.append_assoc, List.cons_append, referenceAfter?_append hinner.legal] at hnone
    simp [hnone] at hsome
  no_opening name hname h := by
    obtain ⟨front, back, rfl⟩ := h
    have hnone := htext.no_opening (name ++ '(' :: back) ⟨front, by simp⟩
    rw [List.append_assoc, List.cons_append, callAfter?_append hname] at hnone
    contradiction

end Unmarked

/-- Whether the pieces end with a text that what follows leaves as it is. The last
piece comes first. -/
def EndsUnmarked (nodes : List Node) (rest : List Char) : Prop :=
  ∀ text others, nodes = .plain text :: others → Unmarked text.toList rest

theorem endsUnmarked_of_not_startsWithText {nodes : List Node} (hnodes : ¬ StartsWithText nodes)
    (rest : List Char) : EndsUnmarked nodes rest := by
  rintro text others rfl
  exact absurd trivial hnodes

section AddChar

variable {nodes : List Node} {c : Char} {rest : List Char}

/-- A character becomes text, and the text stays unmarked. -/
theorem addChar_keeps (hnodes : WellFormed nodes) (hend : EndsUnmarked nodes (c :: rest))
    (hangle : c = '<' → referenceAfter? rest = none)
    (hdollar : c = '$' → callAfter? rest = none) :
    WellFormed (addChar c nodes) ∧ EndsUnmarked (addChar c nodes) rest := by
  unfold addChar
  split
  case h_1 text others =>
    have htext := (hend text others rfl).concat hangle hdollar
    rw [← String.toList_push] at htext
    have hnonempty : text.push c ≠ "" := fun h => by simpa using congrArg String.toList h
    obtain ⟨-, hnext, hothers⟩ := hnodes
    refine ⟨⟨⟨hnonempty, htext.isPlain⟩, hnext, hothers⟩, ?_⟩
    rintro _ _ ⟨⟩
    exact htext
  case h_2 hnotText =>
    have hstart : ¬ StartsWithText nodes := by
      intro h
      cases nodes with
      | nil => exact h
      | cons n others =>
          obtain ⟨text, rfl⟩ := Node.IsText.exists_text h
          exact hnotText text others rfl
    have htext : Unmarked (String.singleton c).toList rest := by
      simpa using (Unmarked.nil (c :: rest)).concat hangle hdollar
    have hnonempty : String.singleton c ≠ "" := fun h => by simpa using congrArg String.toList h
    refine ⟨⟨⟨hnonempty, htext.isPlain⟩, fun h => hstart h.2, hnodes⟩, ?_⟩
    rintro _ _ ⟨⟩
    exact htext

@[simp]
theorem ownText_reverse_addChar :
    ownText (addChar c nodes).reverse = ownText nodes.reverse ++ [c] := by
  unfold addChar
  split <;> simp

end AddChar

/-- What reading keeps of an open call. -/
structure OpenCall.Invariant (f : OpenCall) : Prop where
  name : IsName f.name.toList
  args : ∀ arg ∈ f.args, WellFormed arg ∧ LeavesOpen 0 (ownText arg)
  nodes : WellFormed f.nodes
  depth : LeavesOpen f.depth (ownText f.nodes.reverse)

namespace OpenCall.Invariant

variable {f : OpenCall}

/-- A finished argument is well formed, and so is the last one. -/
theorem finish (hf : f.Invariant) (hdepth : f.depth = 0) :
    ∀ arg ∈ f.nodes.reverse :: f.args, WellFormed arg ∧ LeavesOpen 0 (ownText arg) :=
  List.forall_mem_cons.mpr ⟨⟨wellFormed_reverse.mpr hf.nodes, hdepth ▸ hf.depth⟩, hf.args⟩

theorem close (hf : f.Invariant) (hdepth : f.depth = 0) : f.close.WellFormed := by
  rw [OpenCall.close, allArgs]
  split
  case isTrue => exact ⟨hf.name, by simp, by simp [ArgsWellFormed]⟩
  case isFalse hnonempty =>
    refine ⟨hf.name, fun hsingle => hnonempty ?_, argsWellFormed_iff.mpr fun arg harg => ?_⟩
    · rw [List.reverse_eq_iff, List.reverse_singleton] at hsingle
      simpa [and_comm] using hsingle.symm
    · exact hf.finish hdepth arg (List.mem_reverse.mp harg)

theorem add (hf : f.Invariant) {n : Node} (hn : n.WellFormed) (htext : ¬ n.IsText) :
    (f.add n).Invariant where
  name := hf.name
  args := hf.args
  nodes := ⟨hn, fun h => htext h.1, hf.nodes⟩
  depth := by
    have hown : ownText [n] = [] := ownText_cons_of_not_isText htext []
    simpa [OpenCall.add, hown] using hf.depth

end OpenCall.Invariant

namespace Progress

/-- The pieces of what is read at the moment, the last one first. -/
def current (p : Progress) : List Node :=
  match p.stack with
  | [] => p.nodes
  | f :: _ => f.nodes

/-- What reading keeps, in front of the characters that come next. -/
structure Invariant (p : Progress) (rest : List Char) : Prop where
  nodes : WellFormed p.nodes
  calls : ∀ f ∈ p.stack, f.Invariant
  ends : EndsUnmarked p.current rest

theorem invariant_start (rest : List Char) : start.Invariant rest :=
  ⟨trivial, fun _ h => by simp [start] at h, endsUnmarked_of_not_startsWithText id rest⟩

/-- A reference or a call ends the text in front of it. -/
theorem invariant_add {nodes : List Node} {stack : List OpenCall} (hnodes : WellFormed nodes)
    (hcalls : ∀ f ∈ stack, f.Invariant) {n : Node} (hn : n.WellFormed) (htext : ¬ n.IsText)
    (before position : Nat) (rest : List Char) :
    Invariant { add ⟨nodes, stack, before⟩ n with position } rest := by
  have hends (others : List Node) : EndsUnmarked (n :: others) rest := by
    apply endsUnmarked_of_not_startsWithText
    exact htext
  cases stack with
  | nil => exact ⟨⟨hn, fun h => htext h.1, hnodes⟩, hcalls, hends nodes⟩
  | cons f fs =>
      obtain ⟨hf, hfs⟩ := List.forall_mem_cons.mp hcalls
      exact ⟨hnodes, List.forall_mem_cons.mpr ⟨hf.add hn htext, hfs⟩, hends f.nodes⟩

theorem invariant_take_char {p : Progress} {c : Char} {rest : List Char}
    (hp : p.Invariant (c :: rest)) (hangle : c = '<' → referenceAfter? rest = none)
    (hdollar : c = '$' → callAfter? rest = none) : (p.take (.char c)).Invariant rest := by
  obtain ⟨nodes, stack, position⟩ := p
  obtain ⟨hnodes, hcalls, hends⟩ := hp
  cases stack with
  | nil =>
      obtain ⟨hwellFormed, hends⟩ := addChar_keeps hnodes hends hangle hdollar
      exact ⟨hwellFormed, hcalls, hends⟩
  | cons f fs =>
      obtain ⟨hf, hfs⟩ := List.forall_mem_cons.mp hcalls
      cases hdepth : depthAfter? f.depth c with
      | some depth =>
          obtain ⟨hwellFormed, hends⟩ := addChar_keeps hf.nodes hends hangle hdollar
          rw [take_char_in_call hdepth]
          refine ⟨hnodes, List.forall_mem_cons.mpr ⟨⟨hf.name, hf.args, hwellFormed, ?_⟩, hfs⟩,
            hends⟩
          rw [OpenCall.addChar, ownText_reverse_addChar]
          exact leavesOpen_concat_iff.mpr ⟨f.depth, hf.depth, hdepth⟩
      | none =>
          obtain ⟨hzero, rfl | rfl⟩ := depthAfter?_eq_none_iff.mp hdepth
          · rw [take_close hzero]
            exact invariant_add hnodes hfs (hf.close hzero) id position _ rest
          · rw [take_comma hzero]
            refine ⟨hnodes, List.forall_mem_cons.mpr ⟨⟨hf.name, hf.finish hzero, trivial, ?_⟩, hfs⟩,
              endsUnmarked_of_not_startsWithText id rest⟩
            exact foldlM_depthAfter?_eq_some_iff.mp (by rw [hzero]; rfl)

/-- Taking the next token keeps the invariant. -/
theorem invariant_take {p : Progress} {c : Char} {cs : List Char} (hp : p.Invariant (c :: cs)) :
    (p.take (tokenAt c cs).1).Invariant (cs.drop (tokenAt c cs).2) := by
  rcases tokenAt_cases c cs with ⟨r, -, hr, htoken⟩ | ⟨name, -, hname, htoken⟩ |
    ⟨htoken, hangle, hdollar⟩
  · obtain ⟨inner, back, -, hinner, hlegal⟩ := exists_inner_of_referenceAfter? hr
    rw [htoken]
    exact invariant_add hp.nodes hp.calls (n := .reference r)
      (wellFormed_of_referenceOf? hlegal hinner) id p.position _ _
  · rw [htoken]
    refine ⟨hp.nodes, List.forall_mem_cons.mpr ⟨⟨?_, by simp, trivial, ?_⟩, hp.calls⟩,
      endsUnmarked_of_not_startsWithText id _⟩
    · exact (exists_back_of_callAfter? hname).1
    · exact foldlM_depthAfter?_eq_some_iff.mp rfl
  · rw [htoken]
    exact invariant_take_char hp hangle hdollar

/-- So does taking all that comes next. -/
theorem invariant_takeAll (cs : List Char) {p : Progress} (hp : p.Invariant cs) :
    (p.takeAll cs).Invariant [] := by
  induction hlength : cs.length using Nat.strongRecOn generalizing cs p with
  | ind length ih =>
      subst hlength
      cases cs with
      | nil => exact hp
      | cons c cs =>
          rw [takeAll_cons]
          exact ih _ (by rw [List.length_drop, List.length_cons]; omega) _ (invariant_take hp) rfl

end Progress

/-- What is read is well formed. -/
theorem wellFormed_of_read {template : String} {ns : List Node} (hread : read template = .ok ns) :
    WellFormed ns := by
  have hinvariant := Progress.invariant_takeAll template.toList (Progress.invariant_start _)
  rw [← Progress.finish_takeAll, Progress.finish] at hread
  split at hread
  · obtain rfl := Except.ok.inj hread
    exact wellFormed_reverse.mpr hinvariant.nodes
  · contradiction

/-- Well-formed pieces are read back from their written form. -/
theorem read_of_wellFormed {ns : List Node} (hns : WellFormed ns) :
    read (printAll ns) = .ok ns := by
  have hstart : ¬ (StartsWithText [] ∧ StartsWithText ns) := fun h => h.1
  obtain ⟨position, hread⟩ := Progress.takeAll_printAll hns hstart 0
  rw [← Progress.finish_takeAll, Progress.start, hread]
  simp [Progress.finish]

/-- Pieces are read from a text exactly where they are well formed and written as
the text. -/
theorem read_eq_ok_iff {template : String} {ns : List Node} :
    read template = .ok ns ↔ WellFormed ns ∧ printAll ns = template := by
  constructor
  · intro hread
    exact ⟨wellFormed_of_read hread,
      (Progress.printAll_of_finish hread).trans (print_foldl_take_tokens template)⟩
  · rintro ⟨hns, rfl⟩
    exact read_of_wellFormed hns

end VersionTrail.Template
