/-
# Well-formed templates

Not every list of pieces can be read from a text. In a plain text no reference
and no call may be written, and two plain texts never follow each other: both
would be read differently. In an argument, plain parentheses close only what
was opened, all of them are closed, and a comma stands only between them, since
anywhere else it would end the argument.

The parentheses of an argument are counted here over its plain texts alone. The
reader counts the open ones as it goes, and both counts agree.
-/
import Mathlib.Data.List.Chain
import VersionTrail.Template.Reader

namespace VersionTrail.Template

/-- What can stand between the angle brackets of a reference. -/
structure IsReference (inner : List Char) : Prop where
  nonempty : inner ≠ []
  legal : ∀ c ∈ inner, isReferenceChar c = true
  /-- Nothing is missing on either side of the first colon. -/
  sides : ∀ space key, inner = space ++ ':' :: key → ':' ∉ space → space ≠ [] ∧ key ≠ []

/-- What can stand between the dollar sign and the parenthesis of a call. -/
def IsName : List Char → Prop
  | [] => False
  | c :: cs => startsName c = true ∧ ∀ d ∈ cs, continuesName d = true

/-- A text in which no reference and no opening of a call is written. -/
structure IsPlain (text : List Char) : Prop where
  no_reference : ∀ inner, IsReference inner → ¬ '<' :: inner ++ ['>'] <:+: text
  no_opening : ∀ name, IsName name → ¬ '$' :: name ++ ['('] <:+: text

theorem IsPlain.of_cons {c : Char} {text : List Char} (htext : IsPlain (c :: text)) :
    IsPlain text where
  no_reference := by
    intro inner hinner h
    exact htext.no_reference inner hinner (h.trans (List.suffix_cons _ _).isInfix)
  no_opening := by
    intro name hname h
    exact htext.no_opening name hname (h.trans (List.suffix_cons _ _).isInfix)

/-- A text that closes only what it opened, leaves some parentheses open, and has
commas only where one is open. -/
structure LeavesOpen (depth : Nat) (text : List Char) : Prop where
  never_below : ∀ front, front <+: text → front.count ')' ≤ front.count '('
  commas_inside : ∀ front, front ++ [','] <+: text → front.count ')' < front.count '('
  count : text.count '(' = text.count ')' + depth

/-- A key, or a space without a colon and a key, all of legal characters. -/
structure Reference.WellFormed (r : Reference) : Prop where
  key_nonempty : r.key ≠ ""
  key_legal : ∀ c ∈ r.key.toList, isReferenceChar c = true
  bare : r.space = none → ':' ∉ r.key.toList
  spaced : ∀ space, r.space = some space →
    space ≠ "" ∧ (∀ c ∈ space.toList, isReferenceChar c = true) ∧ ':' ∉ space.toList

/-- Whether a piece is plain text. -/
def Node.IsText : Node → Prop
  | .plain _ => True
  | _ => False

/-- Whether plain text comes first. -/
def StartsWithText : List Node → Prop
  | [] => False
  | n :: _ => n.IsText

/-- The plain texts among the pieces, one behind the other. Texts inside of calls
are not among them. -/
@[simp]
def ownText : List Node → List Char
  | [] => []
  | .plain text :: ns => text.toList ++ ownText ns
  | _ :: ns => ownText ns

mutual

/-- Whether a piece can be read back from its written form. -/
def Node.WellFormed : Node → Prop
  | .plain text => text ≠ "" ∧ IsPlain text.toList
  | .reference r => r.WellFormed
  | .call name args => IsName name.toList ∧ args ≠ [[]] ∧ ArgsWellFormed args

/-- Whether pieces that follow each other can be. -/
def WellFormed : List Node → Prop
  | [] => True
  | n :: ns => n.WellFormed ∧ ¬ (n.IsText ∧ StartsWithText ns) ∧ WellFormed ns

/-- Whether the arguments of a call can be. -/
def ArgsWellFormed : List (List Node) → Prop
  | [] => True
  | arg :: args => WellFormed arg ∧ LeavesOpen 0 (ownText arg) ∧ ArgsWellFormed args

end

theorem argsWellFormed_iff {args : List (List Node)} :
    ArgsWellFormed args ↔ ∀ arg ∈ args, WellFormed arg ∧ LeavesOpen 0 (ownText arg) := by
  induction args with
  | nil => simp [ArgsWellFormed]
  | cons arg args ih => simp [ArgsWellFormed, ih, and_assoc]

/-- Only neighbours matter beside the pieces themselves. -/
theorem wellFormed_iff {ns : List Node} :
    WellFormed ns ↔ (∀ n ∈ ns, n.WellFormed) ∧ ns.IsChain fun m n => ¬ (m.IsText ∧ n.IsText) := by
  induction ns with
  | nil => simp [WellFormed]
  | cons n ns ih =>
      have hstart : ¬ (n.IsText ∧ StartsWithText ns) ↔ ∀ m ∈ ns.head?, ¬ (n.IsText ∧ m.IsText) := by
        cases ns <;> simp [StartsWithText]
      rw [WellFormed, hstart, ih, List.forall_mem_cons, List.isChain_cons]
      tauto

/-- The order of the pieces may be reversed, as it is while they are read. -/
@[simp]
theorem wellFormed_reverse {ns : List Node} : WellFormed ns.reverse ↔ WellFormed ns := by
  have hflip : (fun m n : Node => ¬ (n.IsText ∧ m.IsText)) =
      fun m n => ¬ (m.IsText ∧ n.IsText) := by
    funext m n
    rw [and_comm]
  rw [wellFormed_iff, wellFormed_iff, List.isChain_reverse, hflip]
  simp only [List.mem_reverse]

theorem Node.IsText.exists_text {n : Node} (hn : n.IsText) : ∃ text, n = .plain text := by
  cases n with
  | plain text => exact ⟨text, rfl⟩
  | reference r => exact hn.elim
  | call name args => exact hn.elim

theorem ownText_cons_of_not_isText {n : Node} (hn : ¬ n.IsText) (ns : List Node) :
    ownText (n :: ns) = ownText ns := by
  cases n with
  | plain text => exact absurd trivial hn
  | reference r => rfl
  | call name args => rfl

@[simp]
theorem ownText_append (front back : List Node) :
    ownText (front ++ back) = ownText front ++ ownText back := by
  induction front with
  | nil => rfl
  | cons n front ih => cases n <;> simp [ih]

/-- How many parentheses are open behind a character, unless it ends the
argument. -/
def depthAfter? (depth : Nat) (c : Char) : Option Nat :=
  if c = '(' then some (depth + 1)
  else if c = ')' then if depth = 0 then none else some (depth - 1)
  else if c = ',' ∧ depth = 0 then none
  else some depth

/-- Only an open parenthesis lets a character close one or be a comma. -/
theorem depthAfter?_eq_some_iff {before depth : Nat} {c : Char} :
    depthAfter? before c = some depth ↔
      (c = ')' ∨ c = ',' → 0 < before) ∧ before + [c].count '(' = depth + [c].count ')' := by
  unfold depthAfter?
  by_cases hopen : c = '('
  · simp [hopen]
  by_cases hclose : c = ')'
  · by_cases hbefore : before = 0
    · simp [hclose, hbefore]
    · simp [hclose, hbefore]
      omega
  by_cases hcomma : c = ','
  · by_cases hbefore : before = 0
    · simp [hcomma, hbefore]
    · simp [hcomma, hbefore]
      omega
  · simp [hopen, hclose, hcomma]

/-- Elsewhere it ends the argument. -/
theorem depthAfter?_eq_none_iff {before : Nat} {c : Char} :
    depthAfter? before c = none ↔ before = 0 ∧ (c = ')' ∨ c = ',') := by
  unfold depthAfter?
  by_cases hopen : c = '('
  · simp [hopen]
  by_cases hclose : c = ')'
  · simp [hclose]
  · by_cases hcomma : c = ',' <;> simp [hopen, hclose, hcomma]

/-- One more character is in place where it is in place behind what the text in
front leaves open. -/
theorem leavesOpen_concat_iff {text : List Char} {c : Char} {depth : Nat} :
    LeavesOpen depth (text ++ [c]) ↔
      ∃ before, LeavesOpen before text ∧ depthAfter? before c = some depth := by
  simp only [depthAfter?_eq_some_iff]
  constructor
  · rintro ⟨hbelow, hcommas, hcount⟩
    have hwhole := hbelow _ (List.prefix_refl _)
    have hfront := hbelow _ (List.prefix_append text [c])
    rw [List.count_append, List.count_append] at hcount hwhole
    refine ⟨text.count '(' - text.count ')', ⟨fun front h => hbelow front (h.trans (by simp)),
      fun front h => hcommas front (h.trans (by simp)), by omega⟩, ?_, by omega⟩
    rintro (rfl | rfl)
    · simp at hwhole
      omega
    · have hcomma := hcommas text (List.prefix_refl _)
      omega
  · rintro ⟨before, ⟨hbelow, hcommas, hcount⟩, hplace, hdepth⟩
    refine ⟨fun front h => ?_, fun front h => ?_, ?_⟩
    · rcases List.prefix_concat_iff.mp h with rfl | h
      · rw [List.count_append, List.count_append]
        omega
      · exact hbelow front h
    · rcases List.prefix_concat_iff.mp h with heq | h
      · obtain ⟨rfl, rfl⟩ : front = text ∧ ',' = c := by simpa using heq
        have := hplace (Or.inr rfl)
        omega
      · exact hcommas front h
    · rw [List.count_append, List.count_append]
      omega

/-- Counting along a text gets to its end where no parenthesis and no comma is
out of place, and then has counted what is left open. -/
theorem foldlM_depthAfter?_eq_some_iff {text : List Char} {depth : Nat} :
    text.foldlM depthAfter? 0 = some depth ↔ LeavesOpen depth text := by
  induction text using List.reverseRecOn generalizing depth with
  | nil =>
      constructor
      · intro h
        obtain rfl : 0 = depth := by simpa using h
        exact ⟨by simp, by simp, rfl⟩
      · rintro ⟨-, -, hcount⟩
        simpa using hcount
  | append_singleton text c ih =>
      rw [leavesOpen_concat_iff, List.foldlM_append]
      simp only [List.foldlM_cons, List.foldlM_nil, bind_pure, Option.bind_eq_bind,
        Option.bind_eq_some_iff, ih]

end VersionTrail.Template
