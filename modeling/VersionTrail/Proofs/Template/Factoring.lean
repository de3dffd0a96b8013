/-
# Factoring an argument out

An argument of a call can be given a name: it is rendered on its own, and a
reference with that name stands in its place. What it means for pieces to come
from others in this way is said here, at any depth of the calls. The result is
well formed again, since a reference holds no parenthesis and no comma. Where
the name stands for the argument's value and for nothing that the pieces refer
to, both have the same value. All arguments of a call are evaluated, so pieces
that have a value have one for the argument that is factored out.
-/
import VersionTrail.Proofs.Run
import VersionTrail.Proofs.Output.Strictness
import VersionTrail.Proofs.Template.Reading
import VersionTrail.Template.Evaluation

namespace VersionTrail.Template

/-- A reference to an output. -/
def bare (key : String) : Node :=
  .reference ⟨none, key⟩

/-- Whether pieces come from others by writing a bare reference for an argument
of one of the calls in them, or in the arguments of these calls. -/
inductive Factored (arg : List Node) (key : String) : List Node → List Node → Prop
  /-- The call stands among the pieces. -/
  | here (front back : List Node) (name : String) (before after : List (List Node)) :
      Factored arg key (front ++ .call name (before ++ arg :: after) :: back)
        (front ++ .call name (before ++ [bare key] :: after) :: back)
  /-- The call stands in an argument of a call. -/
  | inside (front back : List Node) (name : String) (before after : List (List Node))
      {outer outer' : List Node} (h : Factored arg key outer outer') :
      Factored arg key (front ++ .call name (before ++ outer :: after) :: back)
        (front ++ .call name (before ++ outer' :: after) :: back)

theorem wellFormed_append_cons_iff {n : Node} (hn : ¬ n.IsText) {front back : List Node} :
    WellFormed (front ++ n :: back) ↔ WellFormed front ∧ n.WellFormed ∧ WellFormed back := by
  induction front with
  | nil => simp [WellFormed, hn]
  | cons m front ih =>
      have hstart : StartsWithText (front ++ n :: back) ↔ StartsWithText front := by
        cases front with
        | nil => exact ⟨hn, False.elim⟩
        | cons next front => exact Iff.rfl
      rw [List.cons_append, WellFormed, WellFormed, ih, hstart]
      tauto

/-- A call among pieces can be exchanged for one of the same name with another
argument, if the new argument is well formed where the old one is. -/
theorem wellFormed_exchange {front back : List Node} {name : String}
    {before after : List (List Node)} {old new : List Node} (hne : new ≠ [])
    (hnew : WellFormed old → LeavesOpen 0 (ownText old) →
      WellFormed new ∧ LeavesOpen 0 (ownText new))
    (h : WellFormed (front ++ .call name (before ++ old :: after) :: back)) :
    WellFormed (front ++ .call name (before ++ new :: after) :: back) := by
  obtain ⟨hfront, ⟨hname, -, hargs⟩, hback⟩ := (wellFormed_append_cons_iff id).mp h
  rw [argsWellFormed_iff] at hargs
  obtain ⟨hold, hopen⟩ := hargs old List.mem_append_cons_self
  refine (wellFormed_append_cons_iff id).mpr ⟨hfront, ⟨hname, fun hsingle => hne ?_, ?_⟩, hback⟩
  · have hmem : new ∈ [[]] := hsingle ▸ List.mem_append_cons_self
    exact List.mem_singleton.mp hmem
  · rw [argsWellFormed_iff]
    intro other hother
    rcases List.mem_append.mp hother with hbefore | hrest
    · exact hargs other (by simp [hbefore])
    · rcases List.mem_cons.mp hrest with rfl | hafter
      · exact hnew hold hopen
      · exact hargs other (by simp [hafter])

theorem wellFormed_bare {key : String} (hkey : Reference.WellFormed ⟨none, key⟩) :
    WellFormed [bare key] :=
  ⟨hkey, fun h => h.1, trivial⟩

namespace Factored

variable {arg : List Node} {key : String} {ns ns' : List Node}

theorem ne_nil (h : Factored arg key ns ns') : ns' ≠ [] := by
  cases h <;> simp

/-- The plain texts of the pieces themselves are the same. -/
theorem ownText_eq (h : Factored arg key ns ns') : ownText ns' = ownText ns := by
  cases h <;> simp

theorem wellFormed_arg (h : Factored arg key ns ns') (hns : WellFormed ns) : WellFormed arg := by
  induction h with
  | here front back name before after =>
      obtain ⟨-, ⟨-, -, hargs⟩, -⟩ := (wellFormed_append_cons_iff id).mp hns
      exact (argsWellFormed_iff.mp hargs arg List.mem_append_cons_self).1
  | inside front back name before after h ih =>
      obtain ⟨-, ⟨-, -, hargs⟩, -⟩ := (wellFormed_append_cons_iff id).mp hns
      exact ih (argsWellFormed_iff.mp hargs _ List.mem_append_cons_self).1

theorem wellFormed (h : Factored arg key ns ns') (hkey : Reference.WellFormed ⟨none, key⟩)
    (hns : WellFormed ns) : WellFormed ns' := by
  induction h with
  | here front back name before after =>
      refine wellFormed_exchange (List.cons_ne_nil _ _) (fun _ _ => ⟨wellFormed_bare hkey, ?_⟩) hns
      exact foldlM_depthAfter?_eq_some_iff.mp rfl
  | inside front back name before after h ih =>
      exact wellFormed_exchange h.ne_nil (fun hold hopen => ⟨ih hold, h.ownText_eq ▸ hopen⟩) hns

end Factored

mutual

/-- The keys of the references to outputs in a piece. -/
def Node.bareKeys : Node → List String
  | .plain _ => []
  | .reference r => if r.space = none then [r.key] else []
  | .call _ args => argKeys args

/-- The keys of the references to outputs in pieces. -/
def bareKeys : List Node → List String
  | [] => []
  | n :: ns => n.bareKeys ++ bareKeys ns

/-- The keys of the references to outputs in arguments. -/
def argKeys : List (List Node) → List String
  | [] => []
  | arg :: args => bareKeys arg ++ argKeys args

end

/-- No function reads an output. -/
@[simp]
theorem call_outputs (s : Scope) (outputs : OrderedMap String) (name : String)
    (values : List String) : call { s with outputs } name values = call s name values := by
  have hlookup (space : Space) (key : String) :
      Scope.lookup? { s with outputs } space key = s.lookup? space key := by
    cases space <;> rfl
  unfold call
  cases Builtin.ofName? name with
  | none => rfl
  | some b =>
      show b.apply { s with outputs } values = b.apply s values
      unfold Builtin.apply
      simp only [hlookup]

section Values

variable {s : Scope} {outputs outputs' : OrderedMap String}

mutual

/-- Outputs with the same values for what a piece refers to give it the same
value, with the same stand-ins. -/
theorem Node.lenientValue_congr : ∀ n : Node,
    (∀ key ∈ n.bareKeys, findValue? outputs' key = findValue? outputs key) →
      n.lenientValue { s with outputs := outputs' } = n.lenientValue { s with outputs }
  | .plain _, _ => by rw [Node.lenientValue, Node.lenientValue]
  | .reference ⟨none, key⟩, hkeys => by
      have hkey := hkeys key (by simp [Node.bareKeys])
      rw [Node.lenientValue, Node.lenientValue, Reference.value, Reference.value, Scope.resolve,
        Scope.resolve]
      dsimp only
      rw [hkey]
  | .reference ⟨some space, key⟩, _ => by
      rw [Node.lenientValue, Node.lenientValue]
      rfl
  | .call name args, hkeys => by
      rw [Node.lenientValue, Node.lenientValue, lenientArgs_congr args hkeys]
      simp only [callValue, call_outputs]

theorem lenientValueOf_congr : ∀ ns : List Node,
    (∀ key ∈ bareKeys ns, findValue? outputs' key = findValue? outputs key) →
      lenientValueOf { s with outputs := outputs' } ns = lenientValueOf { s with outputs } ns
  | [], _ => by rw [lenientValueOf, lenientValueOf]
  | n :: ns, hkeys => by
      rw [lenientValueOf, lenientValueOf,
        Node.lenientValue_congr n fun key hkey => hkeys key (by simp [bareKeys, hkey]),
        lenientValueOf_congr ns fun key hkey => hkeys key (by simp [bareKeys, hkey])]

theorem lenientArgs_congr : ∀ args : List (List Node),
    (∀ key ∈ argKeys args, findValue? outputs' key = findValue? outputs key) →
      lenientArgs { s with outputs := outputs' } args = lenientArgs { s with outputs } args
  | [], _ => by rw [lenientArgs, lenientArgs]
  | arg :: args, hkeys => by
      rw [lenientArgs, lenientArgs,
        lenientValueOf_congr arg fun key hkey => hkeys key (by simp [argKeys, hkey]),
        lenientArgs_congr args fun key hkey => hkeys key (by simp [argKeys, hkey])]

end

/-- What settles the same lenient value is the same strict value. -/
theorem valueOf_congr (ns : List Node)
    (hkeys : ∀ key ∈ bareKeys ns, findValue? outputs' key = findValue? outputs key) :
    valueOf { s with outputs := outputs' } ns = valueOf { s with outputs } ns := by
  rw [valueOf_eq_settle, valueOf_eq_settle, lenientValueOf_congr ns hkeys]

end Values

@[simp]
theorem mem_bareKeys_iff {key : String} {ns : List Node} :
    key ∈ bareKeys ns ↔ ∃ n ∈ ns, key ∈ n.bareKeys := by
  induction ns with
  | nil => simp [bareKeys]
  | cons n ns ih => simp [bareKeys, ih]

theorem mem_argKeys_iff {key : String} {args : List (List Node)} :
    key ∈ argKeys args ↔ ∃ arg ∈ args, key ∈ bareKeys arg := by
  induction args with
  | nil => simp [argKeys]
  | cons arg args ih => simp [argKeys, ih]

/-- Pieces refer to what an argument of a call among them refers to. -/
theorem mem_bareKeys_of_arg {key name : String} {args : List (List Node)} {arg ns : List Node}
    (hcall : .call name args ∈ ns) (harg : arg ∈ args) (hkey : key ∈ bareKeys arg) :
    key ∈ bareKeys ns :=
  mem_bareKeys_iff.mpr ⟨_, hcall, mem_argKeys_iff.mpr ⟨arg, harg, hkey⟩⟩

section Exchange

variable {s : Scope} {old new : List Node}

theorem argValues_exchange (hvalue : valueOf s new = valueOf s old)
    (before after : List (List Node)) :
    argValues s (before ++ new :: after) = argValues s (before ++ old :: after) := by
  induction before with
  | nil => rw [List.nil_append, List.nil_append, argValues, argValues, hvalue]
  | cons arg before ih => rw [List.cons_append, List.cons_append, argValues, argValues, ih]

/-- An argument of a call among pieces can be exchanged for one with the same
value. -/
theorem valueOf_exchange (hvalue : valueOf s new = valueOf s old) (front back : List Node)
    (name : String) (before after : List (List Node)) :
    valueOf s (front ++ .call name (before ++ new :: after) :: back) =
      valueOf s (front ++ .call name (before ++ old :: after) :: back) := by
  induction front with
  | nil =>
      rw [List.nil_append, List.nil_append, valueOf, valueOf, Node.value, Node.value,
        argValues_exchange hvalue]
  | cons n front ih => rw [List.cons_append, List.cons_append, valueOf, valueOf, ih]

/-- Where pieces have a value, each of them has one. -/
theorem exists_value_of_mem {ns : List Node} {value : String} (hns : valueOf s ns = .ok value)
    {n : Node} (hn : n ∈ ns) : ∃ part, n.value s = .ok part := by
  induction ns generalizing value with
  | nil => simp at hn
  | cons m ns ih =>
      rw [valueOf, bind_eq_ok_iff] at hns
      obtain ⟨front, hfront, hns⟩ := hns
      obtain ⟨back, hback, -⟩ := bind_eq_ok_iff.mp hns
      rcases List.mem_cons.mp hn with rfl | hlater
      · exact ⟨front, hfront⟩
      · exact ih hback hlater

/-- Where arguments have values, each of them has one. -/
theorem exists_valueOf_of_mem {args : List (List Node)} {values : List String}
    (hargs : argValues s args = .ok values) {arg : List Node} (harg : arg ∈ args) :
    ∃ value, valueOf s arg = .ok value := by
  induction args generalizing values with
  | nil => simp at harg
  | cons first args ih =>
      rw [argValues, bind_eq_ok_iff] at hargs
      obtain ⟨value, hvalue, hargs⟩ := hargs
      obtain ⟨rest, hrest, -⟩ := bind_eq_ok_iff.mp hargs
      rcases List.mem_cons.mp harg with rfl | hlater
      · exact ⟨value, hvalue⟩
      · exact ih hrest hlater

/-- Every argument of a call among pieces is evaluated, whatever the function. -/
theorem exists_valueOf_arg {ns : List Node} {value name : String} {args : List (List Node)}
    {arg : List Node} (hns : valueOf s ns = .ok value) (hcall : .call name args ∈ ns)
    (harg : arg ∈ args) : ∃ inner, valueOf s arg = .ok inner := by
  obtain ⟨part, hpart⟩ := exists_value_of_mem hns hcall
  rw [Node.value, bind_eq_ok_iff] at hpart
  obtain ⟨values, hvalues, -⟩ := hpart
  exact exists_valueOf_of_mem hvalues harg

end Exchange

namespace Factored

variable {arg : List Node} {key : String} {ns ns' : List Node} {s : Scope} {value : String}

theorem mem_bareKeys (h : Factored arg key ns ns') {other : String}
    (hother : other ∈ bareKeys arg) : other ∈ bareKeys ns := by
  induction h with
  | here front back name before after =>
      exact mem_bareKeys_of_arg List.mem_append_cons_self List.mem_append_cons_self hother
  | inside front back name before after h ih =>
      exact mem_bareKeys_of_arg List.mem_append_cons_self List.mem_append_cons_self ih

/-- Pieces that have a value have one for the argument that is factored out. -/
theorem exists_value_arg (h : Factored arg key ns ns') (hns : valueOf s ns = .ok value) :
    ∃ inner, valueOf s arg = .ok inner := by
  induction h generalizing value with
  | here front back name before after =>
      exact exists_valueOf_arg hns List.mem_append_cons_self List.mem_append_cons_self
  | inside front back name before after h ih =>
      obtain ⟨inner, hinner⟩ :=
        exists_valueOf_arg hns List.mem_append_cons_self List.mem_append_cons_self
      exact ih hinner

/-- Where the reference has the value of the argument, the pieces have the same
value with either. -/
theorem valueOf_eq (h : Factored arg key ns ns') (hkey : valueOf s [bare key] = valueOf s arg) :
    valueOf s ns' = valueOf s ns := by
  induction h with
  | here front back name before after => exact valueOf_exchange hkey front back name before after
  | inside front back name before after h ih =>
      exact valueOf_exchange ih front back name before after

end Factored

theorem valueOf_bare {s : Scope} {key value : String}
    (hkey : findValue? s.outputs key = some value) : valueOf s [bare key] = .ok value := by
  rw [valueOf, bare, Node.value, Reference.value, Scope.resolve]
  dsimp only
  rw [hkey, valueOf]
  show Except.ok (value ++ "") = _
  rw [String.append_empty]

end VersionTrail.Template
