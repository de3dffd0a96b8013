/-
# Reading patterns

What the reader of patterns does is said here for the items that the default
patterns consist of: characters, repetitions, the ends of a text, escapes,
classes and groups. Each item is read in one step, and a group in a reading of
its own. Groups are named by Latin letters, which the tables of code points have
among the alphabetic ones; the tables are too long to be searched in a proof.
-/
import VersionTrail.Pattern.Basic
import VersionTrail.Proofs.Pattern.Captures
import VersionTrail.Proofs.Run

namespace VersionTrail.Pattern

open VersionTrail.Text

/-- Whether a character is one of the letters `A` to `Z` and `a` to `z`. -/
def isLatin (c : Char) : Bool :=
  (65 ≤ c.toNat && c.toNat < 91) || (97 ≤ c.toNat && c.toNat < 123)

theorem startsName_of_isLatin {c : Char} (hc : isLatin c = true) : startsName c = true := by
  simp only [isLatin, Bool.or_eq_true, Bool.and_eq_true, decide_eq_true_eq] at hc
  have hupper : ∀ k < 26, Property.labelAt? (65 + k) Property.basicRuns = some "Lu" := by decide
  have hlower : ∀ k < 26, Property.labelAt? (97 + k) Property.basicRuns = some "Ll" := by decide
  have hlabel : ∃ label, Property.labelAt? c.toNat Property.basicRuns = some label ∧
      (["L", "Nl"].any fun g => Property.inCategory g label) = true := by
    rcases hc with hc | hc
    · refine ⟨"Lu", ?_, by decide⟩
      have h := hupper (c.toNat - 65) (by omega)
      rwa [show 65 + (c.toNat - 65) = c.toNat by omega] at h
    · refine ⟨"Ll", ?_, by decide⟩
      have h := hlower (c.toNat - 97) (by omega)
      rwa [show 97 + (c.toNat - 97) = c.toNat by omega] at h
  obtain ⟨label, hlabel, hcategory⟩ := hlabel
  have hsmall : c.toNat < 837 := by
    omega
  rw [startsName, Property.holds_alphabetic hsmall hlabel, hcategory, Bool.or_true]

theorem isGroupName_of_isLatin {name : List Char} (hne : name ≠ [])
    (hname : name.all isLatin = true) : isGroupName name = true := by
  rw [List.all_eq_true] at hname
  obtain ⟨c, cs, rfl⟩ := List.exists_cons_of_ne_nil hne
  rw [isGroupName, startsName_of_isLatin (hname c List.mem_cons_self), Bool.true_and,
    List.all_eq_true]
  intro d hd
  rw [continuesName, startsName_of_isLatin (hname d (List.mem_cons_of_mem _ hd))]
  rfl

theorem groupName_append {name : List Char} (hne : name ≠ []) (hname : name.all isLatin = true)
    (rest : List Char) : groupName (name ++ '>' :: rest) = .ok (String.ofList name, rest) := by
  have hkeep : ∀ c ∈ name, (c != '>') = true := by
    intro c hc
    rw [bne_iff_ne]
    rintro rfl
    exact absurd (List.all_eq_true.mp hname '>' hc) (by decide)
  have htake : (name ++ '>' :: rest).takeWhile (· != '>') = name := by
    rw [List.takeWhile_append_of_pos hkeep]
    simp
  rw [groupName, htake, List.drop_left]
  exact if_pos (isGroupName_of_isLatin hne hname)

/-- The characters with a meaning of their own outside of classes. -/
def itemMarks : List Char :=
  ['(', ')', '|', '[', '?', '*', '+', '\x7b', '\\', '.', '^', '$']

section Items

variable {fl : Flags} {inGroup : Bool} {fuel groups : Nat} {branches : List (Tree × Nat)}
variable {pieces : List Piece} {names : List String} {rest : List Char} {c : Char} {piece : Piece}
variable {t : Tree}

-- One step of the reader, by the shape of what is left to read.
attribute [local simp] alternatives Flags.dropLayout bind Except.bind

theorem alternatives_char (hlayout : fl.extended = false) (hunicode : fl.unicode = true)
    (hc : c ∉ itemMarks) :
    alternatives inGroup (fuel + 1) fl branches pieces ⟨groups, names, c :: rest⟩ =
      alternatives inGroup fuel fl branches
        (⟨.one (.ofChar fl.ignoreCase true c), 0, true⟩ :: pieces) ⟨groups, names, rest⟩ := by
  simp only [itemMarks, List.mem_cons, not_or, List.not_mem_nil, not_false_eq_true] at hc
  simp [hlayout, hunicode, hc, literal]

theorem alternatives_end {mark : Char} {a : Assertion} (hlayout : fl.extended = false)
    (hlines : fl.multiLine = false) (hmark : (mark, a) ∈ [('^', .start), ('$', .stop)]) :
    alternatives inGroup (fuel + 1) fl branches pieces ⟨groups, names, mark :: rest⟩ =
      alternatives inGroup fuel fl branches (⟨.look a, 0, true⟩ :: pieces)
        ⟨groups, names, rest⟩ := by
  simp only [List.mem_cons, Prod.mk.injEq, List.not_mem_nil, or_false] at hmark
  rcases hmark with ⟨rfl, rfl⟩ | ⟨rfl, rfl⟩ <;> simp [hlayout, hlines]

/-- A repetition that is not lazy takes the place of the last item. -/
theorem alternatives_repeat {mark : Char} {least : Nat} {most : Option Nat}
    (hlayout : fl.extended = false) (hpiece : piece.repeatable = true)
    (hmark : (mark, least, most) ∈ [('?', 0, some 1), ('*', 0, none), ('+', 1, none)])
    (hgreedy : rest.head? ≠ some '?') :
    alternatives inGroup (fuel + 1) fl branches (piece :: pieces) ⟨groups, names, mark :: rest⟩ =
      alternatives inGroup fuel fl branches
        (⟨.repeatTimes least most (false == fl.swapGreed) piece.tree, piece.depth + 1, true⟩ ::
          pieces) ⟨groups, names, rest⟩ := by
  have hrepeat : repeatLast fl least most (piece :: pieces) rest =
      .ok (⟨.repeatTimes least most (false == fl.swapGreed) piece.tree, piece.depth + 1, true⟩ ::
        pieces, rest) := by
    cases rest with
    | nil => simp [repeatLast, hpiece]
    | cons c rest =>
        have hc : c ≠ '?' := by simpa using hgreedy
        simp [repeatLast, hpiece, hc]
  simp only [List.mem_cons, Prod.mk.injEq, List.not_mem_nil, or_false] at hmark
  rcases hmark with ⟨rfl, rfl, rfl⟩ | ⟨rfl, rfl, rfl⟩ | ⟨rfl, rfl, rfl⟩ <;>
    simp [hlayout, hrepeat]

theorem alternatives_escape {atom : Atom} (hlayout : fl.extended = false)
    (hescape : escape fl (c :: rest) = .ok (atom, rest)) (hatom : atom.tree fl = .ok t) :
    alternatives inGroup (fuel + 1) fl branches pieces ⟨groups, names, '\\' :: c :: rest⟩ =
      alternatives inGroup fuel fl branches (⟨t, 0, true⟩ :: pieces) ⟨groups, names, rest⟩ := by
  simp [hlayout, hescape, hatom]

theorem alternatives_class {inner : List Char} {cls : CharClass} {depth : Nat}
    (hlayout : fl.extended = false)
    (hclass : bracket fl (inner.length + 1) inner = .ok ((cls, depth), rest)) :
    alternatives inGroup (fuel + 1) fl branches pieces ⟨groups, names, '[' :: inner⟩ =
      alternatives inGroup fuel fl branches (⟨.one cls, depth, true⟩ :: pieces)
        ⟨groups, names, rest⟩ := by
  simp [hlayout, hclass]

theorem opening_capture {name : List Char} (hlayout : fl.extended = false) (hne : name ≠ [])
    (hname : name.all isLatin = true) :
    opening fl ('?' :: '<' :: (name ++ '>' :: rest)) =
      .ok (.capture (some (String.ofList name)), rest) := by
  have hread := groupName_append hne hname rest
  obtain ⟨c, cs, rfl⟩ := List.exists_cons_of_ne_nil hne
  have hc := List.all_eq_true.mp hname c List.mem_cons_self
  -- No letter makes a look behind of it.
  have hequal : '=' ≠ c := by
    rintro rfl
    exact absurd hc (by decide)
  have hbang : '!' ≠ c := by
    rintro rfl
    exact absurd hc (by decide)
  rw [List.cons_append] at hread ⊢
  unfold opening
  simp [hlayout, dropText?, hequal, hbang, hread, Except.map]

theorem opening_plain (hlayout : fl.extended = false) :
    opening fl ('?' :: ':' :: rest) = .ok (.plain fl, rest) := by
  unfold opening
  simp [hlayout, dropText?, flagList]

/-- A named group is read on its own, and becomes one item. -/
theorem alternatives_capture {name : List Char} {depth : Nat} {place : Place}
    (hlayout : fl.extended = false) (hne : name ≠ []) (hname : name.all isLatin = true)
    (hnew : String.ofList name ∉ names)
    (hinner : alternatives true fuel fl [] [] ⟨groups + 1, String.ofList name :: names, rest⟩ =
      .ok (t, depth, place)) :
    alternatives inGroup (fuel + 1) fl branches pieces
        ⟨groups, names, '(' :: '?' :: '<' :: (name ++ '>' :: rest)⟩ =
      alternatives inGroup fuel fl branches
        (⟨.group (groups + 1) (some (String.ofList name)) t, depth + 1, true⟩ :: pieces) place := by
  simp [hlayout, opening_capture hlayout hne hname, hnew, hinner]

/-- A group that is not numbered leaves its tree. -/
theorem alternatives_plain {depth : Nat} {place : Place} (hlayout : fl.extended = false)
    (hinner : alternatives true fuel fl [] [] ⟨groups, names, rest⟩ = .ok (t, depth, place)) :
    alternatives inGroup (fuel + 1) fl branches pieces
        ⟨groups, names, '(' :: '?' :: ':' :: rest⟩ =
      alternatives inGroup fuel fl branches (⟨t, depth + 1, true⟩ :: pieces) place := by
  simp [hlayout, opening_plain hlayout, hinner]

theorem alternatives_close (hlayout : fl.extended = false) :
    alternatives true (fuel + 1) fl [] pieces ⟨groups, names, ')' :: rest⟩ =
      .ok ((joinPieces pieces).1, (joinPieces pieces).2, ⟨groups, names, rest⟩) := by
  simp [hlayout, joinBranches]

theorem alternatives_nil (hlayout : fl.extended = false) :
    alternatives false (fuel + 1) fl [] pieces ⟨groups, names, []⟩ =
      .ok ((joinPieces pieces).1, (joinPieces pieces).2, ⟨groups, names, []⟩) := by
  simp [hlayout, joinBranches]

end Items

/-- A tree that has been read becomes a pattern, if it is not too large and its
groups have different names of Latin letters. -/
theorem exists_compile_of_read {ignoreCase : Bool} {text : String} {t : Tree}
    (hread : Tree.read { ignoreCase } text.toList = .ok t) (hweight : t.weight ≤ Fault.sizeLimit)
    (hnodup : ((namesOf t).filterMap id).Nodup)
    (hnames : ∀ name ∈ (namesOf t).filterMap id, name ≠ "" ∧ name.toList.all isLatin = true) :
    ∃ p, Pattern.compile ignoreCase text = .ok p ∧ p.program = .ofTree t ∧ p.names = namesOf t := by
  have hvalid : ∀ name ∈ (namesOf t).filterMap id, isGroupName name.toList = true :=
    fun name hname => isGroupName_of_isLatin
      (fun hnil => (hnames name hname).1 (String.toList_inj.mp hnil)) (hnames name hname).2
  refine ⟨⟨.ofTree t, namesOf t, hnodup, hvalid⟩, ?_, rfl, rfl⟩
  rw [Pattern.compile, hread, ok_bind, if_neg (Nat.not_lt.mpr hweight)]
  exact dif_pos ⟨hnodup, hvalid⟩

end VersionTrail.Pattern
