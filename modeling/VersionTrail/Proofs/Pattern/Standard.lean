/-
# The patterns of the default settings

The pattern for tags and the one for the ends of a merge that stand in the
default settings are read here item by item. The first one gives three numbers
with points between them; of the second one it is only told that it can be read.
-/
import VersionTrail.Config.Basic
import VersionTrail.Proofs.Pattern.Reading

namespace VersionTrail.Pattern

open VersionTrail.Text

/-- A repeated class in a group with a name. -/
def captureTree (index : Nat) (name : String) (cls : CharClass) : Tree :=
  .group index (some name) (.repeated 1 none true (.one cls))

/-- The letter in front of a version, in both cases. -/
def letterClass : CharClass :=
  .ranges [(118, 118), (86, 86)]

/-- The point between the numbers of a version. -/
def pointClass : CharClass :=
  .ranges [(46, 46)]

/-- The tree of the pattern for tags. -/
def versionTree : Tree :=
  .seq (.look .start) (.seq (.repeated 0 (some 1) true (.one letterClass))
    (.seq (captureTree 1 "major" .digit) (.seq (.one pointClass)
      (.seq (captureTree 2 "minor" .digit) (.seq (.one pointClass)
        (.seq (captureTree 3 "patch" .digit) (.look .stop)))))))

section Versions

variable {fuel groups : Nat} {names : List String} {pieces : List Piece} {rest : List Char}

theorem alternatives_letter :
    alternatives false (fuel + 1) { ignoreCase := true } [] pieces ⟨groups, names, 'v' :: rest⟩ =
      alternatives false fuel { ignoreCase := true } []
        (⟨.one letterClass, 0, true⟩ :: pieces) ⟨groups, names, rest⟩ := by
  have hvariants : Property.caseVariants 118 = [118, 86] := by
    decide +kernel
  rw [alternatives_char rfl rfl (by decide)]
  simp [CharClass.ofChar, hvariants, CharClass.points, letterClass]

theorem alternatives_point :
    alternatives false (fuel + 1) { ignoreCase := true } [] pieces
        ⟨groups, names, '\\' :: '.' :: rest⟩ =
      alternatives false fuel { ignoreCase := true } []
        (⟨.one pointClass, 0, true⟩ :: pieces) ⟨groups, names, rest⟩ := by
  have hvariants : Property.caseVariants 46 = [46] := by
    decide +kernel
  have hclass : CharClass.ofChar true true '.' = pointClass := by
    simp [CharClass.ofChar, hvariants, CharClass.points, pointClass]
  refine alternatives_escape rfl rfl ?_
  rw [← hclass]
  rfl

theorem alternatives_number {name : List Char} (hne : name ≠ []) (hname : name.all isLatin = true)
    (hnew : String.ofList name ∉ names) :
    alternatives false (fuel + 5) { ignoreCase := true } [] pieces
        ⟨groups, names, '(' :: '?' :: '<' :: (name ++ '>' :: '\\' :: 'd' :: '+' :: ')' :: rest)⟩ =
      alternatives false (fuel + 4) { ignoreCase := true } []
        (⟨captureTree (groups + 1) (String.ofList name) .digit, 2, true⟩ :: pieces)
        ⟨groups + 1, String.ofList name :: names, rest⟩ := by
  refine alternatives_capture rfl hne hname hnew ?_
  rw [alternatives_escape rfl rfl rfl,
    alternatives_repeat rfl rfl (.tail _ (.tail _ (.head _))) (by simp), alternatives_close rfl]
  rfl

end Versions

theorem read_version :
    Tree.read { ignoreCase := true } ({} : TagMatch).pattern.toList = .ok versionTree := by
  have htext : ({} : TagMatch).pattern.toList = '^' :: 'v' :: '?' :: '(' :: '?' :: '<' ::
      ("major".toList ++ '>' :: '\\' :: 'd' :: '+' :: ')' :: '\\' :: '.' :: '(' :: '?' :: '<' ::
      ("minor".toList ++ '>' :: '\\' :: 'd' :: '+' :: ')' :: '\\' :: '.' :: '(' :: '?' :: '<' ::
      ("patch".toList ++ '>' :: '\\' :: 'd' :: '+' :: ')' :: ['$']))) := by
    decide
  have hread : alternatives false (({} : TagMatch).pattern.toList.length + 1)
      { ignoreCase := true } [] [] ⟨0, [], ({} : TagMatch).pattern.toList⟩ =
        .ok (versionTree, 3, ⟨3, ["patch", "minor", "major"], []⟩) := by
    rw [show ({} : TagMatch).pattern.toList.length + 1 = 48 by decide, htext,
      alternatives_end rfl rfl (.head _), alternatives_letter,
      alternatives_repeat rfl rfl (.head _) (by decide),
      alternatives_number (by decide) (by decide) (by decide), alternatives_point,
      alternatives_number (by decide) (by decide) (by decide), alternatives_point,
      alternatives_number (by decide) (by decide) (by decide),
      alternatives_end rfl rfl (.tail _ (.head _)), alternatives_nil rfl]
    rfl
  rw [Tree.read, hread]
  rfl

/-- The pattern for tags has three groups with names. -/
theorem exists_compile_version :
    ∃ p, PatternUse.tagMatch.compile ({} : TagMatch).pattern = .ok p ∧
      p.program = .ofTree versionTree ∧
      p.names = [none, some "major", some "minor", some "patch"] := by
  obtain ⟨p, hp, hprogram, hnames⟩ :=
    exists_compile_of_read read_version (by decide) (by decide) (by decide)
  refine ⟨p, ?_, hprogram, hnames⟩
  have hcompile : Pattern.compile PatternUse.tagMatch.ignoresCase ({} : TagMatch).pattern = .ok p :=
    hp
  rw [PatternUse.compile, hcompile]
  rfl

/-- The items of some text, the last one first. -/
def literals (cs : List Char) : List Piece :=
  (cs.map fun c => ⟨.one (.single c.toNat), 0, true⟩).reverse

/-- The branch that was merged into, which may be left out. -/
def intoTree : Tree :=
  (joinPieces
    (⟨captureTree 2 "To" (.complement .blank), 2, true⟩ :: literals " into ".toList)).1

/-- The tree of the pattern for the ends of a merge. -/
def endsTree : Tree :=
  let remote := (joinPieces (literals "remote-tracking ".toList)).1
  (joinPieces (⟨.repeated 0 (some 1) true intoTree, 4, true⟩ :: literals ['\''] ++
    ⟨captureTree 1 "From" (.complement (.ranges [(39, 39)])), 3, true⟩ ::
      literals "branch '".toList ++
    ⟨.repeated 0 (some 1) true remote, 3, true⟩ :: literals "Merge ".toList)).1

section Ends

variable {inGroup : Bool} {fuel groups : Nat} {branches : List (Tree × Nat)} {pieces : List Piece}
variable {names : List String} {rest : List Char}

/-- Text without marks is read character by character. -/
theorem alternatives_text {cs : List Char} (left : Nat) (hfuel : fuel = left + cs.length)
    (hcs : (cs.all fun c => !itemMarks.contains c) = true) :
    alternatives inGroup fuel {} branches pieces ⟨groups, names, cs ++ rest⟩ =
      alternatives inGroup left {} branches (literals cs ++ pieces) ⟨groups, names, rest⟩ := by
  subst hfuel
  induction cs generalizing pieces with
  | nil => rfl
  | cons c cs ih =>
      rw [List.all_cons, Bool.and_eq_true] at hcs
      rw [List.length_cons, ← Nat.add_assoc, List.cons_append,
        alternatives_char rfl rfl (by simpa using hcs.1), ih hcs.2]
      simp [literals, CharClass.ofChar]

theorem alternatives_remote :
    alternatives true (fuel + 17) {} [] []
        ⟨groups, names, "remote-tracking ".toList ++ ')' :: rest⟩ =
      .ok ((joinPieces (literals "remote-tracking ".toList)).1, 1, ⟨groups, names, rest⟩) := by
  rw [alternatives_text (fuel + 1) (by rfl) (by decide), alternatives_close rfl]
  rfl

theorem alternatives_from :
    alternatives true (fuel + 4) {} [] []
        ⟨groups, names, '[' :: '^' :: '\'' :: ']' :: '+' :: ')' :: rest⟩ =
      .ok (.repeated 1 none true (.one (.complement (.ranges [(39, 39)]))), 2,
        ⟨groups, names, rest⟩) := by
  rw [alternatives_class rfl rfl,
    alternatives_repeat rfl rfl (.tail _ (.tail _ (.head _))) (by simp), alternatives_close rfl]
  rfl

theorem alternatives_to :
    alternatives true (fuel + 4) {} [] [] ⟨groups, names, '\\' :: 'S' :: '+' :: ')' :: rest⟩ =
      .ok (.repeated 1 none true (.one (.complement .blank)), 1, ⟨groups, names, rest⟩) := by
  rw [alternatives_escape rfl rfl rfl,
    alternatives_repeat rfl rfl (.tail _ (.tail _ (.head _))) (by simp), alternatives_close rfl]
  rfl

theorem alternatives_into :
    alternatives true (fuel + 12) {} [] []
        ⟨1, [String.ofList "From".toList], " into ".toList ++ ('(' :: '?' :: '<' ::
          ("To".toList ++ '>' :: '\\' :: 'S' :: '+' :: ')' :: ')' :: rest))⟩ =
      .ok (intoTree, 3, ⟨2, ["To", "From"], rest⟩) := by
  have hname : "To".toList.all isLatin = true := by
    decide
  rw [alternatives_text (fuel + 6) (by rfl) (by decide),
    alternatives_capture rfl (by decide) hname (by decide) alternatives_to, alternatives_close rfl]
  rfl

end Ends

theorem read_ends :
    Tree.read {} ({} : MergeMatch).endsPattern.toList = .ok endsTree := by
  have htext : ({} : MergeMatch).endsPattern.toList =
      "Merge ".toList ++ ('(' :: '?' :: ':' :: ("remote-tracking ".toList ++ (')' :: '?' ::
      ("branch '".toList ++ ('(' :: '?' :: '<' :: ("From".toList ++ '>' :: '[' :: '^' :: '\'' ::
      ']' :: '+' :: ')' :: (['\''] ++ ('(' :: '?' :: ':' :: (" into ".toList ++ ('(' :: '?' ::
      '<' :: ("To".toList ++ '>' :: '\\' :: 'S' :: '+' :: ')' :: ')' :: ['?']))))))))))) := by
    decide
  have hname : "From".toList.all isLatin = true := by
    decide
  have hread : alternatives false (({} : MergeMatch).endsPattern.toList.length + 1) {} [] []
      ⟨0, [], ({} : MergeMatch).endsPattern.toList⟩ =
        .ok (endsTree, 6, ⟨2, ["To", "From"], []⟩) := by
    rw [htext, alternatives_text 66 (by decide) (by decide),
      alternatives_plain rfl alternatives_remote,
      alternatives_repeat rfl rfl (.head _) (by decide), alternatives_text 56 (by rfl) (by decide),
      alternatives_capture rfl (by decide) hname (by decide) alternatives_from,
      alternatives_text 54 (by rfl) (by decide), alternatives_plain rfl alternatives_into,
      alternatives_repeat rfl rfl (.head _) (by decide), alternatives_nil rfl]
    rfl
  rw [Tree.read, hread]
  rfl

theorem exists_compile_ends :
    ∃ p, PatternUse.mergeEnds.compile ({} : MergeMatch).endsPattern = .ok p := by
  obtain ⟨p, hp, -⟩ := exists_compile_of_read read_ends (by decide) (by decide) (by decide)
  have hcompile : Pattern.compile PatternUse.mergeEnds.ignoresCase ({} : MergeMatch).endsPattern =
      .ok p := hp
  exact ⟨p, by rw [PatternUse.compile, hcompile]; rfl⟩

end VersionTrail.Pattern
