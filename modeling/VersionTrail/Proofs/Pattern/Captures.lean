/-
# The groups of a match

A table of runs gives each code point the label of the run it falls into, and
the ranges taken from the table hold the code points whose label passes the
test. A list of distances holds nothing below the first distance. Together they
tell that no digit starts the name of a group.

A match has the groups of its pattern. A group without a name can be called by
its number: names are pairwise distinct, numbers are too, and no name is the
text of a number, so every group has a key of its own.
-/
import VersionTrail.Pattern.Basic
import VersionTrail.Pattern.Reader
import VersionTrail.Proofs.Text.Numeral

namespace VersionTrail.Pattern

open VersionTrail.Text

namespace Property

@[simp]
theorem holds_cons_iff {range : Nat × Nat} {rs : Ranges} {n : Nat} :
    Ranges.holds (range :: rs) n = true ↔
      (range.1 ≤ n ∧ n ≤ range.2) ∨ Ranges.holds rs n = true := by
  simp [Ranges.holds]

@[simp]
theorem holds_append_iff {rs more : Ranges} {n : Nat} :
    Ranges.holds (rs ++ more) n = true ↔ rs.holds n = true ∨ more.holds n = true := by
  simp [Ranges.holds]

/-- The label of the run that a place falls into. -/
def labelAt? : Nat → List Run → Option String
  | _, [] => none
  | n, r :: rs => if n < r.count then some r.label else labelAt? (n - r.count) rs

/-- Runs behind a place do not change its label. -/
theorem labelAt?_append {n : Nat} {rs : List Run} {label : String}
    (hlabel : labelAt? n rs = some label) (more : List Run) :
    labelAt? n (rs ++ more) = some label := by
  induction rs generalizing n with
  | nil => simp [labelAt?] at hlabel
  | cons r rs ih =>
      rw [labelAt?] at hlabel
      rw [List.cons_append, labelAt?]
      split at hlabel
      · rwa [if_pos ‹_›]
      · rw [if_neg ‹_›]
        exact ih hlabel

/-- No range of a table ends before it starts. -/
theorem le_of_mem_rangesFrom {keep : String → Bool} {start : Nat} {runs : List Run}
    {range : Nat × Nat} (hmem : range ∈ rangesFrom keep start runs) : range.1 ≤ range.2 := by
  induction runs generalizing start range with
  | nil => simp [rangesFrom] at hmem
  | cons r rs ih =>
      rw [rangesFrom] at hmem
      by_cases hkeep : (keep r.label && decide (0 < r.count)) = true
      · rw [if_pos hkeep] at hmem
        have hcount : 0 < r.count := by simp at hkeep; exact hkeep.2
        split at hmem
        case h_1 low high more hrest =>
          have hrange := ih (hrest ▸ List.mem_cons_self)
          have hmore : range ∈ more → range.1 ≤ range.2 :=
            fun hin => ih (hrest ▸ List.mem_cons_of_mem _ hin)
          split at hmem
          · rcases List.mem_cons.mp hmem with rfl | hin
            · show start ≤ high
              have : low ≤ high := hrange
              omega
            · exact hmore hin
          · rcases List.mem_cons.mp hmem with rfl | hin
            · show start ≤ start + r.count - 1
              omega
            · exact ih hin
        case h_2 =>
          obtain rfl := List.mem_singleton.mp hmem
          show start ≤ start + r.count - 1
          omega
      · rw [if_neg hkeep] at hmem
        exact ih hmem

/-- A run that passes the test adds its own code points to the ranges. -/
theorem holds_rangesFrom_cons_of_keep {keep : String → Bool} {start n : Nat} {r : Run}
    {rs : List Run} (hkeep : keep r.label = true) (hcount : 0 < r.count) :
    (rangesFrom keep start (r :: rs)).holds n = true ↔
      (start ≤ n ∧ n < start + r.count) ∨
        (rangesFrom keep (start + r.count) rs).holds n = true := by
  rw [rangesFrom, if_pos (by simp [hkeep, hcount])]
  split
  case h_1 low high more hrest =>
    have hrange : low ≤ high := le_of_mem_rangesFrom (hrest ▸ List.mem_cons_self)
    rw [hrest]
    split
    · simp only [holds_cons_iff]
      constructor
      · rintro (hin | hin)
        · by_cases hn : n < start + r.count
          · exact Or.inl ⟨hin.1, hn⟩
          · exact Or.inr (Or.inl (by omega))
        · exact Or.inr (Or.inr hin)
      · rintro (hin | hin | hin)
        · exact Or.inl (by omega)
        · exact Or.inl (by omega)
        · exact Or.inr hin
    · simp only [holds_cons_iff]
      have hlast : n ≤ start + r.count - 1 ↔ n < start + r.count := by omega
      rw [hlast]
  case h_2 hrest =>
    rw [hrest, holds_cons_iff]
    have hlast : n ≤ start + r.count - 1 ↔ n < start + r.count := by omega
    rw [hlast]

/-- The ranges of a table hold exactly the code points whose label passes the
test. -/
theorem holds_rangesFrom_iff {keep : String → Bool} {start n : Nat} {runs : List Run} :
    (rangesFrom keep start runs).holds n = true ↔
      start ≤ n ∧ ∃ label, labelAt? (n - start) runs = some label ∧ keep label = true := by
  induction runs generalizing start with
  | nil => simp [rangesFrom, Ranges.holds, labelAt?]
  | cons r rs ih =>
      have hrest : n - start - r.count = n - (start + r.count) := by omega
      by_cases hin : n - start < r.count
      · by_cases hkeep : keep r.label = true
        · rw [holds_rangesFrom_cons_of_keep hkeep (by omega), ih, labelAt?, if_pos hin]
          simp only [Option.some.injEq, exists_eq_left', hkeep, and_true]
          constructor
          · rintro (hfirst | hmore)
            · exact hfirst.1
            · omega
          · exact fun hstart => Or.inl ⟨hstart, by omega⟩
        · rw [rangesFrom, if_neg (by simp [hkeep]), ih, labelAt?, if_pos hin]
          simp only [Option.some.injEq, exists_eq_left']
          constructor
          · rintro ⟨hstart, -⟩
            omega
          · exact fun hlabel => absurd hlabel.2 hkeep
      · have hiff : (rangesFrom keep start (r :: rs)).holds n = true ↔
            (rangesFrom keep (start + r.count) rs).holds n = true := by
          by_cases hkeep : keep r.label = true ∧ 0 < r.count
          · rw [holds_rangesFrom_cons_of_keep hkeep.1 hkeep.2]
            exact or_iff_right (by omega)
          · rw [rangesFrom, if_neg (by simpa using hkeep)]
        rw [hiff, ih, labelAt?, if_neg hin, hrest]
        have hstart : start + r.count ≤ n ↔ start ≤ n ∧ ¬n - start < r.count := by omega
        rw [hstart]
        simp [hin]

/-- The label of a basic code point decides whether a set of categories holds
it. -/
theorem holds_categoryRanges {groups : List String} {n : Nat} {label : String}
    (hlabel : labelAt? n basicRuns = some label) :
    (categoryRanges groups).holds n = groups.any fun g => inCategory g label := by
  have hall : labelAt? n categoryRuns = some label := labelAt?_append hlabel _
  rw [Bool.eq_iff_iff, categoryRanges, rangesWhere, holds_rangesFrom_iff, Nat.sub_zero, hall]
  simp

/-- A list of distances holds nothing below the first one. -/
theorem le_of_holds_gapRanges {start gap n : Nat} {rest : List Nat}
    (hholds : (gapRanges start (gap :: rest)).holds n = true) : start + gap ≤ n := by
  induction hlength : rest.length using Nat.strongRecOn generalizing start gap rest with
  | ind length ih =>
      match rest with
      | [] => simp [gapRanges, Ranges.holds] at hholds
      | count :: [] =>
          simp [gapRanges, Ranges.holds] at hholds
          exact hholds.1
      | count :: next :: more =>
          rw [gapRanges, holds_cons_iff] at hholds
          rcases hholds with hfirst | hmore
          · exact hfirst.1
          · have := ih more.length (by simp at hlength; omega) hmore rfl
            omega

/-- A text cut at its blanks, the first piece apart from the others. -/
def pieces : List Char → List Char × List (List Char)
  | [] => ([], [])
  | c :: cs =>
    if c = ' ' ∨ c = '\n' then ([], (pieces cs).1 :: (pieces cs).2)
    else (c :: (pieces cs).1, (pieces cs).2)

/-- The words are the pieces that are not empty. -/
theorem words_eq_pieces (cs : List Char) :
    words cs = ((pieces cs).1 :: (pieces cs).2).filter (!·.isEmpty) := by
  have hfold : cs.foldr (fun c (acc : List Char × List (List Char)) =>
      if c = ' ' ∨ c = '\n' then ([], acc.1 :: acc.2) else (c :: acc.1, acc.2)) ([], []) =
      pieces cs := by
    induction cs with
    | nil => rfl
    | cons c cs ih => rw [List.foldr_cons, ih, pieces]
  rw [words, hfold]

/-- A blank cuts a text in two. -/
@[simp]
theorem pieces_append (front back : List Char) :
    pieces (front ++ ' ' :: back) =
      ((pieces front).1, (pieces front).2 ++ (pieces back).1 :: (pieces back).2) := by
  induction front with
  | nil => simp [pieces]
  | cons c front ih =>
      rw [List.cons_append, pieces, pieces, ih]
      split <;> rfl

@[simp]
theorem words_append (front back : List Char) :
    words (front ++ ' ' :: back) = words front ++ words back := by
  simp only [words_eq_pieces, pieces_append, ← List.filter_append, List.cons_append]

theorem le_of_holds_readGaps {gap : List Char} {rest : List Char} {n : Nat}
    (hgap : words gap = [gap])
    (hholds : (readGaps (String.ofList (gap ++ ' ' :: rest))).holds n = true) :
    Nat.ofDigitChars 10 gap 0 ≤ n := by
  rw [readGaps, String.toList_ofList, words_append, hgap, List.map_append] at hholds
  have hle := le_of_holds_gapRanges hholds
  dsimp only at hle
  omega

set_option maxRecDepth 20000 in
/-- The letters are those of two categories and of a list that starts far
behind the basic code points. -/
theorem binary?_alphabetic :
    ∃ rest, binary? "alphabetic" =
      some (Binary.ranges ⟨["alpha", "alphabetic"], ["L", "Nl"],
        String.ofList ("837".toList ++ ' ' :: rest), ""⟩) :=
  ⟨_, rfl⟩

/-- A property from which nothing is taken away has its categories and its
list. -/
theorem ranges_of_removed_nil (names categories : List String) (added : String) :
    Binary.ranges ⟨names, categories, added, ""⟩ =
      categoryRanges categories ++ readGaps added := by
  have hnone : readGaps "" = [] := by decide
  rw [Binary.ranges, hnone]
  rfl

/-- A basic code point is alphabetic exactly where its category says so. -/
theorem holds_alphabetic {n : Nat} {label : String} (hn : n < 837)
    (hlabel : labelAt? n basicRuns = some label) :
    ((binary? "alphabetic").getD []).holds n =
      (["L", "Nl"].any fun g => inCategory g label) := by
  obtain ⟨rest, hrest⟩ := binary?_alphabetic
  rw [hrest, Option.getD_some, ranges_of_removed_nil, Bool.eq_iff_iff, holds_append_iff,
    holds_categoryRanges hlabel]
  refine or_iff_left fun hgaps => ?_
  have hword : words "837".toList = ["837".toList] := by decide
  have hle : 837 ≤ n := le_of_holds_readGaps hword hgaps
  omega

theorem labelAt?_digit {c : Char} (hdigit : c.isDigit = true) :
    labelAt? c.toNat basicRuns = some "Nd" := by
  have hall : ∀ k < 10, labelAt? (48 + k) basicRuns = some "Nd" := by decide
  have hbounds : 48 ≤ c.toNat ∧ c.toNat ≤ 57 := Char.isDigit_iff_toNat.mp hdigit
  have hk := hall (c.toNat - 48) (by omega)
  rwa [show 48 + (c.toNat - 48) = c.toNat by omega] at hk

end Property

/-- No digit starts the name of a group. -/
theorem startsName_of_isDigit {c : Char} (hdigit : c.isDigit = true) : startsName c = false := by
  have hbounds : 48 ≤ c.toNat ∧ c.toNat ≤ 57 := Char.isDigit_iff_toNat.mp hdigit
  have hunderscore : c ≠ '_' := by
    rintro rfl
    contradiction
  have halpha := Property.holds_alphabetic (by omega) (Property.labelAt?_digit hdigit)
  have hgroups : (["L", "Nl"].any fun g => Property.inCategory g "Nd") = false := by decide
  rw [startsName, halpha, hgroups]
  simpa using hunderscore

/-- The text of a number is no name of a group. -/
@[simp]
theorem isGroupName_toDigits (n : Nat) : isGroupName (Nat.toDigits 10 n) = false := by
  cases hdigits : Nat.toDigits 10 n with
  | nil => rfl
  | cons c cs =>
      have hdigit : c.isDigit = true :=
        (isNumeral_iff.mp (isNumeral_toDigits n)).2 c (by rw [hdigits]; exact List.mem_cons_self)
      rw [isGroupName, startsName_of_isDigit hdigit, Bool.false_and]

/-- A pattern matches a text exactly where there is something to capture. -/
theorem isMatch_eq_isSome_captures? (p : Pattern) (text : String) :
    p.isMatch text = (p.captures? text).isSome := by
  rw [isMatch, captures?, Option.isSome_map]

theorem names_of_captures? {p : Pattern} {text : String} {c : Captures}
    (hcaptures : p.captures? text = some c) : c.names = p.names := by
  obtain ⟨slots, -, rfl⟩ := Option.map_eq_some_iff.mp hcaptures
  rfl

theorem toString_injective {m n : Nat} (heq : toString m = toString n) : m = n := by
  have hdigits : Nat.toDigits 10 m = Nat.toDigits 10 n := by
    simpa only [Nat.toString_eq_repr, Nat.toList_repr] using congrArg String.toList heq
  rw [← Nat.ofDigitChars_ten_toDigits (n := m), hdigits, Nat.ofDigitChars_ten_toDigits]

theorem isGroupName_toString (n : Nat) : isGroupName (toString n).toList = false := by
  rw [Nat.toString_eq_repr, Nat.toList_repr, isGroupName_toDigits]

/-- The key of a group is its name, or the text of its number. -/
theorem mem_or_eq_toString_of_mem_groupKeys {names : List (Option String)} {start : Nat}
    {key : String} (hkey : key ∈ (names.zipIdx start).map fun e => e.1.getD (toString e.2)) :
    key ∈ names.filterMap id ∨ ∃ i, start ≤ i ∧ key = toString i := by
  obtain ⟨⟨name, i⟩, hmem, rfl⟩ := List.mem_map.mp hkey
  obtain ⟨hstart, -, hname⟩ := List.mem_zipIdx hmem
  cases name with
  | none => exact Or.inr ⟨i, hstart, rfl⟩
  | some n =>
      have hn : some n ∈ names := hname ▸ List.getElem_mem _
      exact Or.inl (List.mem_filterMap.mpr ⟨some n, hn, rfl⟩)

/-- Every group has its own key: its name, or else its number. -/
theorem nodup_groupKeys {names : List (Option String)} (hnodup : (names.filterMap id).Nodup)
    (hvalid : ∀ n ∈ names.filterMap id, isGroupName n.toList = true) (start : Nat) :
    ((names.zipIdx start).map fun e => e.1.getD (toString e.2)).Nodup := by
  -- The numbers behind the first group are all larger than its own.
  induction names generalizing start with
  | nil => simp
  | cons name names ih =>
      rw [List.zipIdx_cons, List.map_cons, List.nodup_cons]
      cases name with
      | none =>
          refine ⟨fun hmem => ?_, ih hnodup hvalid (start + 1)⟩
          rcases mem_or_eq_toString_of_mem_groupKeys hmem with hname | ⟨i, hi, heq⟩
          · have hfirst := hvalid (toString start) hname
            rw [isGroupName_toString] at hfirst
            contradiction
          · exact absurd (toString_injective heq) (by omega)
      | some n =>
          have hcons : (some n :: names).filterMap id = n :: names.filterMap id := rfl
          rw [hcons] at hnodup hvalid
          refine ⟨fun hmem => ?_, ih (List.nodup_cons.mp hnodup).2
            (fun m hm => hvalid m (List.mem_cons_of_mem _ hm)) (start + 1)⟩
          rcases mem_or_eq_toString_of_mem_groupKeys hmem with hname | ⟨i, -, heq⟩
          · exact (List.nodup_cons.mp hnodup).1 hname
          · have hfirst := hvalid n List.mem_cons_self
            rw [show n = toString i from heq, isGroupName_toString] at hfirst
            contradiction

end VersionTrail.Pattern
