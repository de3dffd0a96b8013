/-
# Versions of three numbers

The pattern for tags that stands in the default settings splits the name of a
version into its three numbers. Its program has three loops over digits, and it
is followed here loop by loop: each loop takes the digits of one number, and the
points between them are taken by the threads that leave the loop.
-/
import VersionTrail.Proofs.Pattern.Standard
import VersionTrail.Proofs.Pattern.Sweep
import VersionTrail.Source

namespace VersionTrail

open VersionTrail.Text

/-- A version of three numbers in digits, with the letter that its name may have
in front. -/
structure Version where
  letter : String
  major : String
  minor : String
  patch : String
  letter_eq : letter ∈ ["", "v", "V"]
  major_isNumeral : isNumeral major.toList = true
  minor_isNumeral : isNumeral minor.toList = true
  patch_isNumeral : isNumeral patch.toList = true

namespace Version

/-- The three numbers with points between them. -/
def number (v : Version) : String :=
  v.major ++ "." ++ v.minor ++ "." ++ v.patch

def name (v : Version) : String :=
  v.letter ++ v.number

@[simp]
theorem toList_name (v : Version) :
    v.name.toList = v.letter.toList ++
      (v.major.toList ++ '.' :: (v.minor.toList ++ '.' :: v.patch.toList)) := by
  simp [name, number, String.toList_append]

end Version

namespace Pattern

/-- The program of the pattern for tags. -/
def versionProgram : Program where
  code := #[
    .accept, .save 1 0, .look .stop 1, .save 7 2, .fork 5 3, .take .digit 4, .save 6 5,
    .take pointClass 6, .save 5 7, .fork 10 8, .take .digit 9, .save 4 10, .take pointClass 11,
    .save 3 12, .fork 15 13, .take .digit 14, .save 2 15, .take letterClass 16, .fork 17 16,
    .look .start 18, .save 0 19]
  entry := 20
  slots := 8

theorem ofTree_versionTree : Program.ofTree versionTree = versionProgram :=
  rfl

/-- The numbers with a point behind them. -/
inductive Pointed where
  | major
  | minor

/-- The place of the loop over a number. -/
def Pointed.place : Pointed → Nat
  | .major => 15
  | .minor => 10

/-- The number under which the end of a number is noted. -/
def Pointed.slot : Pointed → Nat
  | .major => 3
  | .minor => 5

section Threads

-- Threads are followed through the program by evaluation.
attribute [local simp] Program.lead Program.starts Front.enter Front.empty follow versionProgram
attribute [local simp] Assertion.holds Pointed.place Pointed.slot

variable (c : Char) (after : Option Char) (position : Nat) (slots : Slots)

theorem anchored_versionProgram : versionProgram.Anchored := by
  intro front c after position slots
  simp
  split
  · rfl
  · split
    · rfl
    · rfl

theorem lead_afterLetter : versionProgram.lead ⟨some c, after⟩ position ⟨16, slots⟩ =
    [⟨15, slots.setIfInBounds 2 (some position)⟩] := by
  simp

/-- Behind a digit the point may follow, or the next digit. -/
theorem lead_digit (n : Pointed) :
    versionProgram.lead ⟨some c, after⟩ position ⟨n.place - 1, slots⟩ =
      [⟨n.place - 3, slots.setIfInBounds n.slot (some position)⟩] ++ [⟨n.place, slots⟩] := by
  cases n <;> simp

theorem lead_point (n : Pointed) :
    versionProgram.lead ⟨some c, after⟩ position ⟨n.place - 4, slots⟩ =
      [⟨n.place - 5, slots.setIfInBounds (n.slot + 1) (some position)⟩] := by
  cases n <;> simp

/-- The end of the last number is noted at the end of the text only. -/
def lastExits (after : Option Char) (position : Nat) (slots : Slots) : List Thread :=
  if after = none then
    [⟨0, (slots.setIfInBounds 7 (some position)).setIfInBounds 1 (some position)⟩]
  else []

theorem lead_patch : versionProgram.lead ⟨some c, after⟩ position ⟨4, slots⟩ =
    lastExits after position slots ++ [⟨5, slots⟩] := by
  cases after <;> simp [lastExits]

/-- The positions noted in front of the first number. -/
def startSlots : Slots :=
  (Array.replicate 8 none).setIfInBounds 0 (some 0)

theorem starts_versionProgram : versionProgram.starts c =
    [⟨15, startSlots.setIfInBounds 2 (some 0)⟩, ⟨17, startSlots⟩] := by
  simp [startSlots]

/-- All positions of a run that takes the name of a version. -/
theorem noted_startSlots (start majorStop minorStart minorStop patchStart stop : Option Nat) :
    ((((((startSlots.setIfInBounds 2 start).setIfInBounds 3 majorStop).setIfInBounds 4
      minorStart).setIfInBounds 5 minorStop).setIfInBounds 6 patchStart).setIfInBounds 7
      stop).setIfInBounds 1 stop =
        #[some 0, stop, start, majorStop, minorStart, minorStop, patchStart, stop] := by
  simp [startSlots, ← List.toArray_replicate, List.replicate]

end Threads

theorem holds_digit_of_isDigit {c : Char} (hc : c.isDigit = true) :
    CharClass.digit.holds c.toNat = true := by
  have hbounds : 48 ≤ c.toNat ∧ c.toNat ≤ 57 := Char.isDigit_iff_toNat.mp hc
  rw [CharClass.holds, isDecimalDigit, List.any_eq_true]
  refine ⟨48, by decide, ?_⟩
  simp only [Bool.and_eq_true, decide_eq_true_eq]
  omega

/-- The threads in front of a point or of the letter refuse digits. -/
theorem refuses_of_digit {c : Char} (hc : CharClass.digit.holds c.toNat = true) {u : Thread}
    (hu : u.place ∈ [7, 12, 17]) : Refuses versionProgram.code c u := by
  have hmarks : ∀ n ∈ [46, 86, 118], c.toNat ≠ n := by
    have hdigits : ∀ n ∈ [46, 86, 118], CharClass.digit.holds n = false := by
      decide
    rintro n hn rfl
    rw [hdigits _ hn] at hc
    contradiction
  have hpoint : pointClass.holds c.toNat = false := by
    have hne := hmarks 46 (by decide)
    simp only [pointClass, CharClass.holds, Property.Ranges.holds, List.any_cons, List.any_nil,
      Bool.or_false, Bool.and_eq_false_iff, decide_eq_false_iff_not]
    omega
  have hletter : letterClass.holds c.toNat = false := by
    have hlower := hmarks 118 (by decide)
    have hupper := hmarks 86 (by decide)
    simp only [letterClass, CharClass.holds, Property.Ranges.holds, List.any_cons, List.any_nil,
      Bool.or_false, Bool.or_eq_false_iff, Bool.and_eq_false_iff, decide_eq_false_iff_not]
    omega
  simp only [List.mem_cons, List.not_mem_nil, or_false] at hu
  rcases hu with hu | hu | hu
  · exact ⟨pointClass, 6, by rw [hu]; rfl, hpoint⟩
  · exact ⟨pointClass, 11, by rw [hu]; rfl, hpoint⟩
  · exact ⟨letterClass, 16, by rw [hu]; rfl, hletter⟩

/-- The threads inside a number refuse the letter and the points. -/
theorem refuses_of_mark {c : Char} (hc : c ∈ ['v', 'V', '.']) {u : Thread}
    (hu : u.place ∈ [10, 15]) : Refuses versionProgram.code c u := by
  have hmarks : (['v', 'V', '.'].all fun c => !CharClass.digit.holds c.toNat) = true := by
    decide
  have hdigit : CharClass.digit.holds c.toNat = false := by
    simpa using List.all_eq_true.mp hmarks c hc
  simp only [List.mem_cons, List.not_mem_nil, or_false] at hu
  rcases hu with hu | hu
  · exact ⟨.digit, 9, by rw [hu]; rfl, hdigit⟩
  · exact ⟨.digit, 14, by rw [hu]; rfl, hdigit⟩

theorem loop_pointed (n : Pointed) :
    versionProgram.Loop .digit n.place (n.place - 1) fun _ position slots =>
      [⟨n.place - 3, slots.setIfInBounds n.slot (some position)⟩] where
  take := by cases n <;> rfl
  lead := fun c after position slots => lead_digit c after position slots n
  refuse := fun c position slots hc t ht => by
    obtain rfl := List.mem_singleton.mp ht
    exact refuses_of_digit hc (by cases n <;> simp [Pointed.place])

theorem loop_patch : versionProgram.Loop .digit 5 4 lastExits where
  take := rfl
  lead := lead_patch
  refuse := fun _ _ _ _ _ ht => absurd ht List.not_mem_nil

section Run

variable {position : Nat} {slots : Slots} {ds : List Char} {others : List Thread}

/-- A number and the point behind it. -/
theorem run_pointed (n : Pointed) (hds : isNumeral ds = true)
    (hothers : ∀ u ∈ others, u.place = 17) (rest : List Char) :
    versionProgram.run position (⟨n.place, slots⟩ :: others) (ds ++ '.' :: rest) =
      versionProgram.run (position + ds.length + 1)
        [⟨n.place - 5, (slots.setIfInBounds n.slot (some (position + ds.length))).setIfInBounds
          (n.slot + 1) (some (position + ds.length + 1))⟩] rest := by
  obtain ⟨hne, hdigits⟩ := isNumeral_iff.mp hds
  have hholds := fun d hd => holds_digit_of_isDigit (hdigits d hd)
  have hrefuse : ∀ u ∈ others, ∀ d ∈ ds.head?, Refuses versionProgram.code d u := by
    intro u hu d hd
    exact refuses_of_digit (hholds d (List.mem_of_mem_head? hd)) (by simp [hothers u hu])
  have hmark : ∀ u ∈ [Thread.mk n.place slots], Refuses versionProgram.code '.' u := by
    intro u hu
    obtain rfl := List.mem_singleton.mp hu
    exact refuses_of_mark (by decide) (by cases n <;> simp [Pointed.place])
  have htake : versionProgram.code.getD (n.place - 3) .accept =
      .take pointClass (n.place - 4) := by
    cases n <;> rfl
  have hholdsPoint : pointClass.holds '.'.toNat = true := by
    decide
  have hdigitsTaken : versionProgram.run position ([] ++ ⟨n.place, slots⟩ :: others)
      (ds ++ '.' :: rest) = versionProgram.run (position + ds.length)
        ([] ++ ⟨n.place - 3, slots.setIfInBounds n.slot (some (position + ds.length))⟩ ::
          [⟨n.place, slots⟩]) ('.' :: rest) :=
    (loop_pointed n).run_append anchored_versionProgram hne hholds
      (fun _ hu => absurd hu List.not_mem_nil) hrefuse _
  rw [anchored_versionProgram.run_cons htake hholdsPoint
    (fun _ hu => absurd hu List.not_mem_nil) hmark, lead_point] at hdigitsTaken
  exact hdigitsTaken

/-- The last number ends the text. -/
theorem run_patch (hds : isNumeral ds = true) :
    versionProgram.run position [⟨5, slots⟩] ds =
      some ((slots.setIfInBounds 7 (some (position + ds.length))).setIfInBounds 1
        (some (position + ds.length))) := by
  obtain ⟨hne, hdigits⟩ := isNumeral_iff.mp hds
  have hdigitsTaken : versionProgram.run position ([] ++ ⟨5, slots⟩ :: []) (ds ++ []) =
      versionProgram.run (position + ds.length)
        (lastExits none (position + ds.length) slots ++ [⟨5, slots⟩]) [] :=
    loop_patch.run_append anchored_versionProgram hne
      (fun d hd => holds_digit_of_isDigit (hdigits d hd))
      (fun _ hu => absurd hu List.not_mem_nil) (fun _ hu => absurd hu List.not_mem_nil) []
  rw [List.append_nil, lastExits, if_pos rfl, List.singleton_append,
    anchored_versionProgram.run_nil rfl fun u hu => by
      obtain rfl := List.mem_singleton.mp hu
      exact ⟨.digit, 4, rfl⟩] at hdigitsTaken
  exact hdigitsTaken

/-- With or without a letter in front, a run comes to the first number. -/
theorem exists_run_of_letter {letter : String} (hletter : letter ∈ ["", "v", "V"]) {cs : List Char}
    (hcs : cs ≠ []) :
    ∃ others : List Thread, (∀ u ∈ others, u.place = 17) ∧
      versionProgram.search none 0 (letter.toList ++ cs) =
        versionProgram.run letter.toList.length
          (⟨15, startSlots.setIfInBounds 2 (some letter.toList.length)⟩ :: others) cs := by
  have hwith (c : Char) (hc : c ∈ ['v', 'V']) :
      versionProgram.search none 0 (c :: cs) =
        versionProgram.run 1 [⟨15, startSlots.setIfInBounds 2 (some 1)⟩] cs := by
    have hrefuse : ∀ u ∈ [Thread.mk 15 (startSlots.setIfInBounds 2 (some 0))],
        Refuses versionProgram.code c u := by
      intro u hu
      obtain rfl := List.mem_singleton.mp hu
      exact refuses_of_mark (List.mem_append_left ['.'] hc) (by decide)
    have hholds : (['v', 'V'].all fun c => letterClass.holds c.toNat) = true := by
      decide
    have htaken : versionProgram.run 0 ([⟨15, startSlots.setIfInBounds 2 (some 0)⟩] ++
        ⟨17, startSlots⟩ :: []) (c :: cs) = _ :=
      anchored_versionProgram.run_cons rfl (List.all_eq_true.mp hholds c hc) hrefuse
        fun _ hu => absurd hu List.not_mem_nil
    rw [lead_afterLetter] at htaken
    rw [anchored_versionProgram.search_cons, starts_versionProgram]
    exact htaken
  simp only [List.mem_cons, List.not_mem_nil, or_false] at hletter
  rcases hletter with rfl | rfl | rfl
  · obtain ⟨c, cs, rfl⟩ := List.exists_cons_of_ne_nil hcs
    refine ⟨[⟨17, startSlots⟩], by simp, ?_⟩
    have hstart : versionProgram.search none 0 (c :: cs) = _ :=
      anchored_versionProgram.search_cons
    rw [starts_versionProgram] at hstart
    exact hstart
  · exact ⟨[], by simp, hwith 'v' (by decide)⟩
  · exact ⟨[], by simp, hwith 'V' (by decide)⟩

end Run

/-- A run over the name of a version notes where its numbers start and end. -/
theorem search_version (v : Version) :
    ∃ start majorStop minorStart minorStop patchStart stop,
      versionProgram.search none 0 v.name.toList = some #[some 0, some stop, some start,
        some majorStop, some minorStart, some minorStop, some patchStart, some stop] ∧
      start = v.letter.toList.length ∧ majorStop = start + v.major.toList.length ∧
      minorStart = majorStop + 1 ∧ minorStop = minorStart + v.minor.toList.length ∧
      patchStart = minorStop + 1 ∧ stop = patchStart + v.patch.toList.length := by
  obtain ⟨hne, -⟩ := isNumeral_iff.mp v.major_isNumeral
  obtain ⟨others, hothers, hrun⟩ := exists_run_of_letter v.letter_eq
    (List.append_ne_nil_of_left_ne_nil hne ('.' :: (v.minor.toList ++ '.' :: v.patch.toList)))
  refine ⟨_, _, _, _, _, _, ?_, rfl, rfl, rfl, rfl, rfl, rfl⟩
  rw [v.toList_name, hrun, ← noted_startSlots]
  calc
    _ = _ := run_pointed .major v.major_isNumeral hothers _
    _ = _ := run_pointed .minor v.minor_isNumeral (fun _ hu => absurd hu List.not_mem_nil) _
    _ = _ := run_patch v.patch_isNumeral

theorem slice_append (front middle back : List Char) :
    slice (front ++ (middle ++ back)) front.length (front.length + middle.length) =
      String.ofList middle := by
  rw [slice, List.drop_left, Nat.add_sub_cancel_left, List.take_left]

/-- What a match of the name of a version takes. -/
def versionCaptures (whole : String) (v : Version) : Captures where
  names := [none, some "major", some "minor", some "patch"]
  groups := [some whole, some v.major, some v.minor, some v.patch]

/-- The pattern for tags matches the name of a version, and takes it apart. -/
theorem exists_captures?_version {p : Pattern} (hprogram : p.program = .ofTree versionTree)
    (hnames : p.names = [none, some "major", some "minor", some "patch"]) (v : Version) :
    ∃ whole, p.captures? v.name = some (versionCaptures whole v) := by
  obtain ⟨start, majorStop, minorStart, minorStop, patchStart, stop, hsearch, hstart, hmajorStop,
    hminorStart, hminorStop, hpatchStart, hstop⟩ := search_version v
  have hmajor : slice v.name.toList start majorStop = v.major := by
    rw [hmajorStop, hstart, v.toList_name, slice_append, String.ofList_toList]
  have hminor : slice v.name.toList minorStart minorStop = v.minor := by
    have hsplit : v.name.toList = (v.letter.toList ++ v.major.toList ++ ['.']) ++
        (v.minor.toList ++ ('.' :: v.patch.toList)) := by
      simp
    have hlength : minorStart = (v.letter.toList ++ v.major.toList ++ ['.']).length := by
      simp [hminorStart, hmajorStop, hstart, Nat.add_assoc]
    rw [hminorStop, hlength, hsplit, slice_append, String.ofList_toList]
  have hpatch : slice v.name.toList patchStart stop = v.patch := by
    have hsplit : v.name.toList =
        (v.letter.toList ++ v.major.toList ++ '.' :: v.minor.toList ++ ['.']) ++
          (v.patch.toList ++ []) := by
      simp
    have hlength : patchStart =
        (v.letter.toList ++ v.major.toList ++ '.' :: v.minor.toList ++ ['.']).length := by
      simp [hpatchStart, hminorStop, hminorStart, hmajorStop, hstart]
      omega
    rw [hstop, hlength, hsplit, slice_append, String.ofList_toList]
  refine ⟨slice v.name.toList 0 stop, ?_⟩
  rw [captures?, hprogram, ofTree_versionTree, hsearch, Option.map_some, capturesOf, hnames,
    versionCaptures, ← hmajor, ← hminor, ← hpatch]
  rfl

theorem capture?_of_named? {c : Captures} {group value : String}
    (hvalue : c.named? group = some value) (hblank : isBlankText value = false) :
    TagScanner.capture? c group = some (group, value) := by
  rw [TagScanner.capture?, hvalue]
  simp [hblank]

/-- No number of a version is blank, so all of them are kept. -/
theorem captured_versionCaptures {p : Pattern}
    (hnames : p.names = [none, some "major", some "minor", some "patch"]) (whole : String)
    (v : Version) :
    p.groupNames.filterMap (TagScanner.capture? (versionCaptures whole v)) =
      [("major", v.major), ("minor", v.minor), ("patch", v.patch)] := by
  have hmajor : TagScanner.capture? (versionCaptures whole v) "major" = some ("major", v.major) :=
    capture?_of_named? rfl (isBlankText_of_isNumeral v.major_isNumeral)
  have hminor : TagScanner.capture? (versionCaptures whole v) "minor" = some ("minor", v.minor) :=
    capture?_of_named? rfl (isBlankText_of_isNumeral v.minor_isNumeral)
  have hpatch : TagScanner.capture? (versionCaptures whole v) "patch" = some ("patch", v.patch) :=
    capture?_of_named? rfl (isBlankText_of_isNumeral v.patch_isNumeral)
  have hgroups : p.groupNames = ["major", "minor", "patch"] := by
    rw [groupNames, hnames]
    rfl
  rw [hgroups, List.filterMap_cons_some hmajor, List.filterMap_cons_some hminor,
    List.filterMap_cons_some hpatch, List.filterMap_nil]

/-- The pattern for tags that stands in the default settings captures the three
numbers in the name of a version. -/
theorem exists_captures?_of_compile {p : Pattern}
    (hp : PatternUse.tagMatch.compile ({} : TagMatch).pattern = .ok p) (v : Version) :
    ∃ groups, p.captures? v.name = some groups ∧
      p.groupNames.filterMap (TagScanner.capture? groups) =
        [("major", v.major), ("minor", v.minor), ("patch", v.patch)] := by
  obtain ⟨q, hq, hprogram, hnames⟩ := exists_compile_version
  obtain rfl := Except.ok.inj (hq.symm.trans hp)
  obtain ⟨whole, hwhole⟩ := exists_captures?_version hprogram hnames v
  exact ⟨_, hwhole, captured_versionCaptures hnames whole v⟩

end Pattern

end VersionTrail
