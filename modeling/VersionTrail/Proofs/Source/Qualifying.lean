/-
# Which commits qualify

What makes a commit a version source is said here without the search: by the
index for tags, and for merges by the rules of the two branches and the routes.
A detector has evidence of a kind exactly where the commit qualifies by it, and
what it captures is that of the tag or of the first route that fits.
-/
import VersionTrail.Source
import VersionTrail.Proofs.Bump.Replay
import VersionTrail.Proofs.Pattern.Captures
import VersionTrail.Proofs.Run
import VersionTrail.Proofs.Source.TagIndex

namespace VersionTrail

open VersionTrail.Text

/-- The settings of a rule whose patterns can be read, with the patterns. -/
structure Criteria where
  settings : SourceSettings
  matcher : BranchMatcher
  tagPattern : Pattern
  ends : Pattern
  tagPattern_read : PatternUse.tagMatch.compile settings.tagMatch.pattern = .ok tagPattern
  ends_read : PatternUse.mergeEnds.compile settings.mergeMatch.endsPattern = .ok ends
  routes_read : ∀ route ∈ settings.mergeMatch.routes,
    ∃ p, MergeDetector.routePattern tagPattern route = .ok p

namespace MergeDetector

/-- The routes whose patterns can be read, with the patterns. -/
def readable (tagPattern : Pattern) (routes : List MergeRoute) : List (MergeRoute × Pattern) :=
  routes.filterMap fun route => (routePattern tagPattern route).toOption.map fun p => (route, p)

/-- Where all patterns can be read, reading the routes keeps all of them. -/
theorem readRoutes_eq_readable {tagPattern : Pattern} {routes : List MergeRoute}
    (hread : ∀ route ∈ routes, ∃ p, routePattern tagPattern route = .ok p) :
    readRoutes tagPattern routes = .ok (readable tagPattern routes) := by
  induction routes with
  | nil => rfl
  | cons route rest ih =>
      obtain ⟨p, hp⟩ := hread route List.mem_cons_self
      have hrest := ih fun later hlater => hread later (List.mem_cons_of_mem _ hlater)
      have hcons : readable tagPattern (route :: rest) = (route, p) :: readable tagPattern rest :=
        List.filterMap_cons_some (by rw [hp]; rfl)
      simp [readRoutes, hp, hrest, hcons]

/-- The keys of all groups of a match are distinct. -/
theorem nodup_allGroups {p : Pattern} {text : String} {c : Pattern.Captures}
    (hcaptures : p.captures? text = some c) : ((allGroups c).map Prod.fst).Nodup := by
  have hkeys : (allGroups c).map Prod.fst =
      c.names.zipIdx.map fun e => e.1.getD (toString e.2) := by
    rw [allGroups, List.map_map]
    rfl
  rw [hkeys, Pattern.names_of_captures? hcaptures]
  exact Pattern.nodup_groupKeys p.names_nodup p.names_valid 0

end MergeDetector

namespace Criteria

variable (k : Criteria)

/-- The name of a branch that a message tells; a name that it does not tell is
empty. -/
def branchName (group message : String) : String :=
  match k.ends.captures? message with
  | some c => (c.named? group).getD ""
  | none => ""

/-- The rule of the branch that a commit merged, by its message. -/
def fromRule? (c : Commit) : Option String :=
  k.matcher.classify (k.branchName "From" c.message)

/-- The rule of the branch that a commit merged into, by its message. -/
def toRule? (c : Commit) : Option String :=
  k.matcher.classify (k.branchName "To" c.message)

/-- Whether a route leads between the two rules and its pattern matches. -/
def Fits (c : Commit) (route : MergeRoute) : Prop :=
  k.fromRule? c = some route.fromRule ∧ k.toRule? c = some route.toRule ∧
    ∃ p, MergeDetector.routePattern k.tagPattern route = .ok p ∧ p.isMatch c.summary = true

/-- Whether a commit qualifies by a kind. -/
def Qualifies (index : TagIndex) (c : Commit) (kind : SourceKind) : Prop :=
  kind ∈ k.settings.order ∧
    match kind with
    | .tag => c.sha ∈ index.keys
    | .merge => 1 < c.parents ∧ ∃ route ∈ k.settings.mergeMatch.routes, k.Fits c route

/-- What a route captures in the summary of a commit, if it fits. -/
def routeCaptures? (c : Commit) (route : MergeRoute) : Option (List (String × String)) :=
  if k.fromRule? c = some route.fromRule ∧ k.toRule? c = some route.toRule then
    match MergeDetector.routePattern k.tagPattern route with
    | .ok p => (p.captures? c.summary).map MergeDetector.allGroups
    | .error _ => none
  else none

def merges : MergeDetector :=
  ⟨k.matcher, k.ends, MergeDetector.readable k.tagPattern k.settings.mergeMatch.routes⟩

def detector (index : TagIndex) : SourceDetector :=
  ⟨k.settings.order, index, k.merges⟩

@[simp]
theorem ofSettings_eq_merges :
    MergeDetector.ofSettings k.settings k.matcher = .ok k.merges := by
  simp [MergeDetector.ofSettings, k.tagPattern_read, k.ends_read, merges,
    MergeDetector.readRoutes_eq_readable k.routes_read]

variable {k}

@[simp]
theorem tags_detector (index : TagIndex) : (k.detector index).tags = index :=
  rfl

/-- A visit finds the rules of the branches of a merge. -/
@[simp]
theorem visit_eq (c : Commit) :
    k.merges.visit c =
      { commit := c
        fromRule := if c.isMerge then k.fromRule? c else none
        toRule := if c.isMerge then k.toRule? c else none } := by
  have hends : k.merges.endsOf c.message =
      (k.branchName "From" c.message, k.branchName "To" c.message) := by
    have hread : k.merges.ends = k.ends := rfl
    unfold MergeDetector.endsOf branchName
    rw [hread]
    cases k.ends.captures? c.message <;> rfl
  unfold MergeDetector.visit
  rw [hends]
  cases c.isMerge <;> rfl

/-- A route captures something exactly where it fits. -/
@[simp]
theorem isSome_routeCaptures?_iff {c : Commit} {route : MergeRoute} :
    (k.routeCaptures? c route).isSome = true ↔ k.Fits c route := by
  unfold routeCaptures? Fits
  split
  case isTrue hrules =>
    cases hp : MergeDetector.routePattern k.tagPattern route with
    | error f => simp
    | ok p => simp [hrules, Pattern.isMatch_eq_isSome_captures?]
  case isFalse hrules =>
    simp only [Option.isSome_none, Bool.false_eq_true, false_iff]
    exact fun hfits => hrules ⟨hfits.1, hfits.2.1⟩

@[simp]
theorem routeCaptures?_eq_none_iff {c : Commit} {route : MergeRoute} :
    k.routeCaptures? c route = none ↔ ¬ k.Fits c route := by
  rw [← isSome_routeCaptures?_iff, Bool.not_eq_true, Option.isSome_eq_false_iff,
    Option.isNone_iff_eq_none]

/-- The captures of a route are all groups of a match of its pattern. -/
theorem exists_match_of_routeCaptures? {c : Commit} {route : MergeRoute}
    {captures : List (String × String)} (hroute : k.routeCaptures? c route = some captures) :
    ∃ p groups, MergeDetector.routePattern k.tagPattern route = .ok p ∧
      p.captures? c.summary = some groups ∧ captures = MergeDetector.allGroups groups := by
  unfold routeCaptures? at hroute
  split at hroute
  case isTrue =>
    cases hp : MergeDetector.routePattern k.tagPattern route with
    | error f => simp [hp] at hroute
    | ok p =>
        rw [hp] at hroute
        obtain ⟨groups, hgroups, rfl⟩ := Option.map_eq_some_iff.mp hroute
        exact ⟨p, groups, rfl, hgroups, rfl⟩
  case isFalse => contradiction

/-- Between two rules, the first route that captures something is taken. -/
theorem captures?_readable {c : Commit} {fromRule toRule : String}
    (hfrom : k.fromRule? c = some fromRule) (hto : k.toRule? c = some toRule)
    (routes : List MergeRoute) :
    MergeDetector.captures? fromRule toRule c.summary
        (MergeDetector.readable k.tagPattern routes) =
      routes.findSome? (k.routeCaptures? c) := by
  induction routes with
  | nil => rfl
  | cons route rest ih =>
      have hrules : (k.fromRule? c = some route.fromRule ∧ k.toRule? c = some route.toRule) ↔
          route.fromRule = fromRule ∧ route.toRule = toRule := by
        rw [hfrom, hto, Option.some.injEq, Option.some.injEq]
        exact and_congr eq_comm eq_comm
      rw [List.findSome?_cons]
      unfold MergeDetector.readable at ih ⊢
      cases hp : MergeDetector.routePattern k.tagPattern route with
      | error f =>
          have hnone : k.routeCaptures? c route = none := by
            refine routeCaptures?_eq_none_iff.mpr ?_
            rintro ⟨-, -, p, hok, -⟩
            rw [hp] at hok
            contradiction
          rw [List.filterMap_cons_none (by rw [hp]; rfl), ih, hnone]
      | ok p =>
          rw [List.filterMap_cons_some (by rw [hp]; rfl), MergeDetector.captures?, ih]
          by_cases hends : route.fromRule = fromRule ∧ route.toRule = toRule
          · rw [if_pos hends, routeCaptures?, if_pos (hrules.mpr hends), hp]
            dsimp only
            cases p.captures? c.summary <;> rfl
          · rw [if_neg hends, routeCaptures?, if_neg (mt hrules.mp hends)]

theorem commit_visit (c : Commit) : (k.merges.visit c).commit = c := by
  simp

/-- A merge captures what the first route that fits captures. -/
theorem detect?_visit (c : Commit) :
    k.merges.detect? (k.merges.visit c) =
      if c.isMerge then k.settings.mergeMatch.routes.findSome? (k.routeCaptures? c) else none := by
  rw [visit_eq, MergeDetector.detect?]
  cases hmerge : c.isMerge with
  | false => rfl
  | true =>
      simp only [if_true]
      cases hfrom : k.fromRule? c with
      | none =>
          refine (List.findSome?_eq_none_iff.mpr fun route _ => ?_).symm
          exact routeCaptures?_eq_none_iff.mpr fun hfits => by simp [hfits.1] at hfrom
      | some fromRule =>
          cases hto : k.toRule? c with
          | none =>
              refine (List.findSome?_eq_none_iff.mpr fun route _ => ?_).symm
              exact routeCaptures?_eq_none_iff.mpr fun hfits => by simp [hfits.2.1] at hto
          | some toRule =>
              exact captures?_readable hfrom hto k.settings.mergeMatch.routes

/-- There is evidence of a configured kind exactly where the commit qualifies by
it. -/
theorem isSome_evidence?_iff {index : TagIndex} {c : Commit} {kind : SourceKind}
    (hkind : kind ∈ k.settings.order) :
    ((k.detector index).evidence? (k.merges.visit c) kind).isSome = true ↔
      k.Qualifies index c kind := by
  cases kind with
  | tag =>
      simp [SourceDetector.evidence?, Qualifies, hkind]
  | merge =>
      rw [SourceDetector.evidence?, Option.isSome_map]
      show (k.merges.detect? (k.merges.visit c)).isSome = true ↔
        SourceKind.merge ∈ k.settings.order ∧
          1 < c.parents ∧ ∃ route ∈ k.settings.mergeMatch.routes, k.Fits c route
      rw [and_iff_right hkind, detect?_visit]
      by_cases hmerge : 1 < c.parents
      · have hisMerge : c.isMerge = true := decide_eq_true hmerge
        simp [hisMerge, hmerge]
      · have hisMerge : c.isMerge = false := decide_eq_false hmerge
        simp [hisMerge, hmerge]

/-- No kind has evidence exactly where the commit does not qualify. -/
theorem firstEvidence?_eq_none_iff {index : TagIndex} {c : Commit} :
    (k.detector index).firstEvidence? (k.merges.visit c) = none ↔
      ∀ kind, ¬ k.Qualifies index c kind := by
  rw [SourceDetector.firstEvidence?, List.findSome?_eq_none_iff]
  constructor
  · intro hnone kind hqualifies
    have hsome := (isSome_evidence?_iff hqualifies.1).mpr hqualifies
    rw [hnone kind hqualifies.1] at hsome
    contradiction
  · intro hnone kind hkind
    have hempty := mt (isSome_evidence?_iff hkind).mp (hnone kind)
    rwa [Bool.not_eq_true, Option.isSome_eq_false_iff, Option.isNone_iff_eq_none] at hempty

/-- The first evidence is that of the first kind by which the commit
qualifies. -/
theorem first_kind_of_firstEvidence? {index : TagIndex} {c : Commit}
    {e : SourceDetector.Evidence}
    (hfirst : (k.detector index).firstEvidence? (k.merges.visit c) = some e) :
    ∃ tried kind untried, k.settings.order = tried ++ kind :: untried ∧
      (k.detector index).evidence? (k.merges.visit c) kind = some e ∧
      k.Qualifies index c kind ∧ ∀ earlier ∈ tried, ¬ k.Qualifies index c earlier := by
  obtain ⟨tried, kind, untried, horder, hevidence, htried⟩ :=
    List.findSome?_eq_some_iff.mp hfirst
  have horder : k.settings.order = tried ++ kind :: untried := horder
  have hkind : kind ∈ k.settings.order := by simp [horder]
  refine ⟨tried, kind, untried, horder, hevidence, ?_, fun earlier hearlier hqualifies => ?_⟩
  · exact (isSome_evidence?_iff hkind).mp (by rw [hevidence]; rfl)
  · have hsome := (isSome_evidence?_iff hqualifies.1).mpr hqualifies
    rw [htried earlier hearlier] at hsome
    contradiction

variable (k) in
/-- What a source tells of its commit: with a tag, the candidate of the index
and its captures; with a merge, all groups of the first route that fits. -/
def Captured (index : TagIndex) (c : Commit) (source : VersionSource) : Prop :=
  match source.kind with
  | .tag => ∃ candidate, index.get? c.sha = some candidate ∧
      source.visit.tag = some candidate.tag ∧ source.parameters.entries = candidate.captures
  | .merge => source.visit.tag = none ∧
      ∃ before route after p groups, k.settings.mergeMatch.routes = before ++ route :: after ∧
        (∀ earlier ∈ before, ¬ k.Fits c earlier) ∧ k.Fits c route ∧
        MergeDetector.routePattern k.tagPattern route = .ok p ∧
        p.captures? c.summary = some groups ∧
        source.parameters.entries = MergeDetector.allGroups groups

/-- The captures of evidence become parameters, and the source then tells what
was captured. -/
theorem exists_parameters_of_evidence? {index : TagIndex} {c : Commit} {kind : SourceKind}
    {e : SourceDetector.Evidence} (hindex : index.NamesDistinct)
    (hevidence : (k.detector index).evidence? (k.merges.visit c) kind = some e) :
    e.kind = kind ∧ { e.visit with tag := none } = k.merges.visit c ∧
      ∃ ps, Parameters.ofCaptures e.captures = .ok ps ∧
        k.Captured index c ⟨e.visit, e.kind, ps⟩ := by
  cases kind with
  | tag =>
      obtain ⟨candidate, hcandidate, rfl⟩ := Option.map_eq_some_iff.mp hevidence
      have hcandidate : index.get? c.sha = some candidate := by simpa using hcandidate
      obtain ⟨ps, hps, hentries⟩ := Parameters.ofCaptures_of_nodup (hindex _ _ hcandidate)
      exact ⟨rfl, by simp, ps, hps, candidate, hcandidate, rfl, hentries⟩
  | merge =>
      obtain ⟨captures, hdetect, rfl⟩ := Option.map_eq_some_iff.mp hevidence
      have hdetect : k.merges.detect? (k.merges.visit c) = some captures := hdetect
      rw [detect?_visit] at hdetect
      split at hdetect
      case isTrue =>
        obtain ⟨before, route, after, hroutes, hroute, hbefore⟩ :=
          List.findSome?_eq_some_iff.mp hdetect
        obtain ⟨p, groups, hp, hgroups, rfl⟩ := exists_match_of_routeCaptures? hroute
        obtain ⟨ps, hps, hentries⟩ :=
          Parameters.ofCaptures_of_nodup (MergeDetector.nodup_allGroups hgroups)
        refine ⟨rfl, by simp, ps, hps, by simp, before, route, after, p, groups,
          hroutes, fun earlier hearlier => ?_, ?_, hp, hgroups, hentries⟩
        · exact routeCaptures?_eq_none_iff.mp (hbefore earlier hearlier)
        · exact isSome_routeCaptures?_iff.mp (by simp [hroute])
      case isFalse => contradiction

end Criteria

end VersionTrail
