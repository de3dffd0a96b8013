/-
# Searches that reach a source

A search that finds a source passes over commits that do not qualify and ends
at one that does. It is told by those commits alone: by what the index has for
them, and not by what else is in the index or behind the source. So the same
source is found in any longer history that has the commits in the same place,
and with any index that has the same candidates on them.

A scripted history has its tags and its commits at hand: there the index and the
walk are known, and only the search can fail.
-/
import VersionTrail.History.Script
import VersionTrail.Proofs.Source.FirstQualifying

namespace VersionTrail

open VersionTrail.History (Script)

namespace MergeDetector

theorem exists_routePattern_of_readRoutes {tagPattern : Pattern} {routes : List MergeRoute}
    {ps : List (MergeRoute × Pattern)} (hread : readRoutes tagPattern routes = .ok ps) :
    ∀ route ∈ routes, ∃ p, routePattern tagPattern route = .ok p := by
  induction routes generalizing ps with
  | nil => simp
  | cons route rest ih =>
      rw [readRoutes, bind_eq_ok_iff] at hread
      obtain ⟨p, hp, hread⟩ := hread
      obtain ⟨later, hlater, -⟩ := bind_eq_ok_iff.mp hread
      intro other hother
      rcases List.mem_cons.mp hother with rfl | hrest
      · exact ⟨p, hp⟩
      · exact ih hlater other hrest

/-- Settings whose patterns have been read give criteria for the source. -/
theorem exists_criteria_of_ofSettings {settings : SourceSettings} {matcher : BranchMatcher}
    {d : MergeDetector} (hread : ofSettings settings matcher = .ok d) :
    ∃ k : Criteria, k.settings = settings ∧ k.matcher = matcher := by
  rw [ofSettings, bind_eq_ok_iff] at hread
  obtain ⟨tagPattern, htag, hread⟩ := hread
  obtain ⟨ends, hends, hread⟩ := bind_eq_ok_iff.mp hread
  obtain ⟨routes, hroutes, -⟩ := bind_eq_ok_iff.mp hread
  exact ⟨⟨settings, matcher, tagPattern, ends, htag, hends,
    exists_routePattern_of_readRoutes hroutes⟩, rfl, rfl⟩

end MergeDetector

namespace Criteria

/-- A run that finds a source has read all patterns of its settings. -/
theorem exists_criteria_of_resolveSource {settings : SourceSettings} {matcher : BranchMatcher}
    {repo : Repository} {branch : String} {r : Resolution}
    (hfound : (resolveSource settings matcher repo branch).outcome = .ok r) :
    ∃ k : Criteria, k.settings = settings ∧ k.matcher = matcher := by
  rw [resolveSource, Run.outcome_bind_eq_ok_iff] at hfound
  obtain ⟨merges, hmerges, -⟩ := hfound
  exact MergeDetector.exists_criteria_of_ofSettings hmerges

variable (k : Criteria)

/-- Whether a search passes over some commits and ends at another one, which is
the source. -/
structure Reaches (index : TagIndex) (cs : List Commit) (c : Commit) (source : VersionSource) :
    Prop where
  above : ∀ d ∈ cs, ∀ kind, ¬ k.Qualifies index d kind
  qualifies : ∃ kind, k.Qualifies index c kind
  visit : { source.visit with tag := none } = k.merges.visit c
  ends : ∀ rest, (k.detector index).search (.ok c :: rest) = .ok (some ([source.visit], source))

variable {k} {index : TagIndex} {cs : List Commit} {c : Commit} {source : VersionSource}

theorem Reaches.map_commit (h : k.Reaches index cs c source) :
    (cs.map k.merges.visit ++ [source.visit]).map Visit.commit = cs ++ [c] := by
  rw [List.map_append, List.map_map, List.map_singleton, (fields_of_visit h.visit).1]
  exact congrArg (· ++ [c]) (List.map_id'' commit_visit cs)

/-- Apart from tags, every visit is told by its commit. -/
theorem Reaches.untagged (h : k.Reaches index cs c source) {v : Visit}
    (hv : v ∈ cs.map k.merges.visit ++ [source.visit]) :
    { v with tag := none } = k.merges.visit v.commit := by
  rcases List.mem_append.mp hv with habove | hsource
  · obtain ⟨d, -, rfl⟩ := List.mem_map.mp habove
    simp
  · obtain rfl := List.mem_singleton.mp hsource
    exact h.visit.trans (congrArg k.merges.visit (fields_of_visit h.visit).1.symm)

theorem Reaches.search (h : k.Reaches index cs c source) (rest : List (Except Failure Commit)) :
    (k.detector index).search (cs.map .ok ++ .ok c :: rest) =
      .ok (some (cs.map k.merges.visit ++ [source.visit], source)) := by
  rw [search_append h.above, h.ends]
  rfl

/-- In every walk a source is reached, or behind commits that do not qualify the
walk is over or cannot be read. -/
theorem exists_reaches_or_exhausted (hnodup : index.NamesDistinct)
    (walk : List (Except Failure Commit)) :
    (∃ cs c source rest, walk = cs.map .ok ++ .ok c :: rest ∧ k.Reaches index cs c source) ∨
      ∃ (cs : List Commit) (rest : List (Except Failure Commit)), walk = cs.map .ok ++ rest ∧
        (∀ d ∈ cs, ∀ kind, ¬ k.Qualifies index d kind) ∧
        (rest = [] ∨ ∃ f later, rest = .error f :: later) := by
  by_cases hstops : ∃ entry ∈ walk, k.Stops index entry
  · obtain ⟨i, entry, hfirst⟩ := exists_firstStop hstops
    obtain ⟨cs, htake, hcs⟩ := take_of_firstStop hfirst
    have hwalk : walk = cs.map .ok ++ entry :: walk.drop (i + 1) := by
      rw [← List.singleton_append, ← List.append_assoc, ← htake, List.take_append_drop]
    cases entry with
    | error f => exact Or.inr ⟨cs, _, hwalk, hcs, Or.inr ⟨f, _, rfl⟩⟩
    | ok c =>
        obtain ⟨kind, hkind⟩ := hfirst.stops
        obtain ⟨found, hends, hvisit, -⟩ := exists_source_of_qualifies hnodup hkind
        exact Or.inl ⟨cs, c, found, _, hwalk, hcs, ⟨kind, hkind⟩, hvisit, hends⟩
  · obtain ⟨cs, rfl, hcs⟩ := exists_commits_of_not_stops
      fun entry hmem hstop => hstops ⟨entry, hmem, hstop⟩
    exact Or.inr ⟨cs, [], (List.append_nil _).symm, hcs, Or.inl rfl⟩

/-- A search that finds a source reaches it. -/
theorem exists_reaches_of_search (hnodup : index.NamesDistinct)
    {walk : List (Except Failure Commit)} {visits : List Visit}
    (hsearch : (k.detector index).search walk = .ok (some (visits, source))) :
    ∃ cs c rest, walk = cs.map .ok ++ .ok c :: rest ∧ k.Reaches index cs c source ∧
      visits = cs.map k.merges.visit ++ [source.visit] := by
  rcases exists_reaches_or_exhausted hnodup walk with
    ⟨cs, c, found, rest, hwalk, hreaches⟩ | ⟨cs, rest, rfl, hcs, hrest⟩
  · rw [hwalk, hreaches.search] at hsearch
    obtain ⟨rfl, rfl⟩ := Prod.mk.inj (Option.some.inj (Except.ok.inj hsearch))
    exact ⟨cs, c, rest, hwalk, hreaches, rfl⟩
  · rw [search_append hcs] at hsearch
    rcases hrest with rfl | ⟨f, later, rfl⟩
    · cases hsearch
    · cases hsearch

/-- Whether a commit qualifies is told by what the index has for it. -/
theorem qualifies_congr {index' : TagIndex} (hget : index'.get? c.sha = index.get? c.sha)
    (kind : SourceKind) : k.Qualifies index' c kind ↔ k.Qualifies index c kind := by
  cases kind with
  | merge => exact Iff.rfl
  | tag =>
      have hkeys : c.sha ∈ index'.keys ↔ c.sha ∈ index.keys := by
        rw [← OrderedMap.isSome_get?_iff, ← OrderedMap.isSome_get?_iff, hget]
      exact and_congr_right fun _ => hkeys

theorem firstEvidence?_congr {index' : TagIndex} (hget : index'.get? c.sha = index.get? c.sha) :
    (k.detector index').firstEvidence? (k.merges.visit c) =
      (k.detector index).firstEvidence? (k.merges.visit c) := by
  have hevidence : (k.detector index').evidence? (k.merges.visit c) =
      (k.detector index).evidence? (k.merges.visit c) := by
    funext kind
    cases kind with
    | merge => rfl
    | tag =>
        rw [SourceDetector.evidence?, SourceDetector.evidence?, visit_eq]
        exact congrArg (Option.map _) hget
  rw [SourceDetector.firstEvidence?, hevidence]
  rfl

/-- An index with the same candidates on the commits reaches the same source. -/
theorem Reaches.congr (h : k.Reaches index cs c source) {index' : TagIndex}
    (habove : ∀ d ∈ cs, index'.get? d.sha = index.get? d.sha)
    (hsource : index'.get? c.sha = index.get? c.sha) : k.Reaches index' cs c source where
  above := fun d hd kind => mt (qualifies_congr (habove d hd) kind).mp (h.above d hd kind)
  qualifies := h.qualifies.imp fun kind => (qualifies_congr hsource kind).mpr
  visit := h.visit
  ends := by
    intro rest
    have hends := h.ends rest
    have hfirst := firstEvidence?_congr (k := k) hsource
    cases hevidence : (k.detector index).firstEvidence? (k.merges.visit c) with
    | none =>
        obtain ⟨kind, hkind⟩ := h.qualifies
        exact absurd hkind (firstEvidence?_eq_none_iff.mp hevidence kind)
    | some e =>
        rw [search_of_firstEvidence? hevidence] at hends
        rw [search_of_firstEvidence? (hfirst.trans hevidence), hends]

variable (k) in
/-- What a search of a walk tells. -/
def resolution (index : TagIndex) (repo : Repository) (branch : String)
    (walk : List (Except Failure Commit)) : Except Failure Resolution :=
  match (k.detector index).search walk with
  | .error f => .error f
  | .ok (some (visits, source)) => .ok ⟨source, repo.path, branch, visits⟩
  | .ok none => .error (.sourceNotFound branch walk.length)

theorem Reaches.resolution (h : k.Reaches index cs c source) (repo : Repository)
    (branch : String) (rest : List (Except Failure Commit)) :
    k.resolution index repo branch (cs.map .ok ++ .ok c :: rest) =
      .ok ⟨source, repo.path, branch, cs.map k.merges.visit ++ [source.visit]⟩ := by
  rw [Criteria.resolution, h.search]

/-- A resolution tells what its search has reached. -/
theorem exists_reaches_of_resolution {repo : Repository} {branch : String}
    {walk : List (Except Failure Commit)} {r : Resolution} (hnodup : index.NamesDistinct)
    (hfound : k.resolution index repo branch walk = .ok r) :
    ∃ cs c rest, walk = cs.map .ok ++ .ok c :: rest ∧ k.Reaches index cs c r.source ∧
      r = ⟨r.source, repo.path, branch, cs.map k.merges.visit ++ [r.source.visit]⟩ := by
  unfold resolution at hfound
  cases hsearch : (k.detector index).search walk with
  | error f =>
      rw [hsearch] at hfound
      contradiction
  | ok found =>
      rw [hsearch] at hfound
      cases found with
      | none => contradiction
      | some result =>
          obtain ⟨visits, source⟩ := result
          obtain rfl := Except.ok.inj hfound
          obtain ⟨cs, c, rest, hwalk, hreaches, rfl⟩ := exists_reaches_of_search hnodup hsearch
          exact ⟨cs, c, rest, hwalk, hreaches, rfl⟩

theorem bounded_of_limit {n : Nat} (hlimit : k.settings.maxCommits = some (n : Int)) (hn : 0 < n)
    (walk : List (Except Failure Commit)) : k.bounded walk = walk.take n := by
  have hpositive : (0 : Int) < n := Int.natCast_pos.mpr hn
  rw [bounded, hlimit]
  exact if_pos hpositive

variable (k) in
/-- A walk is cut at a positive limit, or not at all. -/
theorem bounded_cases :
    (∀ walk, k.bounded walk = walk) ∨
      ∃ n : Nat, k.settings.maxCommits = some (n : Int) ∧ 0 < n := by
  unfold bounded
  cases k.settings.maxCommits with
  | none => exact Or.inl fun _ => rfl
  | some n =>
      by_cases hn : 0 < n
      · refine Or.inr ⟨n.toNat, ?_, Int.pos_iff_toNat_pos.mp hn⟩
        rw [Int.toNat_of_nonneg (Int.le_of_lt hn)]
      · exact Or.inl fun _ => if_neg hn

variable (k)

/-- The scanner for the tags of the settings. -/
def scanner : TagScanner :=
  ⟨k.tagPattern, k.settings.tagMatch.annotatedOnly⟩

/-- The index of some tags; it is empty where no tag can make a commit the
source. -/
def tagIndex (tags : List Tag) : TagIndex :=
  if .tag ∈ k.settings.order then (k.scanner.scan tags).1 else ∅

/-- The commits of a script that a search can look at. -/
def scriptWalk (s : Script) : List (Except Failure Commit) :=
  k.bounded (s.walk k.settings.firstParentOnly)

theorem exists_indexed_toRepository (s : Script) :
    ∃ warnings, k.indexed s.toRepository = .ok (k.tagIndex s.tags, warnings) := by
  unfold indexed tagIndex
  split
  · exact ⟨_, rfl⟩
  · exact ⟨_, rfl⟩

theorem nodup_captures_of_tagIndex (tags : List Tag) {sha : String} {candidate : TagCandidate}
    (hget : (k.tagIndex tags).get? sha = some candidate) :
    (candidate.captures.map Prod.fst).Nodup := by
  obtain ⟨warnings, hindexed⟩ := k.exists_indexed_toRepository { tags := tags }
  exact nodup_captures_of_indexed hindexed hget

/-- The version source of a script is found by the search alone. -/
theorem outcome_resolveSource_toRepository (s : Script) (branch : String) :
    (resolveSource k.settings k.matcher s.toRepository branch).outcome =
      match (k.detector (k.tagIndex s.tags)).search (k.scriptWalk s) with
      | .error f => .error f
      | .ok (some (visits, source)) => .ok ⟨source, s.path, branch, visits⟩
      | .ok none => .error (.sourceNotFound branch (k.scriptWalk s).length) := by
  obtain ⟨warnings, hindexed⟩ := k.exists_indexed_toRepository s
  have hwalked : k.walked s.toRepository = .ok (k.scriptWalk s) := rfl
  rw [resolveSource_eq hindexed hwalked]
  rfl

variable {k}

/-- A search of a script that reaches a source finds it. -/
theorem Reaches.outcome_resolveSource {s : Script} (h : k.Reaches (k.tagIndex s.tags) cs c source)
    {rest : List (Except Failure Commit)} (hwalk : k.scriptWalk s = cs.map .ok ++ .ok c :: rest)
    (branch : String) :
    (resolveSource k.settings k.matcher s.toRepository branch).outcome =
      .ok ⟨source, s.path, branch, cs.map k.merges.visit ++ [source.visit]⟩ := by
  rw [outcome_resolveSource_toRepository, hwalk, h.search]

/-- A search of a script without a commit that qualifies finds no source. -/
theorem outcome_resolveSource_of_not_qualifies {s : Script}
    (hcs : ∀ d ∈ cs, ∀ kind, ¬ k.Qualifies (k.tagIndex s.tags) d kind)
    (hwalk : k.scriptWalk s = cs.map .ok) (branch : String) :
    (resolveSource k.settings k.matcher s.toRepository branch).outcome =
      .error (.sourceNotFound branch cs.length) := by
  have hsearch : (k.detector (k.tagIndex s.tags)).search (k.scriptWalk s) = .ok none := by
    rw [hwalk, ← List.append_nil (cs.map _), search_append hcs]
    rfl
  rw [outcome_resolveSource_toRepository, hsearch, hwalk, List.length_map]

/-- What is found in a script has been reached. -/
theorem exists_reaches_of_resolveSource {s : Script} {branch : String} {r : Resolution}
    (hfound : (resolveSource k.settings k.matcher s.toRepository branch).outcome = .ok r) :
    ∃ cs c rest, k.scriptWalk s = cs.map .ok ++ .ok c :: rest ∧
      k.Reaches (k.tagIndex s.tags) cs c r.source ∧
      r = ⟨r.source, s.path, branch, cs.map k.merges.visit ++ [r.source.visit]⟩ := by
  rw [outcome_resolveSource_toRepository] at hfound
  have hresolution : k.resolution (k.tagIndex s.tags) s.toRepository branch (k.scriptWalk s) =
      .ok r := hfound
  exact exists_reaches_of_resolution (fun _ _ => k.nodup_captures_of_tagIndex s.tags) hresolution

end Criteria

end VersionTrail
