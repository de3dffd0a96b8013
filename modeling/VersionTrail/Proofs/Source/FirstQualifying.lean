/-
# The first qualifying commit is the source

A walk is searched up to its first stop: a commit that qualifies, or an entry
that cannot be read. What the search gives is told by that stop and by what is
in front of it alone. The induction is over the commits in front of the stop,
none of which has evidence.
-/
import VersionTrail.Proofs.Config.Validation

namespace VersionTrail

namespace Criteria

variable (k : Criteria)

/-- The index of the tags with the warnings about it; it is empty where no tag
can make a commit the source. -/
def indexed (repo : Repository) : Except Failure (TagIndex × List Warning) :=
  if .tag ∈ k.settings.order then
    repo.tags.map (TagScanner.mk k.tagPattern k.settings.tagMatch.annotatedOnly).scan
  else .ok (∅, [])

/-- A walk up to the limit, if there is a positive one. -/
def bounded (walk : List (Except Failure Commit)) : List (Except Failure Commit) :=
  match k.settings.maxCommits with
  | some n => if 0 < n then walk.take n.toNat else walk
  | none => walk

def walked (repo : Repository) : Except Failure (List (Except Failure Commit)) :=
  (repo.walk k.settings.firstParentOnly).map k.bounded

/-- Whether a search ends at an entry of the walk: the entry cannot be read, or
its commit qualifies. -/
def Stops (index : TagIndex) : Except Failure Commit → Prop
  | .error _ => True
  | .ok c => ∃ kind, k.Qualifies index c kind

/-- Whether an entry of the walk is the first one at which a search ends. -/
structure FirstStop (index : TagIndex) (walk : List (Except Failure Commit)) (i : Nat)
    (entry : Except Failure Commit) : Prop where
  entry_at : walk[i]? = some entry
  stops : k.Stops index entry
  first : ∀ j < i, ∀ earlier, walk[j]? = some earlier → ¬ k.Stops index earlier

/-- What a resolution tells when the commit `c` at the place `i` of a walk is
the first one that qualifies. -/
structure Finds (index : TagIndex) (walk : List (Except Failure Commit)) (i : Nat) (c : Commit)
    (r : Resolution) : Prop where
  /-- The commits looked at are those of the walk, the source last. -/
  commits : (r.visits.map fun v => .ok v.commit) = walk.take (i + 1)
  last : r.visits.getLast? = some r.source.visit
  commit : r.source.visit.commit = c
  /-- Only merges have rules for their branches. -/
  rules : ∀ v ∈ r.visits, v.fromRule = (if v.commit.isMerge then k.fromRule? v.commit else none) ∧
    v.toRule = (if v.commit.isMerge then k.toRule? v.commit else none)
  tags : ∀ v ∈ r.visits.dropLast, v.tag = none
  /-- The kind is the first one of the order by which the commit qualifies. -/
  kind : ∃ tried untried, k.settings.order = tried ++ r.source.kind :: untried ∧
    k.Qualifies index c r.source.kind ∧ ∀ earlier ∈ tried, ¬ k.Qualifies index c earlier
  captured : k.Captured index c r.source

/-- What a run of the search on a branch of a repository gives. A walk without a
stop is exhausted; any other one has a first stop. -/
structure Resolves (repo : Repository) (branch : String) (run : Run Resolution) : Prop where
  /-- Tags that cannot be listed end the run. -/
  no_tags : ∀ f, k.indexed repo = .error f → run = ⟨[], .error f⟩
  /-- So does a walk that cannot be started. -/
  no_walk : ∀ index warnings f, k.indexed repo = .ok (index, warnings) →
    k.walked repo = .error f → run = ⟨warnings, .error f⟩
  /-- Without a stop there is no source, and the whole walk was examined. -/
  exhausted : ∀ index warnings walk, k.indexed repo = .ok (index, warnings) →
    k.walked repo = .ok walk → (∀ entry ∈ walk, ¬ k.Stops index entry) →
    run = ⟨warnings, .error (.sourceNotFound branch walk.length)⟩
  /-- An entry that cannot be read, met first, is the failure. -/
  unread : ∀ index warnings walk i f, k.indexed repo = .ok (index, warnings) →
    k.walked repo = .ok walk → k.FirstStop index walk i (.error f) → run = ⟨warnings, .error f⟩
  /-- A qualifying commit, met first, is the source. -/
  found : ∀ index warnings walk i c, k.indexed repo = .ok (index, warnings) →
    k.walked repo = .ok walk → k.FirstStop index walk i (.ok c) →
    ∃ r, run = ⟨warnings, .ok r⟩ ∧ r.path = repo.path ∧ r.branch = branch ∧
      k.Finds index walk i c r
  /-- Nothing behind the first stop has a part in the run. -/
  nothing_behind : ∀ index warnings walk i entry, k.indexed repo = .ok (index, warnings) →
    k.walked repo = .ok walk → k.FirstStop index walk i entry →
    ∀ other walk', other.path = repo.path → k.indexed other = .ok (index, warnings) →
      k.walked other = .ok walk' → walk'.take (i + 1) = walk.take (i + 1) →
      resolveSource k.settings k.matcher other branch = run

variable {k}

/-- The candidates of an index have captures with distinct names. -/
theorem nodup_captures_of_indexed {repo : Repository} {index : TagIndex}
    {warnings : List Warning} (hindexed : k.indexed repo = .ok (index, warnings)) {sha : String}
    {candidate : TagCandidate} (hget : index.get? sha = some candidate) :
    (candidate.captures.map Prod.fst).Nodup := by
  unfold indexed at hindexed
  split at hindexed
  · cases htags : repo.tags with
    | error f => rw [htags] at hindexed; contradiction
    | ok tags =>
        rw [htags] at hindexed
        have hscan : (TagScanner.scan ⟨k.tagPattern, k.settings.tagMatch.annotatedOnly⟩
            tags).1.get? sha = some candidate := by
          rw [Except.ok.inj hindexed]
          exact hget
        obtain ⟨t, -, -, ht⟩ := TagScanner.exists_tag_of_get?_scan hscan
        exact TagScanner.nodup_of_candidate? ht
  · obtain ⟨rfl, -⟩ := Prod.mk.inj (Except.ok.inj hindexed)
    contradiction

theorem tagIndexOf_eq (repo : Repository) :
    tagIndexOf k.settings repo =
      match k.indexed repo with
      | .ok (index, warnings) => ⟨warnings, .ok index⟩
      | .error f => ⟨[], .error f⟩ := by
  have hscanner : TagScanner.ofSettings k.settings.tagMatch =
      .ok ⟨k.tagPattern, k.settings.tagMatch.annotatedOnly⟩ := by
    simp [TagScanner.ofSettings, k.tagPattern_read]
  by_cases htag : SourceKind.tag ∈ k.settings.order
  · cases htags : repo.tags <;> simp [tagIndexOf, indexed, htag, hscanner, htags]
  · simp [tagIndexOf, indexed, htag, pure]

@[simp]
theorem walkOf_eq (repo : Repository) : walkOf k.settings repo = k.walked repo := by
  cases hwalk : repo.walk k.settings.firstParentOnly with
  | error f =>
      rw [walkOf, walked, hwalk]
      rfl
  | ok walk =>
      rw [walkOf, walked, hwalk, ok_bind]
      show _ = Except.ok (k.bounded walk)
      unfold SourceSettings.commitLimit? bounded
      cases k.settings.maxCommits with
      | none => rfl
      | some n => by_cases hn : 0 < n <;> simp [hn]

/-- A search passes over commits that do not qualify and keeps their visits. -/
theorem search_append {index : TagIndex} {cs : List Commit}
    (hcs : ∀ c ∈ cs, ∀ kind, ¬ k.Qualifies index c kind) (rest : List (Except Failure Commit)) :
    (k.detector index).search (cs.map .ok ++ rest) =
      ((k.detector index).search rest).map
        (Option.map fun (visits, source) => (cs.map k.merges.visit ++ visits, source)) := by
  induction cs with
  | nil =>
      rw [List.map_nil, List.nil_append]
      cases (k.detector index).search rest with
      | error f => rfl
      | ok found => cases found <;> rfl
  | cons c cs ih =>
      have hnone : (k.detector index).firstEvidence? ((k.detector index).merges.visit c) = none :=
        firstEvidence?_eq_none_iff.mpr (hcs c List.mem_cons_self)
      have hrest := ih fun later hlater => hcs later (List.mem_cons_of_mem _ hlater)
      rw [List.map_cons, List.cons_append, SourceDetector.search]
      dsimp only
      rw [hnone]
      dsimp only
      rw [hrest]
      cases (k.detector index).search rest with
      | error f => rfl
      | ok found => cases found <;> rfl

/-- A search ends where there is evidence, and the captures become the
parameters. -/
theorem search_of_firstEvidence? {index : TagIndex} {c : Commit} {e : SourceDetector.Evidence}
    (hfirst : (k.detector index).firstEvidence? (k.merges.visit c) = some e)
    (rest : List (Except Failure Commit)) :
    (k.detector index).search (.ok c :: rest) = (do
      let parameters ← Parameters.ofCaptures e.captures
      .ok (some ([e.visit], ⟨e.visit, e.kind, parameters⟩))) := by
  have hevidence :
      (k.detector index).firstEvidence? ((k.detector index).merges.visit c) = some e := hfirst
  rw [SourceDetector.search]
  dsimp only
  rw [hevidence]

/-- A search ends at a qualifying commit, and the source tells what makes the
commit qualify. -/
theorem exists_source_of_qualifies {index : TagIndex} {c : Commit} {kind : SourceKind}
    (hnodup : index.NamesDistinct) (hqualifies : k.Qualifies index c kind) :
    ∃ source : VersionSource,
      (∀ rest, (k.detector index).search (.ok c :: rest) =
        .ok (some ([source.visit], source))) ∧
      { source.visit with tag := none } = k.merges.visit c ∧
      (∃ tried untried, k.settings.order = tried ++ source.kind :: untried ∧
        k.Qualifies index c source.kind ∧ ∀ earlier ∈ tried, ¬ k.Qualifies index c earlier) ∧
      k.Captured index c source := by
  cases hfirst : (k.detector index).firstEvidence? (k.merges.visit c) with
  | none => exact absurd hqualifies (firstEvidence?_eq_none_iff.mp hfirst kind)
  | some e =>
      obtain ⟨tried, kind, untried, horder, hevidence, hkind, htried⟩ :=
        first_kind_of_firstEvidence? hfirst
      obtain ⟨rfl, hvisit, ps, hps, hcaptured⟩ := exists_parameters_of_evidence? hnodup hevidence
      refine ⟨⟨e.visit, e.kind, ps⟩, fun rest => ?_, hvisit,
        ⟨tried, untried, horder, hkind, htried⟩, hcaptured⟩
      simp [search_of_firstEvidence? hfirst, hps]

/-- Entries at which no search ends are commits that do not qualify. -/
theorem exists_commits_of_not_stops {index : TagIndex} {walk : List (Except Failure Commit)}
    (hwalk : ∀ entry ∈ walk, ¬ k.Stops index entry) :
    ∃ cs : List Commit, walk = cs.map .ok ∧ ∀ c ∈ cs, ∀ kind, ¬ k.Qualifies index c kind := by
  induction walk with
  | nil => exact ⟨[], rfl, by simp⟩
  | cons entry walk ih =>
      obtain ⟨cs, rfl, hcs⟩ := ih fun later hlater => hwalk later (List.mem_cons_of_mem _ hlater)
      cases entry with
      | error f => exact absurd trivial (hwalk (.error f) List.mem_cons_self)
      | ok c =>
          refine ⟨c :: cs, rfl, fun other hother kind hqualifies => ?_⟩
          rcases List.mem_cons.mp hother with rfl | hlater
          · exact hwalk (.ok other) List.mem_cons_self ⟨kind, hqualifies⟩
          · exact hcs other hlater kind hqualifies

/-- A search that ends somewhere in a walk has a first place to end. -/
theorem exists_firstStop {index : TagIndex} {walk : List (Except Failure Commit)}
    (hwalk : ∃ entry ∈ walk, k.Stops index entry) : ∃ i entry, k.FirstStop index walk i entry := by
  induction walk with
  | nil => simp at hwalk
  | cons entry walk ih =>
      by_cases hhere : k.Stops index entry
      · exact ⟨0, entry, rfl, hhere, fun j hj => absurd hj (Nat.not_lt_zero j)⟩
      · obtain ⟨later, hlater, hstops⟩ := hwalk
        rcases List.mem_cons.mp hlater with rfl | hmem
        · exact absurd hstops hhere
        · obtain ⟨i, found, hfirst⟩ := ih ⟨later, hmem, hstops⟩
          refine ⟨i + 1, found, hfirst.entry_at, hfirst.stops, fun j hj earlier hearlier => ?_⟩
          cases j with
          | zero => rwa [← Option.some.inj hearlier]
          | succ j => exact hfirst.first j (Nat.lt_of_succ_lt_succ hj) earlier hearlier

/-- In front of the first stop are commits that do not qualify. -/
theorem take_of_firstStop {index : TagIndex} {walk : List (Except Failure Commit)} {i : Nat}
    {entry : Except Failure Commit} (hstop : k.FirstStop index walk i entry) :
    ∃ cs : List Commit, walk.take (i + 1) = cs.map .ok ++ [entry] ∧
      ∀ c ∈ cs, ∀ kind, ¬ k.Qualifies index c kind := by
  have hfront : ∀ earlier ∈ walk.take i, ¬ k.Stops index earlier := by
    intro earlier hmem
    obtain ⟨j, hj⟩ := List.mem_iff_getElem?.mp hmem
    rw [List.getElem?_take] at hj
    split at hj
    · exact hstop.first j ‹_› earlier hj
    · contradiction
  obtain ⟨cs, hcs, hnone⟩ := exists_commits_of_not_stops hfront
  refine ⟨cs, ?_, hnone⟩
  rw [List.take_add_one, hcs, hstop.entry_at]
  rfl

theorem resolveSource_of_not_indexed {repo : Repository} {f : Failure}
    (hindexed : k.indexed repo = .error f) (branch : String) :
    resolveSource k.settings k.matcher repo branch = ⟨[], .error f⟩ := by
  simp [resolveSource, tagIndexOf_eq, hindexed]

theorem resolveSource_of_not_walked {repo : Repository} {index : TagIndex}
    {warnings : List Warning} {f : Failure} (hindexed : k.indexed repo = .ok (index, warnings))
    (hwalked : k.walked repo = .error f) (branch : String) :
    resolveSource k.settings k.matcher repo branch = ⟨warnings, .error f⟩ := by
  simp [resolveSource, tagIndexOf_eq, hindexed, hwalked]

/-- With an index and a walk, a run is a search. -/
theorem resolveSource_eq {repo : Repository} {index : TagIndex} {warnings : List Warning}
    {walk : List (Except Failure Commit)} (hindexed : k.indexed repo = .ok (index, warnings))
    (hwalked : k.walked repo = .ok walk) (branch : String) :
    resolveSource k.settings k.matcher repo branch =
      ⟨warnings,
        match (k.detector index).search walk with
        | .error f => .error f
        | .ok (some (visits, source)) => .ok ⟨source, repo.path, branch, visits⟩
        | .ok none => .error (.sourceNotFound branch walk.length)⟩ := by
  have hdetector : SourceDetector.mk k.settings.order index k.merges = k.detector index := rfl
  simp only [resolveSource, ofSettings_eq_merges, tagIndexOf_eq, hindexed, walkOf_eq, hwalked,
    Run.liftM_ok_bind, Run.mk_ok_bind, hdetector]
  cases hsearch : (k.detector index).search walk with
  | error f => simp
  | ok found =>
      cases found with
      | none => simp [Run.ofExcept]
      | some result => simp [pure]

/-- Apart from its tag, a visit is told by the commit. -/
theorem fields_of_visit {v : Visit} {c : Commit}
    (hvisit : { v with tag := none } = k.merges.visit c) :
    v.commit = c ∧ v.fromRule = (if c.isMerge then k.fromRule? c else none) ∧
      v.toRule = (if c.isMerge then k.toRule? c else none) := by
  rw [visit_eq] at hvisit
  exact ⟨congrArg Visit.commit hvisit, congrArg Visit.fromRule hvisit,
    congrArg Visit.toRule hvisit⟩

/-- A source behind commits that do not qualify is found. -/
theorem finds_of_source {index : TagIndex} {walk : List (Except Failure Commit)} {i : Nat}
    {c : Commit} {cs : List Commit} {source : VersionSource}
    (htake : walk.take (i + 1) = cs.map .ok ++ [.ok c])
    (hvisit : { source.visit with tag := none } = k.merges.visit c)
    (hkind : ∃ tried untried, k.settings.order = tried ++ source.kind :: untried ∧
      k.Qualifies index c source.kind ∧ ∀ earlier ∈ tried, ¬ k.Qualifies index c earlier)
    (hcaptured : k.Captured index c source) (path branch : String) :
    k.Finds index walk i c
      ⟨source, path, branch, cs.map k.merges.visit ++ [source.visit]⟩ where
  commits := by
    simp [htake, (fields_of_visit hvisit).1]
  last := List.getLast?_concat
  commit := (fields_of_visit hvisit).1
  rules := by
    intro v hv
    rcases List.mem_append.mp hv with hfront | hlast
    · obtain ⟨d, -, rfl⟩ := List.mem_map.mp hfront
      simp
    · obtain rfl := List.mem_singleton.mp hlast
      rw [(fields_of_visit hvisit).1]
      exact (fields_of_visit hvisit).2
  tags := by
    rw [List.dropLast_concat]
    intro v hv
    obtain ⟨d, -, rfl⟩ := List.mem_map.mp hv
    simp
  kind := hkind
  captured := hcaptured

/-- A search of a walk that first stops at a qualifying commit finds it, whatever
is behind. -/
theorem exists_source_of_firstStop {index : TagIndex} {walk : List (Except Failure Commit)}
    {i : Nat} {c : Commit} (hnodup : index.NamesDistinct)
    (hstop : k.FirstStop index walk i (.ok c)) (path branch : String) :
    ∃ visits source, k.Finds index walk i c ⟨source, path, branch, visits⟩ ∧
      ∀ walk', walk'.take (i + 1) = walk.take (i + 1) →
        (k.detector index).search walk' = .ok (some (visits, source)) := by
  obtain ⟨cs, htake, hcs⟩ := take_of_firstStop hstop
  obtain ⟨kind, hqualifies⟩ := hstop.stops
  obtain ⟨source, hsearch, hvisit, hkind, hcaptured⟩ := exists_source_of_qualifies hnodup hqualifies
  refine ⟨cs.map k.merges.visit ++ [source.visit], source,
    finds_of_source htake hvisit hkind hcaptured path branch, fun walk' htake' => ?_⟩
  rw [← List.take_append_drop (i + 1) walk', htake', htake, List.append_assoc,
    search_append hcs, List.singleton_append, hsearch]
  rfl

theorem search_of_firstStop_error {index : TagIndex} {walk : List (Except Failure Commit)}
    {i : Nat} {f : Failure} (hstop : k.FirstStop index walk i (.error f))
    {walk' : List (Except Failure Commit)} (htake' : walk'.take (i + 1) = walk.take (i + 1)) :
    (k.detector index).search walk' = .error f := by
  obtain ⟨cs, htake, hcs⟩ := take_of_firstStop hstop
  rw [← List.take_append_drop (i + 1) walk', htake', htake, List.append_assoc, search_append hcs]
  rfl

/-- The source is the first qualifying commit of the walk; its kind, its tag and
its parameters are those by which it qualifies, and what is behind it in the
walk has no part in the run. -/
theorem resolveSource_resolves (k : Criteria) (repo : Repository) (branch : String) :
    k.Resolves repo branch (resolveSource k.settings k.matcher repo branch) where
  no_tags f hindexed := resolveSource_of_not_indexed hindexed branch
  no_walk index warnings f hindexed hwalked :=
    resolveSource_of_not_walked hindexed hwalked branch
  exhausted index warnings walk hindexed hwalked hnone := by
    obtain ⟨cs, rfl, hcs⟩ := exists_commits_of_not_stops hnone
    have hsearch : (k.detector index).search (cs.map .ok) = .ok none := by
      rw [← List.append_nil (cs.map _), search_append hcs]
      rfl
    rw [resolveSource_eq hindexed hwalked, hsearch]
  unread index warnings walk i f hindexed hwalked hstop := by
    rw [resolveSource_eq hindexed hwalked, search_of_firstStop_error hstop rfl]
  found index warnings walk i c hindexed hwalked hstop := by
    obtain ⟨visits, source, hfinds, hsearch⟩ := exists_source_of_firstStop
      (fun _ _ => nodup_captures_of_indexed hindexed) hstop repo.path branch
    refine ⟨_, ?_, rfl, rfl, hfinds⟩
    rw [resolveSource_eq hindexed hwalked, hsearch walk rfl]
  nothing_behind index warnings walk i entry hindexed hwalked hstop other walk' hpath hindexed'
      hwalked' htake := by
    rw [resolveSource_eq hindexed hwalked, resolveSource_eq hindexed' hwalked', hpath]
    cases entry with
    | error f =>
        rw [search_of_firstStop_error hstop rfl, search_of_firstStop_error hstop htake]
    | ok c =>
        obtain ⟨visits, source, -, hsearch⟩ := exists_source_of_firstStop
          (fun _ _ => nodup_captures_of_indexed hindexed) hstop repo.path branch
        rw [hsearch walk rfl, hsearch walk' htake]

/-- With a tag on the second commit, the unread entry behind it is not met. -/
theorem resolveSource_resolves_tagged :
    let a : Commit := ⟨"a", "", "", "", default, 1⟩
    let b : Commit := ⟨"b", "", "", "", default, 1⟩
    let walk := [.ok a, .ok b, .error (.git "unread")]
    let repo : Repository := ⟨"/", .ok "main", .ok [⟨"v", false, "", "b"⟩], fun _ => .ok walk⟩
    ∃ (k : Criteria) (index : TagIndex) (r : Resolution), k.settings.tagMatch.pattern = "v" ∧
      resolveSource k.settings k.matcher repo "main" = ⟨[], .ok r⟩ ∧
      k.Finds index walk 1 b r := by
  intro a b walk repo
  obtain ⟨_, hcheck⟩ := exists_ok_of_isOk (by decide +kernel : (SourceSettings.check
    { tagMatch := { pattern := "v" }, mergeMatch := { endsPattern := "x" } }).isOk = true)
  obtain ⟨k, hk, -⟩ := SourceSettings.exists_criteria_of_check hcheck ⟨∅, []⟩
  have hread : PatternUse.tagMatch.compile "v" = .ok k.tagPattern := by
    have hpattern := k.tagPattern_read
    rwa [hk] at hpattern
  have hmatches :
      ((PatternUse.tagMatch.compile "v").toOption.any fun p => p.isMatch "v") = true := by
    decide +kernel
  rw [hread] at hmatches
  obtain ⟨groups, hgroups⟩ := Option.isSome_iff_exists.mp
    ((k.tagPattern.isMatch_eq_isSome_captures? "v").symm.trans hmatches)
  let candidate : TagCandidate :=
    ⟨⟨"v", false, "", "b"⟩, k.tagPattern.groupNames.filterMap (TagScanner.capture? groups)⟩
  have hcandidate : (TagScanner.mk k.tagPattern false).candidate? ⟨"v", false, "", "b"⟩ =
      some candidate := by
    rw [TagScanner.candidate?, hgroups]
    rfl
  have hindexed : k.indexed repo = .ok ((∅ : TagIndex).insert "b" candidate, []) := by
    rw [indexed, hk]
    show Except.ok (TagScanner.scanInto _ _ _) = _
    rw [TagScanner.scanInto, hcandidate]
    rfl
  have hwalked : k.walked repo = .ok walk := by
    show Except.ok (k.bounded walk) = _
    rw [bounded, hk]
  have hstop : k.FirstStop ((∅ : TagIndex).insert "b" candidate) walk 1 (.ok b) :=
    { entry_at := rfl
      stops := ⟨.tag, by rw [hk]; decide, List.mem_singleton.mpr rfl⟩
      first := fun j hj earlier hearlier => by
        obtain rfl : j = 0 := by omega
        obtain rfl := Option.some.inj hearlier
        rintro ⟨kind, horder, hkind⟩
        cases kind with
        | tag =>
            have hsame : "a" = "b" := List.mem_singleton.mp hkind
            exact absurd hsame (by decide)
        | merge => simp [hk] at horder }
  obtain ⟨r, hrun, -, -, hfinds⟩ :=
    (resolveSource_resolves k repo "main").found _ _ _ 1 b hindexed hwalked hstop
  exact ⟨k, _, r, by rw [hk], hrun, hfinds⟩

end Criteria

end VersionTrail
