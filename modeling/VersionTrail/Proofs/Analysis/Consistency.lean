/-
# Analyses that fit together

What an analysis tells comes from several stages: the rule from the
configuration, the commits and the source from the search, the parameters from
the replay, and the outputs from what the templates see. Where all of them
succeed, what they tell fits together, in every repository and with every
configuration.
-/
import VersionTrail.History.Script
import VersionTrail.Proofs.Analysis.Resolving
import VersionTrail.Proofs.Branch.Matcher
import VersionTrail.Proofs.Bump.Exactness

namespace VersionTrail

open VersionTrail.History (Script)
open VersionTrail.Text
open VersionTrail.Template (Scope)

namespace Criteria

/-- What a resolution tells of its commits and of the source among them. -/
structure Consistent (k : Criteria) (index : TagIndex) (r : Resolution) : Prop where
  last : r.visits.getLast? = some r.source.visit
  untagged : ∀ v ∈ r.visits.dropLast, v.tag = none
  tagged_iff : r.source.kind = .tag ↔ r.source.visit.tag.isSome = true
  target : ∀ t, r.source.visit.tag = some t → t.target = r.source.visit.commit.sha
  merged : r.source.kind = .merge → 1 < r.source.visit.commit.parents ∧
    r.source.visit.fromRule.isSome = true ∧ r.source.visit.toRule.isSome = true
  plain : ∀ v ∈ r.visits, v.commit.parents ≤ 1 → v.fromRule = none ∧ v.toRule = none
  /-- The rules of a merge are those of the branches in its whole message. -/
  merge : ∀ v ∈ r.visits, 1 < v.commit.parents →
    v.fromRule = k.matcher.classify (k.branchName "From" v.commit.message) ∧
      v.toRule = k.matcher.classify (k.branchName "To" v.commit.message)
  captured : k.Captured index r.source.visit.commit r.source

variable {k : Criteria} {repo : Repository} {index : TagIndex} {branch : String} {r : Resolution}

/-- A search that succeeds has found the first qualifying commit of its walk. -/
theorem exists_finds_of_resolveSource
    (hfound : (resolveSource k.settings k.matcher repo branch).outcome = .ok r) :
    r.path = repo.path ∧ r.branch = branch ∧
      ∃ index warnings walk i c, k.indexed repo = .ok (index, warnings) ∧
        k.walked repo = .ok walk ∧ k.Finds index walk i c r := by
  cases hindexed : k.indexed repo with
  | error f =>
      rw [resolveSource_of_not_indexed hindexed] at hfound
      contradiction
  | ok indexed =>
      obtain ⟨index, warnings⟩ := indexed
      cases hwalked : k.walked repo with
      | error f =>
          rw [resolveSource_of_not_walked hindexed hwalked] at hfound
          contradiction
      | ok walk =>
          rw [resolveSource_eq hindexed hwalked] at hfound
          by_cases hstops : ∃ entry ∈ walk, k.Stops index entry
          · obtain ⟨i, entry, hfirst⟩ := exists_firstStop hstops
            cases entry with
            | error f =>
                rw [search_of_firstStop_error hfirst rfl] at hfound
                contradiction
            | ok c =>
                obtain ⟨visits, source, hfinds, hsearch⟩ := exists_source_of_firstStop
                  (fun _ _ => nodup_captures_of_indexed hindexed) hfirst repo.path branch
                rw [hsearch walk rfl] at hfound
                obtain rfl := Except.ok.inj hfound
                exact ⟨rfl, rfl, index, warnings, walk, i, c, rfl, rfl, hfinds⟩
          · obtain ⟨cs, rfl, hcs⟩ := exists_commits_of_not_stops
              fun entry hmem hstop => hstops ⟨entry, hmem, hstop⟩
            rw [← List.append_nil (cs.map _), search_append hcs] at hfound
            contradiction

/-- The candidate under an identifier is a tag that points at it. -/
theorem target_of_indexed {warnings : List Warning}
    (hindexed : k.indexed repo = .ok (index, warnings)) {sha : String} {candidate : TagCandidate}
    (hget : index.get? sha = some candidate) : candidate.tag.target = sha := by
  unfold indexed at hindexed
  split at hindexed
  case isTrue =>
    cases htags : repo.tags with
    | error f => rw [htags] at hindexed; contradiction
    | ok tags =>
        rw [htags] at hindexed
        have hscan : (k.scanner.scan tags).1.get? sha = some candidate := by
          rw [scanner, Except.ok.inj hindexed]
          exact hget
        obtain ⟨t, -, htarget, ht⟩ := TagScanner.exists_tag_of_get?_scan hscan
        rw [TagScanner.tag_of_candidate? ht, htarget]
  case isFalse =>
    obtain ⟨rfl, -⟩ := Prod.mk.inj (Except.ok.inj hindexed)
    contradiction

/-- A source has the tag that makes it one, or is a merge between two rules and has
no tag. -/
theorem Finds.kind_cases {walk : List (Except Failure Commit)} {i : Nat} {c : Commit}
    (h : k.Finds index walk i c r) :
    (r.source.kind = .tag ∧ ∃ candidate, index.get? c.sha = some candidate ∧
        r.source.visit.tag = some candidate.tag) ∨
      (r.source.kind = .merge ∧ r.source.visit.tag = none ∧ 1 < c.parents ∧
        ∃ fromRule toRule, k.fromRule? c = some fromRule ∧ k.toRule? c = some toRule) := by
  obtain ⟨tried, untried, -, hqualifies, -⟩ := h.kind
  have hcaptured := h.captured
  unfold Qualifies at hqualifies
  unfold Captured at hcaptured
  cases hkind : r.source.kind with
  | tag =>
      rw [hkind] at hcaptured
      obtain ⟨candidate, hcandidate, htag, -⟩ := hcaptured
      exact Or.inl ⟨rfl, candidate, hcandidate, htag⟩
  | merge =>
      rw [hkind] at hcaptured hqualifies
      obtain ⟨-, hparents, route, -, hfrom, hto, -⟩ := hqualifies
      exact Or.inr ⟨rfl, hcaptured.1, hparents, route.fromRule, route.toRule, hfrom, hto⟩

/-- What is found at a place of a walk fits together. -/
theorem Finds.consistent {warnings : List Warning} {walk : List (Except Failure Commit)} {i : Nat}
    {c : Commit} (hindexed : k.indexed repo = .ok (index, warnings))
    (h : k.Finds index walk i c r) : k.Consistent index r := by
  obtain rfl := h.commit
  have hmerge (v : Visit) : v.commit.isMerge = true ↔ 1 < v.commit.parents := decide_eq_true_iff
  have hrules (v : Visit) (hv : v ∈ r.visits) (hparents : 1 < v.commit.parents) :
      v.fromRule = k.fromRule? v.commit ∧ v.toRule = k.toRule? v.commit := by
    have hrules := h.rules v hv
    rwa [if_pos ((hmerge v).mpr hparents), if_pos ((hmerge v).mpr hparents)] at hrules
  have hplain (v : Visit) (hv : v ∈ r.visits) (hparents : v.commit.parents ≤ 1) :
      v.fromRule = none ∧ v.toRule = none := by
    have hnot : ¬ v.commit.isMerge = true := mt (hmerge v).mp (Nat.not_lt.mpr hparents)
    have hrules := h.rules v hv
    rwa [if_neg hnot, if_neg hnot] at hrules
  rcases h.kind_cases with ⟨hkind, candidate, hget, htag⟩ |
    ⟨hkind, htag, hparents, fromRule, toRule, hfrom, hto⟩
  · refine ⟨h.last, h.tags, by simp [hkind, htag], fun t ht => ?_, by simp [hkind], hplain, hrules,
      h.captured⟩
    obtain rfl := Option.some.inj (htag.symm.trans ht)
    exact target_of_indexed hindexed hget
  · refine ⟨h.last, h.tags, by simp [hkind, htag], by simp [htag], fun _ => ?_, hplain, hrules,
      h.captured⟩
    obtain ⟨hfrom', hto'⟩ := hrules _ (List.mem_of_getLast? h.last) hparents
    rw [hfrom', hto', hfrom, hto]
    exact ⟨hparents, rfl, rfl⟩

end Criteria

namespace Analyzer

/-- What the templates of a rule see of what was found. -/
structure Sees (a : Analyzer) (r : Resolved) (scope : Scope) : Prop where
  gitInfo : ∃ now, dateField a.config.output.dateFormat a.now = .ok now ∧
    scope.gitInfo.entries = [("BranchName", r.resolution.branch),
      ("ShortBranchName", r.resolution.shortBranch), ("Path", r.resolution.path), ("Now", now),
      ("CommitCount", toString (r.resolution.visits.length - 1))]
  /-- The newest commit is the one that is checked out. -/
  head : ∃ v date, r.resolution.visits.head? = some v ∧
    dateField a.config.output.dateFormat v.commit.date = .ok date ∧
    scope.head.entries = [("Author", v.commit.author), ("Date", date), ("Sha", v.commit.sha),
      ("ShortSha", v.commit.shortSha), ("Message", v.commit.message),
      ("MessageShort", v.commit.summary)]
  source : ∃ date,
    dateField a.config.output.dateFormat r.resolution.source.visit.commit.date = .ok date ∧
    scope.versionSource.entries =
      [("Author", r.resolution.source.visit.commit.author), ("Date", date),
        ("Sha", r.resolution.source.visit.commit.sha),
        ("ShortSha", r.resolution.source.visit.commit.shortSha),
        ("Message", r.resolution.source.visit.commit.message),
        ("MessageShort", r.resolution.source.visit.commit.summary),
        ("Kind", r.resolution.source.kind.text), ("TagName", r.resolution.source.tagName),
        ("TagMessage", r.resolution.source.tagMessage)]
  parameters : scope.parameters = r.parameters
  settings : scope.args = a.arguments ∧ scope.process = a.process ∧ scope.now = a.now

theorem sees_of_scope {a : Analyzer} {r : Resolved} {scope : Scope}
    (hvisits : r.resolution.visits ≠ []) (hscope : a.scope r = .ok scope) : a.Sees r scope := by
  rw [Analyzer.scope] at hscope
  obtain ⟨now, hnow, hscope⟩ := bind_eq_ok_iff.mp hscope
  obtain ⟨head, hhead, hscope⟩ := bind_eq_ok_iff.mp hscope
  obtain ⟨source, hsource, hscope⟩ := bind_eq_ok_iff.mp hscope
  obtain rfl := Except.ok.inj hscope
  obtain ⟨v, rest, hv⟩ := List.exists_cons_of_ne_nil hvisits
  rw [headFields, hv] at hhead
  obtain ⟨headDate, hheadDate, hhead⟩ := bind_eq_ok_iff.mp hhead
  obtain ⟨sourceDate, hsourceDate, hsource⟩ := bind_eq_ok_iff.mp hsource
  obtain rfl := Except.ok.inj hhead
  obtain rfl := Except.ok.inj hsource
  exact ⟨⟨now, hnow, rfl⟩, ⟨v, headDate, by rw [hv]; rfl, hheadDate, rfl⟩,
    ⟨sourceDate, hsourceDate, rfl⟩, rfl, rfl, rfl, rfl⟩

/-- What an analysis tells of a repository. -/
structure Consistent (a : Analyzer) (repo : Repository) (r : Analysis) : Prop where
  path : r.resolved.resolution.path = repo.path
  branch : repo.branch = .ok r.resolved.resolution.branch
  rule : a.config.branches.get? r.resolved.ruleName = some r.resolved.rule
  resolution : ∃ (k : Criteria) (index : TagIndex) (warnings : List Warning),
    BranchMatcher.ofRules a.config.branches = .ok k.matcher ∧
    k.settings = r.resolved.rule.source ∧ k.indexed repo = .ok (index, warnings) ∧
    k.Consistent index r.resolved.resolution
  /-- Merges are between branches of configured rules. -/
  configured : ∀ v ∈ r.resolved.resolution.visits, ∀ name,
    v.fromRule = some name ∨ v.toRule = some name → name ∈ a.config.branches.keys
  /-- The source keeps what was captured; the replay starts from a copy. -/
  replayed : (Replay.ofVisits r.resolved.rule r.resolved.resolution.visits
    r.resolved.resolution.source.parameters).toExcept =
      .ok (r.resolved.parameters, r.resolved.bumps)
  bumps : r.resolved.bumps =
    (r.resolved.resolution.visits.dropLast.reverse.flatMap r.resolved.rule.actionsFor).length
  seen : ∃ scope renderer, a.Sees r.resolved scope ∧
    Output.Renderer.ofSettings a.config.output = .ok renderer ∧
    ((renderer.render r.resolved.rule.output scope).toRun a.diagnostic).outcome = .ok r.output

/-- What an analysis tells fits together: the commits with the source, the source
with what made it one, the parameters with the replay of exactly these commits, and
the outputs with what the templates saw. -/
theorem consistent_of_analyze {a : Analyzer} {repo : Repository} {r : Analysis}
    (hanalyze : (a.analyze repo).outcome = .ok r) : a.Consistent repo r := by
  obtain ⟨resolved, hresolve, hrender⟩ := Run.outcome_bind_eq_ok_iff.mp hanalyze
  rw [render, Run.outcome_bind_eq_ok_iff] at hrender
  obtain ⟨scope, hscope, hrender⟩ := hrender
  obtain ⟨renderer, hrenderer, hrender⟩ := Run.outcome_bind_eq_ok_iff.mp hrender
  obtain ⟨output, houtput, hrender⟩ := Run.outcome_bind_eq_ok_iff.mp hrender
  obtain rfl := Except.ok.inj hrender
  obtain ⟨branch, hbranch, -⟩ := Run.outcome_bind_eq_ok_iff.mp hresolve
  obtain ⟨k, hselects, hfound, hreplay⟩ := exists_selects_of_resolve hbranch hresolve
  obtain ⟨hpath, rfl, index, warnings, walk, i, c, hindexed, -, hfinds⟩ :=
    Criteria.exists_finds_of_resolveSource hfound
  have hconsistent := hfinds.consistent hindexed
  have hvisits : resolved.resolution.visits ≠ [] := fun hnil => by
    simpa [hnil] using hconsistent.last
  have hrules := BranchMatcher.rules_of_ofRules hselects.matcher_read
  refine ⟨hpath, hbranch, ?rule, ⟨k, index, warnings, hselects.matcher_read, hselects.settings,
    hindexed, hconsistent⟩, fun v hv name hname => ?configured, hreplay, ?bumps,
    scope, renderer, sees_of_scope hvisits hscope, hrenderer, houtput⟩
  case rule =>
    rw [OrderedMap.get?_eq_some_iff, ← hrules]
    exact BranchMatcher.mem_of_resolve hselects.rule_found
  case configured =>
    have hmerge : 1 < v.commit.parents := by
      by_contra hparents
      obtain ⟨hfrom, hto⟩ := hconsistent.plain v hv (Nat.not_lt.mp hparents)
      simp [hfrom, hto] at hname
    obtain ⟨hfrom, hto⟩ := hconsistent.merge v hv hmerge
    rw [hfrom, hto] at hname
    exact hname.elim (BranchMatcher.mem_keys_of_classify hselects.matcher_read)
      (BranchMatcher.mem_keys_of_classify hselects.matcher_read)
  case bumps =>
    obtain ⟨hfailure, -, hbumps⟩ := Replay.toExcept_eq_ok_iff.mp hreplay
    rw [← hbumps]
    exact Replay.applied_ofActions hfailure

/-- A merge that is passed over on the way to a tagged commit. -/
theorem consistent_of_analyze_merge :
    let rule : BranchRule :=
      { regex := "m"
        source := { tagMatch := { pattern := "v" }, mergeMatch := { endsPattern := "x" } }
        onMerge := .ofList [(fallbackRule, .ofList [("patch", "+1")])]
        output := .ofList [("Version", "<Match:patch>-<GitInfo:CommitCount>")] }
    let a : Analyzer := { config := { branches := .ofList [("trunk", rule)] } }
    let s : Script := Script.merge (Script.commit { tags := [⟨"v1", false, "", "a"⟩] } "a" "one")
      "b" "'m' is merged"
    ∃ r, (a.analyze s.toRepository).outcome = .ok r ∧ a.Consistent s.toRepository r ∧
      r.output.entries = [("Version", "1-1")] := by
  intro rule a s
  have hrun : ((a.analyze s.toRepository).outcome.toOption.any fun r =>
      r.output.entries = [("Version", "1-1")]) = true := by
    decide +kernel
  obtain ⟨r, hr, houtput⟩ := exists_ok_of_any hrun
  exact ⟨r, hr, consistent_of_analyze hr, of_decide_eq_true houtput⟩

end Analyzer

end VersionTrail
