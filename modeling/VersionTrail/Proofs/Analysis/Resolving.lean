/-
# The first part of an analysis

The rule of a branch and the criteria for its version source come from the
configuration alone. With them, the part of an analysis that works on the
repository is a search for the source and a replay of the commits above it.
-/
import VersionTrail.Analysis
import VersionTrail.Proofs.Source.Reaching

namespace VersionTrail.Analyzer

open VersionTrail.History (Script)

/-- The rule of a branch by a configuration, and the criteria for its source. -/
structure Selects (a : Analyzer) (branch ruleName : String) (rule : BranchRule) (k : Criteria) :
    Prop where
  matcher_read : BranchMatcher.ofRules a.config.branches = .ok k.matcher
  rule_found : k.matcher.resolve branch = .ok (ruleName, rule)
  settings : k.settings = rule.source

variable {a : Analyzer} {branch ruleName : String} {rule : BranchRule} {k : Criteria}
variable {repo : Repository}

theorem Selects.resolve_eq (h : a.Selects branch ruleName rule k)
    (hbranch : repo.branch = .ok branch) :
    a.resolve repo = (resolveSource k.settings k.matcher repo branch >>= fun r =>
      (liftM (Replay.ofVisits rule r.visits r.source.parameters).toExcept : Run _) >>= fun done =>
        pure ⟨ruleName, rule, r, done.1, done.2⟩) := by
  simp [resolve, hbranch, h.matcher_read, h.rule_found, h.settings]

/-- What is left to do when the source has been found is the replay. -/
theorem Selects.outcome_resolve (h : a.Selects branch ruleName rule k)
    (hbranch : repo.branch = .ok branch) {r : Resolution}
    (hfound : (resolveSource k.settings k.matcher repo branch).outcome = .ok r) :
    (a.resolve repo).outcome =
      (Replay.ofVisits rule r.visits r.source.parameters).toExcept.map fun (ps, n) =>
        ⟨ruleName, rule, r, ps, n⟩ := by
  rw [h.resolve_eq hbranch, Run.bind_of_ok hfound]
  cases (Replay.ofVisits rule r.visits r.source.parameters).toExcept <;> rfl

theorem Selects.outcome_resolve_of_error (h : a.Selects branch ruleName rule k)
    (hbranch : repo.branch = .ok branch) {f : Failure}
    (hfailure : (resolveSource k.settings k.matcher repo branch).outcome = .error f) :
    (a.resolve repo).outcome = .error f := by
  rw [h.resolve_eq hbranch, Run.bind_of_error hfailure]

/-- An analysis that has worked on the repository has found a rule, a source and
the parameters behind the replay. -/
theorem exists_selects_of_resolve (hbranch : repo.branch = .ok branch) {old : Resolved}
    (hold : (a.resolve repo).outcome = .ok old) :
    ∃ k, a.Selects branch old.ruleName old.rule k ∧
      (resolveSource k.settings k.matcher repo branch).outcome = .ok old.resolution ∧
      (Replay.ofVisits old.rule old.resolution.visits old.resolution.source.parameters).toExcept =
        .ok (old.parameters, old.bumps) := by
  rw [resolve, Run.liftM_bind_of_ok hbranch, Run.outcome_bind_eq_ok_iff] at hold
  obtain ⟨matcher, hmatcher, hold⟩ := hold
  obtain ⟨⟨ruleName, rule⟩, hrule, hold⟩ := Run.outcome_bind_eq_ok_iff.mp hold
  obtain ⟨r, hfound, hold⟩ := Run.outcome_bind_eq_ok_iff.mp hold
  obtain ⟨⟨ps, n⟩, hreplay, hold⟩ := Run.outcome_bind_eq_ok_iff.mp hold
  obtain rfl := Except.ok.inj hold
  obtain ⟨k, hsettings, rfl⟩ := Criteria.exists_criteria_of_resolveSource hfound
  refine ⟨k, ⟨hmatcher, hrule, hsettings⟩, ?_, hreplay⟩
  rw [hsettings]
  exact hfound

/-- On a scripted history, the search has reached that source. -/
theorem exists_reaches_of_resolve {s : Script} {old : Resolved}
    (hold : (a.resolve s.toRepository).outcome = .ok old) :
    ∃ k cs d rest, a.Selects s.branch old.ruleName old.rule k ∧
      k.scriptWalk s = cs.map .ok ++ .ok d :: rest ∧
      k.Reaches (k.tagIndex s.tags) cs d old.resolution.source ∧
      old.resolution =
        ⟨old.resolution.source, s.path, s.branch,
          cs.map k.merges.visit ++ [old.resolution.source.visit]⟩ ∧
      (Replay.ofVisits old.rule old.resolution.visits old.resolution.source.parameters).toExcept =
        .ok (old.parameters, old.bumps) := by
  obtain ⟨k, hselects, hfound, hreplay⟩ := exists_selects_of_resolve rfl hold
  obtain ⟨cs, d, rest, hwalk, hreaches, hresolution⟩ :=
    Criteria.exists_reaches_of_resolveSource hfound
  exact ⟨k, cs, d, rest, hselects, hwalk, hreaches, hresolution, hreplay⟩

end VersionTrail.Analyzer
