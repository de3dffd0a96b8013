/-
# Analyses with a checked configuration

Rules for cleaning that pass their check have a renderer. A renderer fails only
for a template: because it cannot be read, because it has no value, or because a
number was expected in it.

A configuration is checked for all that an analysis reads from it. With a
checked configuration and a repository that can be read, every stage that reads
patterns or actions succeeds, and no capture is made twice. What is left to fail
is the search for a source, numbers, templates, and a date that the configured
format cannot show.
-/
import VersionTrail.Analysis
import VersionTrail.History.Script
import VersionTrail.Proofs.Branch.Matcher
import VersionTrail.Proofs.Bump.Replay
import VersionTrail.Proofs.Config.Validation
import VersionTrail.Proofs.Output.Strictness
import VersionTrail.Proofs.Source.FirstQualifying

namespace VersionTrail.Output

open VersionTrail.Template (Scope)

/-- Whether a failure is one of templates or numbers. -/
def IsValueFailure (f : Failure) : Prop :=
  (∃ output template fault, f = .template output template fault) ∨ ∃ fault, f = .numeric fault

theorem isValueFailure_valueFailure (output template : String) (fault : Template.Fault) :
    IsValueFailure (valueFailure output template fault) := by
  rcases valueFailure_message output template fault with ⟨f, hf, -⟩ | ⟨f, hf, -⟩
  · exact Or.inl ⟨output, template, f, hf⟩
  · exact Or.inr ⟨f, hf⟩

theorem isValueFailure_of_evaluateText {strict : Bool} {output template : String} {s : Scope}
    {f : Failure} (hfailure : (evaluateText strict output template s).outcome = .error f) :
    IsValueFailure f := by
  unfold evaluateText at hfailure
  split at hfailure
  · obtain rfl := Except.error.inj hfailure
    exact Or.inl ⟨_, _, _, rfl⟩
  · rename_i nodes hnodes
    cases strict with
    | false => contradiction
    | true =>
        cases hvalue : Template.valueOf s nodes with
        | ok value =>
            rw [evaluate, if_pos rfl, hvalue] at hfailure
            contradiction
        | error fault =>
            rw [evaluate, if_pos rfl, hvalue] at hfailure
            obtain rfl := Except.error.inj hfailure
            exact isValueFailure_valueFailure output template fault

namespace Renderer

/-- Rules for cleaning that pass have a renderer. -/
theorem exists_ofSettings {settings : OutputSettings}
    (hcheck : ∀ rule ∈ settings.clean, rule.check = .ok ()) : ∃ r, ofSettings settings = .ok r := by
  have hall : ∀ rules : List CleanRule, (∀ rule ∈ rules, rule.check = .ok ()) →
      ∃ cleaners, rules.mapM Cleaner.ofRule = .ok cleaners := by
    intro rules hrules
    induction rules with
    | nil => exact ⟨[], rfl⟩
    | cons rule rules ih =>
        obtain ⟨⟨select, hselect⟩, ⟨invalid, hinvalid⟩⟩ :=
          CleanRule.check_eq_ok_iff.mp (hrules rule List.mem_cons_self)
        have hcleaner : Cleaner.ofRule rule = .ok ⟨select, invalid, rule.replacement⟩ := by
          simp [Cleaner.ofRule, hselect, hinvalid]
        obtain ⟨cleaners, hcleaners⟩ :=
          ih fun later hlater => hrules later (List.mem_cons_of_mem _ hlater)
        refine ⟨⟨select, invalid, rule.replacement⟩ :: cleaners, ?_⟩
        simp [hcleaner, hcleaners, pure, Except.pure]
  obtain ⟨cleaners, hcleaners⟩ := hall settings.clean hcheck
  exact ⟨⟨settings.strict, cleaners⟩, by simp [ofSettings, hcleaners]⟩

/-- A rendering fails for one of its templates. -/
theorem isValueFailure_of_renderFrom {r : Renderer} {s : Scope} {done : OrderedMap String}
    {templates : List (String × String)} {f : Failure}
    (hfailure : (r.renderFrom s done templates).failure = some f) : IsValueFailure f := by
  induction templates generalizing done with
  | nil => contradiction
  | cons e rest ih =>
      obtain ⟨output, template⟩ := e
      rw [renderFrom] at hfailure
      dsimp only at hfailure
      split at hfailure
      · rename_i g hg
        obtain rfl := Option.some.inj hfailure
        exact isValueFailure_of_evaluateText hg
      · exact ih hfailure

end Renderer

end VersionTrail.Output

namespace VersionTrail

open VersionTrail.Text
open VersionTrail.Calendar (Moment isValidFormat)
open VersionTrail.History (Script)

/-- A repository whose branch, tags and commits can all be read. -/
structure Repository.Readable (repo : Repository) (branch : String) : Prop where
  branch : repo.branch = .ok branch
  tags : ∃ tags, repo.tags = .ok tags
  walk : ∀ firstParentOnly, ∃ cs : List Commit, repo.walk firstParentOnly = .ok (cs.map .ok)

namespace Criteria

variable {k : Criteria} {repo : Repository} {branch : String}

theorem exists_indexed (hrepo : repo.Readable branch) :
    ∃ index warnings, k.indexed repo = .ok (index, warnings) := by
  obtain ⟨tags, htags⟩ := hrepo.tags
  unfold indexed
  split
  · exact ⟨_, _, by rw [htags]; rfl⟩
  · exact ⟨_, _, rfl⟩

theorem exists_walked (hrepo : repo.Readable branch) :
    ∃ cs : List Commit, k.walked repo = .ok (cs.map .ok) := by
  obtain ⟨cs, hcs⟩ := hrepo.walk k.settings.firstParentOnly
  rw [walked, hcs]
  show ∃ cs' : List Commit, Except.ok (k.bounded _) = _
  unfold bounded
  split
  · split
    · exact ⟨cs.take _, by rw [List.map_take]⟩
    · exact ⟨cs, rfl⟩
  · exact ⟨cs, rfl⟩

/-- A search among commits that can all be read does not fail. -/
theorem exists_search {index : TagIndex} (hnodup : index.NamesDistinct) (cs : List Commit) :
    ∃ found, (k.detector index).search (cs.map .ok) = .ok found := by
  by_cases hstops : ∃ entry ∈ cs.map .ok, k.Stops index entry
  · obtain ⟨i, entry, hfirst⟩ := exists_firstStop hstops
    obtain ⟨c, -, rfl⟩ := List.mem_map.mp (List.mem_of_getElem? hfirst.entry_at)
    obtain ⟨visits, source, -, hsearch⟩ := exists_source_of_firstStop hnodup hfirst "" ""
    exact ⟨_, hsearch _ rfl⟩
  · obtain ⟨cs', hcs', hnone⟩ := exists_commits_of_not_stops
      fun entry hmem hstop => hstops ⟨entry, hmem, hstop⟩
    refine ⟨none, ?_⟩
    rw [hcs', ← List.append_nil (cs'.map _), search_append hnone]
    rfl

/-- In a readable repository, the search for a source fails only by finding
none. -/
theorem sourceNotFound_of_resolveSource (hrepo : repo.Readable branch) {f : Failure}
    (hfailure : (resolveSource k.settings k.matcher repo branch).outcome = .error f) :
    ∃ examined, f = .sourceNotFound branch examined := by
  obtain ⟨index, warnings, hindexed⟩ := @exists_indexed k repo branch hrepo
  obtain ⟨cs, hwalked⟩ := @exists_walked k repo branch hrepo
  obtain ⟨found, hfound⟩ := exists_search (fun _ _ => nodup_captures_of_indexed hindexed) cs
  rw [resolveSource_eq hindexed hwalked, hfound] at hfailure
  cases found with
  | none => exact ⟨_, (Except.error.inj hfailure).symm⟩
  | some found => contradiction

end Criteria

/-- A date that a valid format cannot show is the only fault of dates. -/
theorem inapplicable_of_dateField {format : String} (hformat : isValidFormat format = true)
    {m : Moment} {f : Failure} (hdate : dateField format m = .error f) :
    f = .config (.dateFormat (.inapplicable format m)) := by
  unfold dateField Moment.format at hdate
  unfold isValidFormat at hformat
  cases hitems : Calendar.formatItems? format with
  | none => simp [hitems] at hformat
  | some items =>
      rw [hitems] at hdate
      dsimp only at hdate
      split at hdate
      · exact (Except.error.inj hdate).symm
      · contradiction

theorem inapplicable_of_commitFields {format : String} (hformat : isValidFormat format = true)
    {c : Commit} {f : Failure} (hfields : commitFields format c = .error f) :
    ∃ m, f = .config (.dateFormat (.inapplicable format m)) := by
  rw [commitFields, bind_eq_error_iff] at hfields
  rcases hfields with hdate | ⟨date, -, hrest⟩
  · exact ⟨c.date, inapplicable_of_dateField hformat hdate⟩
  · contradiction

theorem Analyzer.inapplicable_of_scope {a : Analyzer}
    (hformat : isValidFormat a.config.output.dateFormat = true) {r : Resolved} {f : Failure}
    (hscope : a.scope r = .error f) :
    ∃ m, f = .config (.dateFormat (.inapplicable a.config.output.dateFormat m)) := by
  rw [Analyzer.scope, bind_eq_error_iff] at hscope
  rcases hscope with hnow | ⟨now, -, hscope⟩
  · exact ⟨a.now, inapplicable_of_dateField hformat hnow⟩
  rw [bind_eq_error_iff] at hscope
  rcases hscope with hhead | ⟨head, -, hscope⟩
  · unfold headFields at hhead
    split at hhead
    · exact inapplicable_of_commitFields hformat hhead
    · contradiction
  rw [bind_eq_error_iff] at hscope
  rcases hscope with hsource | ⟨source, -, hscope⟩
  · exact inapplicable_of_commitFields hformat hsource
  · contradiction

/-- What an analysis reads from its configuration, on a branch of a repository:
all of it can be read. -/
structure Prepared (config : Config) (repo : Repository) (branch ruleName : String)
    (rule : BranchRule) (matcher : BranchMatcher) (merges : MergeDetector) (index : TagIndex)
    (renderer : Output.Renderer) : Prop where
  matcher_read : BranchMatcher.ofRules config.branches = .ok matcher
  rule_found : matcher.resolve branch = .ok (ruleName, rule)
  merges_read : MergeDetector.ofSettings rule.source matcher = .ok merges
  tags_indexed : (tagIndexOf rule.source repo).outcome = .ok index
  /-- Whatever makes a commit the source, no parameter is captured twice. -/
  captured_once : ∀ c e,
    (SourceDetector.mk rule.source.order index merges).firstEvidence? (merges.visit c) = some e →
    ∃ ps, Parameters.ofCaptures e.captures = .ok ps
  /-- Every action that some commit triggers can be read. -/
  actions_read : ∀ v, ∀ e ∈ rule.actionsFor v, ∃ action, Action.read e.2 = .ok action
  renderer_read : Output.Renderer.ofSettings config.output = .ok renderer

variable {repo : Repository} {branch : String}

/-- A checked configuration can be read on every branch of a readable
repository. -/
theorem exists_prepared {config : Config} (hvalid : config.validate = .ok ())
    (hrepo : repo.Readable branch) :
    ∃ (ruleName : String) (rule : BranchRule) (k : Criteria) (index : TagIndex)
      (renderer : Output.Renderer), k.settings = rule.source ∧
      Prepared config repo branch ruleName rule k.matcher k.merges index renderer := by
  obtain ⟨hfallback, -, hclean, hrules⟩ := Config.validate_eq_ok_iff.mp hvalid
  obtain ⟨patterns, hpatterns⟩ := BranchMatcher.exists_readPatterns
    fun e he => (BranchRule.check_eq_ok_iff.mp (hrules e he)).1
  obtain ⟨⟨ruleName, rule⟩, hfound⟩ :=
    @BranchMatcher.exists_resolve ⟨config.branches, patterns⟩ hfallback branch
  obtain ⟨-, hsource, hcommit, hmerge⟩ :=
    BranchRule.check_eq_ok_iff.mp (hrules _ (BranchMatcher.mem_of_resolve hfound))
  obtain ⟨k, hsettings, hmatcher⟩ :=
    SourceSettings.exists_criteria_of_check hsource ⟨config.branches, patterns⟩
  obtain ⟨index, warnings, hindexed⟩ := @Criteria.exists_indexed k repo branch hrepo
  obtain ⟨renderer, hrenderer⟩ := Output.Renderer.exists_ofSettings hclean
  refine ⟨ruleName, rule, k, index, renderer, hsettings, ?_⟩
  rw [← hmatcher] at hfound
  exact
    { matcher_read := by simp [BranchMatcher.ofRules, hpatterns, hmatcher]
      rule_found := hfound
      merges_read := hsettings ▸ k.ofSettings_eq_merges
      tags_indexed := by rw [← hsettings, Criteria.tagIndexOf_eq, hindexed]
      captured_once := fun c e hfirst => by
        rw [← hsettings] at hfirst
        obtain ⟨tried, kind, untried, -, hevidence, -, -⟩ :=
          Criteria.first_kind_of_firstEvidence? hfirst
        obtain ⟨-, -, ps, hps, -⟩ := Criteria.exists_parameters_of_evidence?
          (fun _ _ => Criteria.nodup_captures_of_indexed hindexed) hevidence
        exact ⟨ps, hps⟩
      actions_read := fun v e he => by
        rcases BranchRule.mem_of_mem_actionsFor he with hplain | ⟨actions, hactions, hmem⟩
        · exact hcommit e.2 hplain
        · exact hmerge actions hactions e.2 hmem
      renderer_read := hrenderer }

/-- With a checked configuration and a readable repository, all that an analysis
reads from the configuration can be read. The analysis then fails only because
there is no source, for a number, for a template, or for a date that the
configured format cannot show. -/
theorem analyze_of_validate {a : Analyzer} (hvalid : a.config.validate = .ok ())
    (hrepo : repo.Readable branch) :
    (∃ ruleName rule matcher merges index renderer,
      Prepared a.config repo branch ruleName rule matcher merges index renderer) ∧
    ∀ f, (a.analyze repo).outcome = .error f →
      (∃ examined, f = .sourceNotFound branch examined) ∨
      (∃ fault, f = .numeric fault) ∨
      (∃ output template fault, f = .template output template fault) ∨
      ∃ m, f = .config (.dateFormat (.inapplicable a.config.output.dateFormat m)) := by
  have hformat := (Config.validate_eq_ok_iff.mp hvalid).2.1
  obtain ⟨ruleName, rule, k, index, renderer, hsettings, hprepared⟩ :=
    exists_prepared hvalid hrepo
  refine ⟨⟨ruleName, rule, k.matcher, k.merges, index, renderer, hprepared⟩, fun f hfailure => ?_⟩
  rw [Analyzer.analyze, Run.outcome_bind_eq_error_iff] at hfailure
  rcases hfailure with hresolve | ⟨resolved, -, hrender⟩
  · rw [Analyzer.resolve, Run.liftM_bind_of_ok hrepo.branch,
      Run.liftM_bind_of_ok hprepared.matcher_read, Run.liftM_bind_of_ok hprepared.rule_found,
      Run.outcome_bind_eq_error_iff] at hresolve
    rcases hresolve with hsource | ⟨resolution, -, hreplay⟩
    · rw [← hsettings] at hsource
      exact Or.inl (Criteria.sourceNotFound_of_resolveSource hrepo hsource)
    · rw [Run.outcome_bind_eq_error_iff, Run.outcome_liftM] at hreplay
      rcases hreplay with hactions | ⟨done, -, hdone⟩
      · exact Or.inr (Or.inl
          (Replay.numeric_of_toExcept_ofVisits hprepared.actions_read hactions))
      · contradiction
  · rw [Analyzer.render, Run.outcome_bind_eq_error_iff, Run.outcome_liftM] at hrender
    rcases hrender with hscope | ⟨scope, -, hrender⟩
    · exact Or.inr (Or.inr (Or.inr (Analyzer.inapplicable_of_scope hformat hscope)))
    · rw [Run.liftM_bind_of_ok hprepared.renderer_read, Run.outcome_bind_eq_error_iff,
        Output.Rendering.outcome_toRun_eq_error_iff] at hrender
      rcases hrender with houtput | ⟨output, -, hdone⟩
      · rcases Output.Renderer.isValueFailure_of_renderFrom houtput with htemplate | hnumeric
        · exact Or.inr (Or.inr (Or.inl htemplate))
        · exact Or.inr (Or.inl hnumeric)
      · contradiction

/-- A rule with a route, actions for commits and for merges, a template and a rule
for cleaning. The message of the merge tells no names, so both of its branches are
of the rule whose pattern matches a blank name; the route does not fit, and the
tag two commits below is the source. -/
theorem analyze_of_validate_merge :
    let rule : BranchRule :=
      { regex := "m*"
        source :=
          { order := [.merge, .tag]
            tagMatch := { pattern := "v(?<_>[0-9])" }
            mergeMatch :=
              { endsPattern := "into m"
                routes := [⟨fallbackRule, fallbackRule, some "release ([0-9])"⟩] } }
        onCommit := .ofList [("_", "+1")]
        onMerge := .ofList [(fallbackRule, .ofList [("_", "+5"), ("merges", "+1")])]
        output := .ofList [("Version", "$Add(<Match:_>,1) <Match:merges>")] }
    let config : Config :=
      { output := { clean := [⟨"V", " ", "_"⟩] }, branches := .ofList [(fallbackRule, rule)] }
    let s : Script := ((Script.commit { tags := [⟨"v1", false, "", "a"⟩] } "a" "one").commit
      "b" "two").merge "c" "Merge 't' into m"
    config.validate = .ok () ∧ s.toRepository.Readable "main" ∧
      (∃ ruleName rule matcher merges index renderer,
        Prepared config s.toRepository "main" ruleName rule matcher merges index renderer) ∧
      (∀ f, (Analyzer.analyze { config } s.toRepository).outcome = .error f →
        (∃ examined, f = .sourceNotFound "main" examined) ∨
        (∃ fault, f = .numeric fault) ∨
        (∃ output template fault, f = .template output template fault) ∨
        ∃ m, f = .config (.dateFormat (.inapplicable config.output.dateFormat m))) ∧
      ∃ r, (Analyzer.analyze { config } s.toRepository).outcome = .ok r ∧
        r.output.entries = [("Version", "8_1")] := by
  intro rule config s
  let a : Analyzer := { config }
  obtain ⟨⟨⟩, hvalid⟩ := exists_ok_of_isOk (by decide +kernel : config.validate.isOk = true)
  have hrepo : s.toRepository.Readable "main" := by
    refine ⟨rfl, ⟨_, rfl⟩, fun firstParentOnly => ?_⟩
    cases firstParentOnly <;> exact ⟨[_, _, _], rfl⟩
  have hrun : ((a.analyze s.toRepository).outcome.toOption.any fun r =>
      r.output.entries = [("Version", "8_1")]) = true := by
    decide +kernel
  obtain ⟨r, hr, houtput⟩ := exists_ok_of_any hrun
  obtain ⟨hprepared, hfailures⟩ := analyze_of_validate (a := a) hvalid hrepo
  exact ⟨hvalid, hrepo, hprepared, hfailures, r, hr, of_decide_eq_true houtput⟩

end VersionTrail
