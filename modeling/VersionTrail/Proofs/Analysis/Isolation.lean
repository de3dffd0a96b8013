/-
# Rules of other branches

An analysis reads all of the rule that its branch has, but of the other rules only
the names and the patterns for branches: with them it chooses its own rule and tells
the branches of a merge. So two configurations that differ in nothing else give the
same analysis, with the same warnings or the same failure, whatever the other rules
say and whether or not it can be read.

The matcher is handed on with all rules in it. That only its patterns count is
shown for each stage that it is handed to.
-/
import VersionTrail.Analysis
import VersionTrail.Proofs.Branch.Matcher

namespace VersionTrail

open VersionTrail.Text

/-- The name of a rule and its pattern for branches. -/
def BranchRule.label (e : String × BranchRule) : String × String :=
  (e.1, e.2.regex)

/-- The names of rules and their patterns for branches, in order. -/
def BranchRule.labels (rules : OrderedMap BranchRule) : List (String × String) :=
  rules.entries.map label

namespace BranchMatcher

variable {m m' : BranchMatcher} {branch : String}

theorem readPatterns_congr {es es' : List (String × BranchRule)}
    (h : es.map BranchRule.label = es'.map BranchRule.label) :
    readPatterns es = readPatterns es' := by
  induction es generalizing es' with
  | nil =>
      obtain rfl := List.map_eq_nil_iff.mp h.symm
      rfl
  | cons e es ih =>
      obtain ⟨e', rest, rfl, hfirst, hrest⟩ := List.map_eq_cons_iff.mp h.symm
      obtain ⟨name, rule⟩ := e
      obtain ⟨name', rule'⟩ := e'
      obtain ⟨rfl, hregex⟩ : name' = name ∧ rule'.regex = rule.regex := by
        simpa [BranchRule.label] using hfirst
      rw [readPatterns, readPatterns, hregex, ih hrest.symm]

/-- Rules with the same labels are read alike. -/
theorem ofRules_congr {rules rules' : OrderedMap BranchRule}
    (h : BranchRule.labels rules = BranchRule.labels rules') :
    ofRules rules' = (ofRules rules).map fun m => { m with rules := rules' } := by
  rw [ofRules, ofRules, readPatterns_congr h]
  cases readPatterns rules'.entries <;> rfl

theorem classify_congr (h : m.patterns = m'.patterns) (branch : String) :
    m.classify branch = m'.classify branch := by
  rw [classify, classify, h]

theorem map_get?_congr {rules rules' : OrderedMap BranchRule} (hkeys : rules.keys = rules'.keys)
    (name : String) :
    (rules.get? name).map (fun _ => name) = (rules'.get? name).map fun _ => name := by
  have hsome : (rules.get? name).isSome = (rules'.get? name).isSome := by
    rw [Bool.eq_iff_iff]
    simp [hkeys]
  cases hget : rules.get? name <;> cases hget' : rules'.get? name <;>
    simp_all

/-- Whether a branch has a rule, and the name of the rule, depends on patterns and
names only. -/
theorem map_fst_resolve_congr (hpatterns : m.patterns = m'.patterns)
    (hkeys : m.rules.keys = m'.rules.keys) (branch : String) :
    (m.resolve branch).map Prod.fst = (m'.resolve branch).map Prod.fst := by
  have hmatching : (m.matching? branch).map Prod.fst = (m'.matching? branch).map Prod.fst := by
    rw [matching?, matching?, classify_congr hpatterns]
    cases m'.classify branch with
    | none => rfl
    | some name => simpa [Function.comp_def] using map_get?_congr hkeys name
  have hfallback : m.fallback?.map Prod.fst = m'.fallback?.map Prod.fst := by
    simpa [fallback?, Function.comp_def] using map_get?_congr hkeys fallbackRule
  have hfound : ((m.matching? branch).or m.fallback?).map Prod.fst =
      ((m'.matching? branch).or m'.fallback?).map Prod.fst := by
    rw [Option.map_or, Option.map_or, hmatching, hfallback]
  rw [resolve, resolve, ← Option.or_eq_orElse, ← Option.or_eq_orElse]
  cases hone : (m.matching? branch).or m.fallback? <;>
    cases hother : (m'.matching? branch).or m'.fallback? <;>
      simp_all

end BranchMatcher

namespace MergeDetector

variable {m m' : BranchMatcher}

/-- The detector with another matcher. -/
def withMatcher (d : MergeDetector) (m : BranchMatcher) : MergeDetector :=
  { d with matcher := m }

theorem visit_withMatcher {d : MergeDetector} (h : d.matcher.patterns = m.patterns) (c : Commit) :
    (d.withMatcher m).visit c = d.visit c := by
  have hclassify := BranchMatcher.classify_congr h
  show (if c.isMerge then
      ({ commit := c, fromRule := m.classify (d.endsOf c.message).1,
         toRule := m.classify (d.endsOf c.message).2 } : Visit)
    else { commit := c }) = _
  rw [visit, ← hclassify, ← hclassify]

/-- Settings give the same detector for each matcher, or fail alike. -/
theorem ofSettings_withMatcher (settings : SourceSettings) (m m' : BranchMatcher) :
    ofSettings settings m' = (ofSettings settings m).map fun d => d.withMatcher m' := by
  rw [ofSettings, ofSettings]
  cases PatternUse.tagMatch.compile settings.tagMatch.pattern with
  | error f => rfl
  | ok tagPattern =>
      cases PatternUse.mergeEnds.compile settings.mergeMatch.endsPattern with
      | error f => rfl
      | ok ends =>
          cases hroutes : readRoutes tagPattern settings.mergeMatch.routes with
          | error f => simp [hroutes]
          | ok routes => simp [hroutes, withMatcher]

theorem matcher_of_ofSettings {settings : SourceSettings} {m : BranchMatcher} {d : MergeDetector}
    (hread : ofSettings settings m = .ok d) : d.matcher = m := by
  have hsame := ofSettings_withMatcher settings m m
  rw [hread] at hsame
  exact congrArg matcher (Except.ok.inj hsame)

end MergeDetector

namespace SourceDetector

theorem search_withMatcher {d : MergeDetector} {m : BranchMatcher}
    (h : d.matcher.patterns = m.patterns) (order : List SourceKind) (tags : TagIndex)
    (walk : List (Except Failure Commit)) :
    (SourceDetector.mk order tags (d.withMatcher m)).search walk =
      (SourceDetector.mk order tags d).search walk := by
  induction walk with
  | nil => rfl
  | cons entry rest ih =>
      cases entry with
      | error f => rfl
      | ok c =>
          have hevidence : ∀ v, (SourceDetector.mk order tags (d.withMatcher m)).firstEvidence? v =
              (SourceDetector.mk order tags d).firstEvidence? v := fun _ => rfl
          have hvisit := MergeDetector.visit_withMatcher h c
          simp only [search, hvisit, hevidence, ih]

end SourceDetector

/-- The search for a source reads no more of the rules than the patterns. -/
theorem resolveSource_congr {m m' : BranchMatcher} (h : m.patterns = m'.patterns)
    (settings : SourceSettings) (repo : Repository) (branch : String) :
    resolveSource settings m' repo branch = resolveSource settings m repo branch := by
  have hother := MergeDetector.ofSettings_withMatcher settings m m'
  rw [resolveSource, resolveSource]
  cases hmerges : MergeDetector.ofSettings settings m with
  | error f =>
      rw [hmerges] at hother
      simp [hother]
  | ok merges =>
      rw [hmerges] at hother
      rw [← MergeDetector.matcher_of_ofSettings hmerges] at h
      simp [hother, SourceDetector.search_withMatcher h]

/-- The rule that a branch has by a configuration, with its name. -/
def Config.ruleOf (c : Config) (branch : String) : Except Failure (String × BranchRule) :=
  BranchMatcher.ofRules c.branches >>= fun m => m.resolve branch

/-- Whether two configurations differ in rules of other branches only, and there in
neither the names nor the patterns for branches. -/
structure Config.AlikeFor (repo : Repository) (c c' : Config) : Prop where
  output : c.output = c'.output
  labels : BranchRule.labels c.branches = BranchRule.labels c'.branches
  /-- The rule of the present branch is the same. -/
  selected : ∀ branch found found', repo.branch = .ok branch → c.ruleOf branch = .ok found →
    c'.ruleOf branch = .ok found' → found.2 = found'.2

theorem BranchRule.keys_eq_of_labels {rules rules' : OrderedMap BranchRule}
    (h : labels rules = labels rules') : rules.keys = rules'.keys := by
  have hnames := congrArg (List.map Prod.fst) h
  rwa [labels, labels, List.map_map, List.map_map] at hnames

/-- The branch has the same rule by both configurations, or none by either. -/
theorem Config.AlikeFor.resolve_eq {repo : Repository} {c c' : Config}
    (h : Config.AlikeFor repo c c') {branch : String} (hbranch : repo.branch = .ok branch)
    {m : BranchMatcher} (hread : BranchMatcher.ofRules c.branches = .ok m) :
    BranchMatcher.resolve { m with rules := c'.branches } branch = m.resolve branch := by
  have hkeys : m.rules.keys = c'.branches.keys := by
    rw [BranchMatcher.rules_of_ofRules hread, BranchRule.keys_eq_of_labels h.labels]
  have hread' : BranchMatcher.ofRules c'.branches = .ok { m with rules := c'.branches } := by
    rw [BranchMatcher.ofRules_congr h.labels, hread]
    rfl
  refine (eq_of_map_fst_eq (BranchMatcher.map_fst_resolve_congr (by rfl) hkeys branch) ?_).symm
  intro found found' hfound hfound'
  exact h.selected branch found found' hbranch (bind_eq_ok_iff.mpr ⟨m, hread, hfound⟩)
    (bind_eq_ok_iff.mpr ⟨_, hread', hfound'⟩)

namespace Analyzer

variable {a : Analyzer} {config : Config} {repo : Repository}

theorem resolve_congr (h : Config.AlikeFor repo a.config config) :
    ({ a with config } : Analyzer).resolve repo = a.resolve repo := by
  have hother := BranchMatcher.ofRules_congr h.labels
  rw [resolve, resolve]
  cases hbranch : repo.branch with
  | error f => rfl
  | ok branch =>
      cases hread : BranchMatcher.ofRules a.config.branches with
      | error f =>
          rw [hread] at hother
          simp [hother]
      | ok m =>
          rw [hread] at hother
          have hsource : ∀ settings, resolveSource settings { m with rules := config.branches }
              repo branch = resolveSource settings m repo branch :=
            fun settings => resolveSource_congr (by rfl) settings repo branch
          simp [hother, h.resolve_eq hbranch hread, hsource]

theorem render_congr (houtput : a.config.output = config.output) (r : Resolved) :
    ({ a with config } : Analyzer).render r = a.render r := by
  simp only [render, scope, houtput]

/-- What a configuration says of other branches, beyond the names of their rules and
the patterns for branches, has no part in an analysis. -/
theorem analyze_isolated (h : Config.AlikeFor repo a.config config) :
    ({ a with config } : Analyzer).analyze repo = a.analyze repo := by
  rw [analyze, analyze, resolve_congr h]
  simp only [render_congr h.output]

/-- The rule of another branch has a pattern, an action and a template that cannot be
read. Its configuration does not pass the check, and an analysis of the main branch
is the same with it. -/
theorem analyze_isolated_unreadable :
    let source : SourceSettings :=
      { tagMatch := { pattern := "v" }, mergeMatch := { endsPattern := "x" } }
    let main : BranchRule :=
      { regex := "^main$"
        source
        onCommit := .ofList [("n", "+1")]
        output := .ofList [("Version", "<Match:n>")] }
    let other : BranchRule := { regex := "^other$", source }
    let broken : BranchRule :=
      { regex := "^other$"
        source := { source with tagMatch := { pattern := "(" } }
        onCommit := .ofList [("n", "?")]
        output := .ofList [("Version", "$If(")] }
    let config : Config :=
      { branches := .ofList [("main", main), ("other", other), (fallbackRule, { source })] }
    let config' : Config :=
      { branches := .ofList [("main", main), ("other", broken), (fallbackRule, { source })] }
    let repo : Repository :=
      ⟨"/", .ok "main", .ok [⟨"v1", false, "", "a"⟩], fun _ =>
        .ok [.ok ⟨"b", "", "", "", default, 1⟩, .ok ⟨"a", "", "", "", default, 1⟩]⟩
    config.AlikeFor repo config' ∧ config.validate.isOk = true ∧ config'.validate.isOk = false ∧
      (analyze { config := config' } repo).outcome.toOption.map (·.output) =
        some (.ofList [("Version", "1")]) := by
  intro source main other broken config config' repo
  have halike : config.AlikeFor repo config' := by
    refine ⟨rfl, rfl, ?_⟩
    rintro _ found found' ⟨⟩ hfound hfound'
    have hmain : config.ruleOf "main" = .ok ("main", main) := by decide +kernel
    have hmain' : config'.ruleOf "main" = .ok ("main", main) := by decide +kernel
    rw [← Except.ok.inj (hmain.symm.trans hfound), ← Except.ok.inj (hmain'.symm.trans hfound')]
  refine ⟨halike, by decide +kernel, by decide +kernel, ?_⟩
  rw [analyze_isolated (a := { config }) halike]
  decide +kernel

end Analyzer

end VersionTrail
