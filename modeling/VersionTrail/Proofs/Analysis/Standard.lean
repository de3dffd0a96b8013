/-
# The default settings

With the default settings the version is that of the newest commit with a
version tag, and its last number counts the plain commits above. The parts of an
analysis are put together here: the pattern for tags takes the name of the tag
apart, the search ends at the tagged commit, the replay counts, and the only
template joins the three numbers again.
-/
import Mathlib.Data.List.Induction
import VersionTrail.Proofs.Analysis.Dates
import VersionTrail.Proofs.Analysis.Tagging
import VersionTrail.Proofs.Bump.Counting
import VersionTrail.Proofs.Output.Staging
import VersionTrail.Proofs.Pattern.VersionName

namespace VersionTrail

open VersionTrail.Text
open VersionTrail.History (Script)
open VersionTrail.Calendar (Moment)
open VersionTrail.Template (Scope)

/-- The default rule is the one of every branch, and its patterns can be read. -/
theorem Analyzer.exists_selects_of_standard {a : Analyzer} (hconfig : a.config = .standard)
    {p : Pattern} (hp : PatternUse.tagMatch.compile ({} : TagMatch).pattern = .ok p)
    (branch : String) :
    ∃ k, a.Selects branch fallbackRule defaultRule k ∧ k.tagPattern = p := by
  obtain ⟨ends, hends⟩ := Pattern.exists_compile_ends
  refine ⟨⟨defaultRule.source, ⟨Config.standard.branches, []⟩, p, ends, hp, hends,
    by simp [defaultRule]⟩, ⟨?_, rfl, rfl⟩, rfl⟩
  rw [hconfig]
  rfl

/-- Every date can be shown in the default format. -/
theorem exists_dateField (m : Moment) :
    ∃ text, dateField ({} : OutputSettings).dateFormat m = .ok text := by
  have hvalid : Calendar.isValidFormat ({} : OutputSettings).dateFormat = true := by
    rw [Calendar.isValidFormat, Calendar.formatItems?_rfc3339]
    rfl
  have hplain : ¬ Calendar.AsksForAnyOffset ({} : OutputSettings).dateFormat := by
    rw [← Calendar.anyOffset_mem_iff Calendar.formatItems?_rfc3339]
    decide
  obtain ⟨text, htext⟩ := (Calendar.format_of_isValidFormat hvalid m).1.mpr hplain
  exact ⟨text, dateField_eq_ok_iff.mpr htext⟩

theorem Analyzer.exists_scope {a : Analyzer} (hconfig : a.config = .standard) (r : Resolved) :
    ∃ s : Scope, a.scope r = .ok s ∧ s.parameters = r.parameters :=
  exists_scope_of_dates (fun m => hconfig ▸ exists_dateField m) r

/-- The default template joins the three numbers. -/
theorem Output.Renderer.stage_standard {s : Scope} {major minor patch : String}
    (hmajor : s.parameters.get? "major" = some major)
    (hminor : s.parameters.get? "minor" = some minor)
    (hpatch : s.parameters.get? "patch" = some patch) :
    Output.Renderer.stage ⟨true, []⟩ s ∅ "SemVer" "<Match:major>.<Match:minor>.<Match:patch>" =
      .ok (major ++ "." ++ minor ++ "." ++ patch) := by
  have hread : Template.read "<Match:major>.<Match:minor>.<Match:patch>" =
      .ok [.reference ⟨some "Match", "major"⟩, .plain ".", .reference ⟨some "Match", "minor"⟩,
        .plain ".", .reference ⟨some "Match", "patch"⟩] := by
    rfl
  have hvalue : ∀ key value, s.parameters.get? key = some value →
      Template.Reference.value { s with outputs := ∅ } ⟨some "Match", key⟩ = .ok value := by
    intro key value hget
    have hspace : Template.Space.ofName? "Match" = some .captured := by
      decide
    have hlookup : Scope.lookup? { s with outputs := ∅ } .captured key = some value := by
      show Template.findValue? s.parameters key = some value
      rw [Template.findValue?, hget]
      rfl
    rw [Template.Reference.value, Scope.resolve]
    dsimp only
    rw [hspace]
    dsimp only
    rw [hlookup]
    rfl
  refine stage_eq_ok_iff.mpr ⟨_, ?_, rfl⟩
  rw [evaluateText, hread]
  show Except.mapError _ (Template.valueOf { s with outputs := ∅ } _) = _
  simp only [Template.valueOf, Template.Node.value, hvalue _ _ hmajor, hvalue _ _ hminor,
    hvalue _ _ hpatch, bind, Except.bind]
  simp [String.append_assoc]

/-- Parameters with the three numbers are shown as a version. -/
theorem Analyzer.render_standard {a : Analyzer} (hconfig : a.config = .standard)
    {r : Resolved} (hrule : r.rule = defaultRule) {major minor patch : String}
    (hmajor : r.parameters.get? "major" = some major)
    (hminor : r.parameters.get? "minor" = some minor)
    (hpatch : r.parameters.get? "patch" = some patch) :
    (a.render r).outcome =
      .ok ⟨r, .ofList [("SemVer", major ++ "." ++ minor ++ "." ++ patch)]⟩ := by
  obtain ⟨s, hs, hparameters⟩ := exists_scope hconfig r
  rw [← hparameters] at hmajor hminor hpatch
  have hrenderer : Output.Renderer.ofSettings a.config.output = .ok ⟨true, []⟩ := by
    rw [hconfig]
    rfl
  have hstage := Output.Renderer.stage_standard hmajor hminor hpatch
  have hrendered : Output.Renderer.Renders ⟨true, []⟩ s ∅ defaultRule.output.entries
      (.ofList [("SemVer", major ++ "." ++ minor ++ "." ++ patch)]) :=
    Output.Renderer.renders_cons_iff.mpr ⟨_, hstage, Output.Renderer.renders_nil_iff.mpr rfl⟩
  rw [Analyzer.render, Run.liftM_bind_of_ok hs, Run.liftM_bind_of_ok hrenderer, hrule,
    Run.outcome_bind_eq_ok_iff]
  refine ⟨_, Output.Rendering.outcome_toRun_eq_ok_iff.mpr ⟨hrendered.complete, ?_⟩, rfl⟩
  have htemporary : Output.isTemporary "SemVer" = false := by
    decide
  rw [Output.Renderer.render, hrendered.outputs_eq]
  refine OrderedMap.ext_entries (List.filter_eq_self.mpr fun e he => ?_)
  obtain rfl := List.mem_singleton.mp he
  simp [htemporary]

/-- Whether a commit is the newest one, along first parents, with a tag that
matches a pattern, and the last such tag on it is `t`. -/
structure History.Script.NewestTag (s : Script) (p : Pattern) (newer : List Commit) (c : Commit)
    (t : Tag) : Prop where
  walk : ∃ rest, s.walk true = newer.map .ok ++ .ok c :: rest
  target : t.target = c.sha
  last : ∃ front back, s.tags = front ++ t :: back ∧
    ∀ u ∈ back, u.target = c.sha → p.isMatch u.name = false
  above : ∀ d ∈ newer, ∀ u ∈ s.tags, u.target = d.sha → p.isMatch u.name = false

namespace Criteria

variable {k : Criteria} {s : Script} {newer : List Commit} {c : Commit} {t : Tag}

/-- Tags that are not eligible, or on other commits, leave the candidate of a
commit. -/
theorem get?_tagIndex_append {sha : String} (tags : List Tag) {back : List Tag}
    (hback : ∀ u ∈ back, u.target = sha → ¬ k.Eligible u) :
    (k.tagIndex (tags ++ back)).get? sha = (k.tagIndex tags).get? sha := by
  induction back using List.reverseRecOn with
  | nil => rw [List.append_nil]
  | append_singleton back u ih =>
      have hu : ¬ k.Eligible u ∨ .tag ∉ k.settings.order ∨ sha ≠ u.target := by
        by_cases htarget : u.target = sha
        · exact Or.inl (hback u (by simp) htarget)
        · exact Or.inr (Or.inr (Ne.symm htarget))
      rw [← List.append_assoc, get?_tagIndex_concat_of_ne hu,
        ih fun v hv => hback v (List.mem_append_left [u] hv)]

theorem not_qualifies_of_untagged (horder : k.settings.order = [.tag])
    (hc : ∀ u ∈ s.tags, u.target = c.sha → ¬ k.Eligible u) (kind : SourceKind) :
    ¬ k.Qualifies (k.tagIndex s.tags) c kind := by
  rintro ⟨hkind, hqualifies⟩
  obtain rfl : kind = .tag := by
    rw [horder] at hkind
    exact List.mem_singleton.mp hkind
  have hnone := get?_tagIndex_append (k := k) [] hc
  have hempty : (k.tagIndex []).get? c.sha = none := by
    unfold tagIndex
    split <;> rfl
  rw [List.nil_append, hempty] at hnone
  exact OrderedMap.get?_eq_none_iff.mp hnone hqualifies

/-- Without other settings, every tag that matches is eligible. -/
theorem eligible_iff (hsettings : k.settings = defaultRule.source) (u : Tag) :
    k.Eligible u ↔ k.tagPattern.isMatch u.name = true := by
  rw [Eligible, hsettings]
  exact and_iff_right fun honly => absurd honly (by decide)

/-- The search ends at the newest commit with a tag that matches, and takes what
the last such tag on it captured. -/
theorem exists_reaches_of_newestTag (hsettings : k.settings = defaultRule.source)
    (h : s.NewestTag k.tagPattern newer c t) {groups : Pattern.Captures}
    (hgroups : k.tagPattern.captures? t.name = some groups) :
    ∃ source rest, k.scriptWalk s = newer.map .ok ++ .ok c :: rest ∧
      k.Reaches (k.tagIndex s.tags) newer c source ∧
      source.parameters.entries =
        k.tagPattern.groupNames.filterMap (TagScanner.capture? groups) := by
  obtain ⟨rest, hwalk⟩ := h.walk
  obtain ⟨front, back, htags, hback⟩ := h.last
  have horder : k.settings.order = [.tag] := by
    rw [hsettings]
    rfl
  have hmatch : k.tagPattern.isMatch t.name = true := by
    rw [Pattern.isMatch_eq_isSome_captures?, hgroups]
    rfl
  have hother : ∀ {u}, k.tagPattern.isMatch u.name = false → ¬ k.Eligible u := by
    intro u hu heligible
    rw [(eligible_iff hsettings u).mp heligible] at hu
    contradiction
  obtain ⟨groups', hgroups', hcandidate⟩ := exists_get?_tagIndex_concat
    ((eligible_iff hsettings t).mpr hmatch) (by simp [horder]) front
  obtain rfl := Option.some.inj (hgroups'.symm.trans hgroups)
  have hget : (k.tagIndex s.tags).get? c.sha =
      some ⟨t, k.tagPattern.groupNames.filterMap (TagScanner.capture? groups')⟩ := by
    rw [htags, List.append_cons, get?_tagIndex_append _ fun u hu htarget =>
      hother (hback u hu htarget), ← h.target, hcandidate]
  have hqualifies : k.Qualifies (k.tagIndex s.tags) c .tag :=
    ⟨by simp [horder], OrderedMap.mem_keys_of_get? hget⟩
  obtain ⟨source, hends, hvisit, ⟨-, -, -, hsource, -⟩, hcaptured⟩ := exists_source_of_qualifies
    (fun _ _ => k.nodup_captures_of_tagIndex s.tags) hqualifies
  refine ⟨source, rest, ?_, ⟨fun d hd => ?_, ⟨.tag, hqualifies⟩, hvisit, hends⟩, ?_⟩
  · rw [scriptWalk, hsettings, ← hwalk]
    rw [bounded, hsettings]
    rfl
  · exact not_qualifies_of_untagged horder fun u hu htarget =>
      hother (h.above d hd u hu htarget)
  · have hkind : source.kind = .tag := by
      have hmem := hsource.1
      rwa [horder, List.mem_singleton] at hmem
    rw [Captured, hkind] at hcaptured
    obtain ⟨candidate, hcandidate', -, hentries⟩ := hcaptured
    obtain rfl := Option.some.inj (hget.symm.trans hcandidate')
    exact hentries

end Criteria

namespace Analyzer

variable {a : Analyzer} {s : Script}

/-- What an analysis comes to where a version is the one of the newest tagged
commit, with a number of plain commits above it. -/
structure CountsFrom (a : Analyzer) (s : Script) (v : Version) (count : Nat) : Prop where
  /-- Without a plain commit, the numbers are shown as they are written. -/
  unchanged : count = 0 → ∃ r, (a.analyze s.toRepository).outcome = .ok r ∧
    r.output = .ofList [("SemVer", v.number)]
  /-- A sum of 64 bits takes the place of the last number. -/
  counted : 0 < count → Nat.ofDigitChars 10 v.patch.toList 0 + count ≤ 2 ^ 63 - 1 →
    ∃ r, (a.analyze s.toRepository).outcome = .ok r ∧
      r.output = .ofList [("SemVer", v.major ++ "." ++ v.minor ++ "." ++
        toString (Nat.ofDigitChars 10 v.patch.toList 0 + count))]
  /-- Any other sum is refused. -/
  refused : 0 < count → 2 ^ 63 - 1 < Nat.ofDigitChars 10 v.patch.toList 0 + count →
    ∃ fault, (a.analyze s.toRepository).outcome = .error (.numeric fault)

/-- With the default settings, the plain commits above the newest tagged commit
are counted from the version that its last tag names. -/
theorem countsFrom_of_standard (hconfig : a.config = .standard) {p : Pattern}
    (hp : PatternUse.tagMatch.compile ({} : TagMatch).pattern = .ok p) {newer : List Commit}
    {c : Commit} {t : Tag} (htag : s.NewestTag p newer c t) {v : Version}
    (hname : t.name = v.name) : a.CountsFrom s v (newer.countP fun d => !d.isMerge) := by
  obtain ⟨k, hselects, rfl⟩ := exists_selects_of_standard hconfig hp s.branch
  obtain ⟨groups, hgroups, hcaptured⟩ := Pattern.exists_captures?_of_compile hp v
  rw [← hname] at hgroups
  obtain ⟨source, rest, hwalk, hreaches, hentries⟩ :=
    Criteria.exists_reaches_of_newestTag hselects.settings htag hgroups
  rw [hcaptured] at hentries
  have hget (name : String) : source.parameters.get? name =
      [("major", v.major), ("minor", v.minor), ("patch", v.patch)].lookup name := by
    rw [OrderedMap.get?, hentries]
  have hcount : ((newer.map k.merges.visit ++ [source.visit]).dropLast.countP
      fun w => !w.commit.isMerge) = newer.countP fun d => !d.isMerge := by
    rw [List.dropLast_concat, List.countP_map]
    refine List.countP_congr fun d _ => ?_
    simp
  have hresolve := hselects.outcome_resolve rfl (hreaches.outcome_resolveSource hwalk s.branch)
  dsimp only at hresolve
  have hactions : defaultRule.onCommit.entries = [("patch", "+1")] := rfl
  rw [Replay.ofVisits_counting hactions rfl, hcount] at hresolve
  -- What the replay comes to is shown by the template.
  have hshown {ps : Parameters} {n : Nat} {patch : String}
      (hreplay : (Replay.ofActions source.parameters (List.replicate
        (newer.countP fun d => !d.isMerge) ("patch", "+1"))).toExcept = .ok (ps, n))
      (hmajor : ps.get? "major" = some v.major) (hminor : ps.get? "minor" = some v.minor)
      (hpatch : ps.get? "patch" = some patch) :
      ∃ r, (a.analyze s.toRepository).outcome = .ok r ∧
        r.output = .ofList [("SemVer", v.major ++ "." ++ v.minor ++ "." ++ patch)] := by
    rw [hreplay] at hresolve
    rw [analyze, Run.bind_of_ok hresolve]
    exact ⟨_, render_standard hconfig rfl hmajor hminor hpatch, rfl⟩
  refine ⟨fun hnone => ?_, fun hsome hle => ?_, fun hsome hlarge => ?_⟩
  · have hreplay : (Replay.ofActions source.parameters (List.replicate
        (newer.countP fun d => !d.isMerge) ("patch", "+1"))).toExcept =
          .ok (source.parameters, 0) := by
      rw [hnone]
      rfl
    exact hshown hreplay (hget _) (hget _) (hget _)
  · obtain ⟨ps, n, hreplay, hpatch, hother⟩ :=
      Replay.exists_toExcept_replicate (hget "patch") v.patch_isNumeral hsome hle
    exact hshown hreplay ((hother "major" (by decide)).trans (hget _))
      ((hother "minor" (by decide)).trans (hget _)) hpatch
  · obtain ⟨fault, hreplay⟩ :=
      Replay.exists_numeric_replicate (hget "patch") v.patch_isNumeral hsome hlarge
    rw [hreplay] at hresolve
    exact ⟨fault, by rw [analyze, Run.bind_of_error hresolve]⟩

/-- A plain commit and a merge above a tagged commit. The zeros in front of the
last number are lost where it is counted. -/
theorem countsFrom_of_standard_merge :
    let base : Script := { tags := [⟨"0.9.0", false, "", "a"⟩, ⟨"v1.02.009", false, "", "a"⟩] }
    let one := base.commit "a" "first"
    let two := one.merge "b" "Merge branch 'x'"
    let s := two.commit "c" "second"
    let a : Analyzer := { config := .standard }
    ∃ v : Version, v.name = "v1.02.009" ∧ a.CountsFrom s v 1 ∧
      ∃ r, (a.analyze s.toRepository).outcome = .ok r ∧
        r.output = .ofList [("SemVer", "1.02.10")] := by
  intro base one two s a
  let v : Version := ⟨"v", "1", "02", "009", by decide, by decide, by decide, by decide⟩
  obtain ⟨p, hp, -⟩ := Pattern.exists_compile_version
  have htag : s.NewestTag p [two.nextCommit "c" "second" 1, one.nextCommit "b" "Merge branch 'x'" 2]
      (base.nextCommit "a" "first" 1) ⟨"v1.02.009", false, "", "a"⟩ :=
    { walk := ⟨[], rfl⟩
      target := rfl
      last := ⟨[⟨"0.9.0", false, "", "a"⟩], [], rfl, by simp⟩
      above := by
        have hother : ∀ d ∈ [two.nextCommit "c" "second" 1,
            one.nextCommit "b" "Merge branch 'x'" 2], ∀ u ∈ s.tags, u.target ≠ d.sha := by
          decide
        exact fun d hd u hu htarget => absurd htarget (hother d hd u hu) }
  have hcounts : a.CountsFrom s v 1 := countsFrom_of_standard rfl hp htag rfl
  have htext : v.major ++ "." ++ v.minor ++ "." ++
      toString (Nat.ofDigitChars 10 v.patch.toList 0 + 1) =
      "1.02.10" := by
    decide +kernel
  have hcounted := hcounts.counted (by decide) (by decide)
  rw [htext] at hcounted
  exact ⟨v, rfl, hcounts, hcounted⟩

end Analyzer

end VersionTrail
