/-
# What a checked configuration promises

A check succeeds exactly when what it looks at can be read: a pattern for its
use, an action, every part of a rule. A checked configuration therefore has a
fallback, a valid format for dates, and only patterns and actions that can be
read.
-/
import VersionTrail.Config.Validation
import VersionTrail.Proofs.OrderedMap
import VersionTrail.Proofs.Run
import VersionTrail.Proofs.Source.Qualifying

namespace VersionTrail

open VersionTrail.Text
open VersionTrail.Calendar (isValidFormat)

/-- A step that gives no result leaves the rest to the next one. -/
@[simp]
theorem check_bind_eq_ok_iff {x y : Except Failure Unit} :
    (x >>= fun _ => y) = .ok () ↔ x = .ok () ∧ y = .ok () := by
  rw [bind_eq_ok_iff]
  exact ⟨fun ⟨_, hx, hy⟩ => ⟨hx, hy⟩, fun ⟨hx, hy⟩ => ⟨(), hx, hy⟩⟩

/-- A reading that is only tried succeeds when there is a result. -/
@[simp]
theorem map_unit_eq_ok_iff {α : Type} {x : Except Failure α} :
    (x.map fun _ => ()) = .ok () ↔ ∃ a, x = .ok a := by
  cases x with
  | error f => exact ⟨fun h => by contradiction, fun ⟨a, h⟩ => by contradiction⟩
  | ok a => exact ⟨fun _ => ⟨a, rfl⟩, fun _ => rfl⟩

/-- A list passes when each of its things does. -/
@[simp]
theorem checkAll_eq_ok_iff {α : Type} {check : α → Except Failure Unit} {as : List α} :
    checkAll check as = .ok () ↔ ∀ a ∈ as, check a = .ok () := by
  induction as with
  | nil => simp [checkAll]
  | cons a as ih => simp [checkAll, ih]

@[simp]
theorem PatternUse.check_eq_ok_iff {use : PatternUse} {pattern : String} :
    use.check pattern = .ok () ↔ ∃ p, use.compile pattern = .ok p :=
  map_unit_eq_ok_iff

@[simp]
theorem Action.check_eq_ok_iff {text : String} :
    Action.check text = .ok () ↔ ∃ a, Action.read text = .ok a :=
  map_unit_eq_ok_iff

theorem CleanRule.check_eq_ok_iff {rule : CleanRule} :
    rule.check = .ok () ↔
      (∃ p, PatternUse.outputSelector.compile rule.select = .ok p) ∧
        ∃ p, PatternUse.invalidCharacter.compile rule.invalidPattern = .ok p := by
  simp [CleanRule.check]

/-- A route passes when its pattern, or the one that stands in, can be read. -/
theorem MergeRoute.exists_routePattern_of_check {route : MergeRoute}
    (hcheck : route.check = .ok ()) (tagPattern : Pattern) :
    ∃ p, MergeDetector.routePattern tagPattern route = .ok p := by
  unfold MergeDetector.routePattern
  unfold MergeRoute.check at hcheck
  cases hpattern : route.pattern with
  | none => exact ⟨tagPattern, rfl⟩
  | some pattern =>
      rw [hpattern] at hcheck
      exact PatternUse.check_eq_ok_iff.mp hcheck

/-- Settings that pass give criteria for the version source. -/
theorem SourceSettings.exists_criteria_of_check {settings : SourceSettings}
    (hcheck : settings.check = .ok ()) (matcher : BranchMatcher) :
    ∃ k : Criteria, k.settings = settings ∧ k.matcher = matcher := by
  simp only [SourceSettings.check, check_bind_eq_ok_iff, PatternUse.check_eq_ok_iff,
    checkAll_eq_ok_iff] at hcheck
  obtain ⟨⟨tagPattern, htag⟩, ⟨ends, hends⟩, hroutes⟩ := hcheck
  exact ⟨⟨settings, matcher, tagPattern, ends, htag, hends,
    fun route hmem => MergeRoute.exists_routePattern_of_check (hroutes route hmem) tagPattern⟩,
    rfl, rfl⟩

/-- A rule that passes has a pattern that is blank or can be read, settings that
pass, and actions that can be read. -/
theorem BranchRule.check_eq_ok_iff {name : String} {rule : BranchRule} :
    rule.check name = .ok () ↔
      rule.checkName name = .ok () ∧ rule.source.check = .ok () ∧
        (∀ action ∈ rule.onCommit.values, ∃ a, Action.read action = .ok a) ∧
        ∀ actions ∈ rule.onMerge.values, ∀ action ∈ actions.values,
          ∃ a, Action.read action = .ok a := by
  simp [BranchRule.check]

/-- A configuration passes when it has a fallback and a valid format for dates,
and all of its rules pass. -/
theorem Config.validate_eq_ok_iff {c : Config} :
    c.validate = .ok () ↔
      fallbackRule ∈ c.branches.keys ∧ isValidFormat c.output.dateFormat = true ∧
        (∀ rule ∈ c.output.clean, rule.check = .ok ()) ∧
        ∀ e ∈ c.branches.entries, e.2.check e.1 = .ok () := by
  have hfallback : c.checkFallback = .ok () ↔ fallbackRule ∈ c.branches.keys := by
    simp [Config.checkFallback]
  have hformat : c.checkDateFormat = .ok () ↔ isValidFormat c.output.dateFormat = true := by
    simp [Config.checkDateFormat]
  simp [Config.validate, hfallback, hformat]

end VersionTrail
