/-
# Branches and their rules

A branch has one of the rules, and with a fallback among the rules every branch
has one. Rules whose patterns pass their check have a matcher, and it classifies a
branch by the first rule that accepts it.
-/
import VersionTrail.Config.Basic
import VersionTrail.Proofs.Config.Validation

namespace VersionTrail

open VersionTrail.Text

/-- Whether the pattern of a rule matches the name of a branch. The case of letters
does not count, and a blank pattern matches nothing. -/
def BranchRule.accepts (rule : BranchRule) (branch : String) : Bool :=
  !isBlankText rule.regex &&
    match Pattern.compile true rule.regex with
    | .ok p => p.isMatch branch
    | .error _ => false

namespace BranchMatcher

/-- Rules that pass the check of their pattern can be read. -/
theorem exists_readPatterns {es : List (String × BranchRule)}
    (hcheck : ∀ e ∈ es, e.2.checkName e.1 = .ok ()) : ∃ ps, readPatterns es = .ok ps := by
  induction es with
  | nil => exact ⟨[], rfl⟩
  | cons e es ih =>
      obtain ⟨name, rule⟩ := e
      obtain ⟨ps, hps⟩ := ih fun later hlater => hcheck later (List.mem_cons_of_mem _ hlater)
      have hrule := hcheck (name, rule) List.mem_cons_self
      rw [readPatterns]
      by_cases hblank : isBlankText rule.regex = true
      · exact ⟨ps, by simp [hblank, hps]⟩
      · rw [BranchRule.checkName, if_neg hblank, PatternUse.check_eq_ok_iff] at hrule
        obtain ⟨p, hp⟩ := hrule
        exact ⟨(name, p) :: ps, by simp [hblank, hp, hps]⟩

/-- With a fallback, every branch has a rule. -/
theorem exists_resolve {m : BranchMatcher} (hfallback : fallbackRule ∈ m.rules.keys)
    (branch : String) : ∃ found, m.resolve branch = .ok found := by
  obtain ⟨rule, hrule⟩ := OrderedMap.exists_get?_of_mem_keys hfallback
  have hsome : m.fallback? = some (fallbackRule, rule) := by rw [fallback?, hrule]; rfl
  unfold resolve
  cases m.matching? branch with
  | none => exact ⟨(fallbackRule, rule), by rw [hsome]; rfl⟩
  | some found => exact ⟨found, rfl⟩

/-- The rule of a branch is one of the rules. -/
theorem mem_of_resolve {m : BranchMatcher} {branch : String} {found : String × BranchRule}
    (hresolve : m.resolve branch = .ok found) : found ∈ m.rules.entries := by
  have hget : ∀ name, (m.rules.get? name).map (fun rule => (name, rule)) = some found →
      found ∈ m.rules.entries := by
    intro name hname
    obtain ⟨rule, hrule, rfl⟩ := Option.map_eq_some_iff.mp hname
    exact OrderedMap.get?_eq_some_iff.mp hrule
  unfold resolve at hresolve
  cases hmatching : m.matching? branch with
  | some first =>
      rw [hmatching] at hresolve
      obtain rfl := Except.ok.inj hresolve
      obtain ⟨name, -, hname⟩ := Option.bind_eq_some_iff.mp hmatching
      exact hget name hname
  | none =>
      rw [hmatching] at hresolve
      cases hfallback : m.fallback? with
      | none => simp [hfallback] at hresolve
      | some last =>
          rw [hfallback] at hresolve
          obtain rfl := Except.ok.inj hresolve
          exact hget fallbackRule hfallback

variable {rules : OrderedMap BranchRule} {m : BranchMatcher}

theorem rules_of_ofRules (hread : ofRules rules = .ok m) : m.rules = rules := by
  obtain ⟨patterns, -, hread⟩ := bind_eq_ok_iff.mp hread
  obtain rfl := Except.ok.inj hread
  rfl

theorem compile_branch_eq_ok_iff {name text : String} {p : Pattern} :
    (PatternUse.branch name).compile text = .ok p ↔ Pattern.compile true text = .ok p := by
  rw [PatternUse.compile, show (PatternUse.branch name).ignoresCase = true from rfl]
  cases Pattern.compile true text <;> simp

theorem accepts_of_compile {rule : BranchRule} {name : String} {p : Pattern}
    (hp : (PatternUse.branch name).compile rule.regex = .ok p)
    (hblank : ¬ isBlankText rule.regex = true) (branch : String) :
    rule.accepts branch = p.isMatch branch := by
  rw [BranchRule.accepts, compile_branch_eq_ok_iff.mp hp, Bool.eq_false_iff.mpr hblank]
  rfl

theorem not_accepts_of_blank {rule : BranchRule} (hblank : isBlankText rule.regex = true)
    (branch : String) : rule.accepts branch = false := by
  rw [BranchRule.accepts, hblank]
  rfl

/-- The first pattern that matches is that of the first rule that accepts. -/
theorem find?_of_readPatterns {es : List (String × BranchRule)} {ps : List (String × Pattern)}
    (hread : readPatterns es = .ok ps) (branch : String) :
    (ps.find? fun e => e.2.isMatch branch).map Prod.fst =
      (es.find? fun e => e.2.accepts branch).map Prod.fst := by
  induction es generalizing ps with
  | nil =>
      obtain rfl := Except.ok.inj hread
      rfl
  | cons first es ih =>
      obtain ⟨name, rule⟩ := first
      rw [readPatterns] at hread
      split at hread
      case isTrue hblank =>
        rw [ih hread, List.find?_cons_of_neg (by simp [not_accepts_of_blank hblank])]
      case isFalse hblank =>
        obtain ⟨p, hp, hread⟩ := bind_eq_ok_iff.mp hread
        obtain ⟨rest, hrest, hread⟩ := bind_eq_ok_iff.mp hread
        obtain rfl := Except.ok.inj hread
        rw [List.find?_cons, List.find?_cons, accepts_of_compile hp hblank]
        cases p.isMatch branch with
        | true => rfl
        | false => exact ih hrest

theorem classify_eq (hread : ofRules rules = .ok m) (branch : String) :
    m.classify branch = (rules.entries.find? fun e => e.2.accepts branch).map Prod.fst := by
  obtain ⟨ps, hps, hread⟩ := bind_eq_ok_iff.mp hread
  obtain rfl := Except.ok.inj hread
  exact find?_of_readPatterns hps branch

/-- A branch is classified by the name of one of the rules. -/
theorem mem_keys_of_classify (hread : ofRules rules = .ok m) {branch name : String}
    (hname : m.classify branch = some name) : name ∈ rules.keys := by
  rw [classify_eq hread, Option.map_eq_some_iff] at hname
  obtain ⟨e, he, rfl⟩ := hname
  exact List.mem_map_of_mem (List.mem_of_find?_eq_some he)

end BranchMatcher

end VersionTrail
