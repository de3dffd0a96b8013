/-
# The order of the rules

A branch has the first rule that accepts its name, and where no rule does, the
fallback. So only the rules that accept a name have a part in the choice: any
other one can be taken away, or be given another pattern that does not accept the
name, and the branch keeps its rule.

The matcher finds the name of a rule among the patterns and then looks the rule up
by its name. Both steps together are one search through the rules.
-/
import VersionTrail.Proofs.Branch.Matcher

namespace VersionTrail

open VersionTrail.Text

/-- Whether the pattern of a rule is blank or can be read. -/
def BranchRule.Readable (rule : BranchRule) : Prop :=
  isBlankText rule.regex = false → ∃ p, Pattern.compile true rule.regex = .ok p

namespace BranchMatcher

/-- Whether a rule is the first one that accepts a branch. -/
def IsFirst (es : List (String × BranchRule)) (branch : String) (e : String × BranchRule) : Prop :=
  ∃ before after, es = before ++ e :: after ∧ e.2.accepts branch = true ∧
    ∀ earlier ∈ before, earlier.2.accepts branch = false

/-- Whether a rule is the one that a branch has: the first one that accepts it, or
the fallback where no rule does. -/
def Governs (rules : OrderedMap BranchRule) (branch : String) (found : String × BranchRule) :
    Prop :=
  IsFirst rules.entries branch found ∨
    (∀ e ∈ rules.entries, e.2.accepts branch = false) ∧ found.1 = fallbackRule ∧
      found ∈ rules.entries

/-- Rules of which some are left out or changed: not the one with a given name, and
no change makes a rule accept a given branch. -/
inductive Edited (branch name : String) :
    List (String × BranchRule) → List (String × BranchRule) → Prop
  | nil : Edited branch name [] []
  | keep {es es' : List (String × BranchRule)} (e : String × BranchRule)
      (h : Edited branch name es es') : Edited branch name (e :: es) (e :: es')
  | drop {es es' : List (String × BranchRule)} (e : String × BranchRule) (hname : e.1 ≠ name)
      (h : Edited branch name es es') : Edited branch name (e :: es) es'
  | change {es es' : List (String × BranchRule)} (e : String × BranchRule) (hname : e.1 ≠ name)
      (rule : BranchRule) (hread : rule.Readable) (haccepts : rule.accepts branch = false)
      (h : Edited branch name es es') : Edited branch name (e :: es) ((e.1, rule) :: es')

variable {rules rules' : OrderedMap BranchRule} {m : BranchMatcher} {branch : String}
variable {es es' : List (String × BranchRule)} {found : String × BranchRule} {name : String}

/-- Rules with patterns that can be read have a matcher. -/
theorem exists_ofRules (hread : ∀ e ∈ rules.entries, e.2.Readable) :
    ∃ m, ofRules rules = .ok m := by
  have hcheck : ∀ e ∈ rules.entries, e.2.checkName e.1 = .ok () := by
    intro e he
    rw [BranchRule.checkName]
    split
    case isTrue => rfl
    case isFalse hblank =>
      obtain ⟨p, hp⟩ := hread e he (Bool.eq_false_iff.mpr hblank)
      exact PatternUse.check_eq_ok_iff.mpr ⟨p, compile_branch_eq_ok_iff.mpr hp⟩
  obtain ⟨ps, hps⟩ := exists_readPatterns hcheck
  exact ⟨⟨rules, ps⟩, bind_ok_eq hps _⟩

/-- A rule that is found by its pattern is found again by its name. -/
theorem matching?_eq (hread : ofRules rules = .ok m) (branch : String) :
    m.matching? branch = rules.entries.find? fun e => e.2.accepts branch := by
  rw [matching?, classify_eq hread, rules_of_ofRules hread]
  cases hfirst : rules.entries.find? fun e => e.2.accepts branch with
  | none => rfl
  | some e =>
      have hget : rules.get? e.1 = some e.2 :=
        OrderedMap.get?_eq_some_iff.mpr (List.mem_of_find?_eq_some hfirst)
      rw [Option.map_some, Option.bind_some, hget]
      rfl

theorem find?_eq_some_iff_isFirst :
    (es.find? fun e => e.2.accepts branch) = some found ↔ IsFirst es branch found := by
  rw [List.find?_eq_some_iff_append]
  simp only [Bool.not_eq_true', IsFirst]
  constructor
  · rintro ⟨haccepts, before, after, hsplit, hbefore⟩
    exact ⟨before, after, hsplit, haccepts, hbefore⟩
  · rintro ⟨before, after, hsplit, haccepts, hbefore⟩
    exact ⟨haccepts, before, after, hsplit, hbefore⟩

theorem find?_eq_none_iff_refuses :
    (es.find? fun e => e.2.accepts branch) = none ↔ ∀ e ∈ es, e.2.accepts branch = false := by
  simp

theorem resolve_of_isFirst (hread : ofRules rules = .ok m)
    (hfirst : IsFirst rules.entries branch found) : m.resolve branch = .ok found := by
  rw [resolve, matching?_eq hread, find?_eq_some_iff_isFirst.mpr hfirst]
  rfl

/-- Where no rule accepts a branch, the fallback is looked up by its name. -/
theorem resolve_of_refuses (hread : ofRules rules = .ok m)
    (hnone : ∀ e ∈ rules.entries, e.2.accepts branch = false) :
    m.resolve branch =
      match rules.get? fallbackRule with
      | some rule => .ok (fallbackRule, rule)
      | none => .error (.config (.noRule branch)) := by
  rw [resolve, matching?_eq hread, find?_eq_none_iff_refuses.mpr hnone, fallback?,
    rules_of_ofRules hread]
  cases rules.get? fallbackRule <;> rfl

theorem isFirst_or_refuses (es : List (String × BranchRule)) (branch : String) :
    (∃ found, IsFirst es branch found) ∨ ∀ e ∈ es, e.2.accepts branch = false := by
  cases hfirst : es.find? fun e => e.2.accepts branch with
  | some found => exact Or.inl ⟨found, find?_eq_some_iff_isFirst.mp hfirst⟩
  | none => exact Or.inr (find?_eq_none_iff_refuses.mp hfirst)

theorem IsFirst.mem (h : IsFirst es branch found) : found ∈ es := by
  obtain ⟨before, after, rfl, -, -⟩ := h
  exact List.mem_append_cons_self

theorem IsFirst.accepts (h : IsFirst es branch found) : found.2.accepts branch = true := by
  obtain ⟨before, after, -, haccepts, -⟩ := h
  exact haccepts

theorem resolve_eq_ok_iff (hread : ofRules rules = .ok m) :
    m.resolve branch = .ok found ↔ Governs rules branch found := by
  constructor
  · intro hfound
    rcases isFirst_or_refuses rules.entries branch with ⟨first, hfirst⟩ | hnone
    · rw [resolve_of_isFirst hread hfirst] at hfound
      exact Or.inl (Except.ok.inj hfound ▸ hfirst)
    · rw [resolve_of_refuses hread hnone] at hfound
      cases hget : rules.get? fallbackRule with
      | none => simp [hget] at hfound
      | some rule =>
          rw [hget] at hfound
          obtain rfl := Except.ok.inj hfound
          exact Or.inr ⟨hnone, rfl, OrderedMap.get?_eq_some_iff.mp hget⟩
  · rintro (hfirst | ⟨hnone, hname, hmem⟩)
    · exact resolve_of_isFirst hread hfirst
    · have hget : rules.get? fallbackRule = some found.2 :=
        OrderedMap.get?_eq_some_iff.mpr (hname ▸ hmem)
      rw [resolve_of_refuses hread hnone, hget, ← hname]

theorem resolve_eq_error_iff (hread : ofRules rules = .ok m) {f : Failure} :
    m.resolve branch = .error f ↔ (∀ e ∈ rules.entries, e.2.accepts branch = false) ∧
      fallbackRule ∉ rules.keys ∧ f = .config (.noRule branch) := by
  rcases isFirst_or_refuses rules.entries branch with ⟨first, hfirst⟩ | hnone
  · rw [resolve_of_isFirst hread hfirst]
    simp only [reduceCtorEq, false_iff]
    rintro ⟨hnone, -⟩
    have hrefuses := hnone first hfirst.mem
    rw [hfirst.accepts] at hrefuses
    contradiction
  · rw [resolve_of_refuses hread hnone, and_iff_right hnone, ← OrderedMap.get?_eq_none_iff]
    cases rules.get? fallbackRule with
    | none => simp [eq_comm]
    | some rule => simp

theorem classify_eq_some_iff (hread : ofRules rules = .ok m) :
    m.classify branch = some name ↔ ∃ rule, IsFirst rules.entries branch (name, rule) := by
  rw [classify_eq hread, Option.map_eq_some_iff]
  constructor
  · rintro ⟨⟨_, rule⟩, hfirst, rfl⟩
    exact ⟨rule, find?_eq_some_iff_isFirst.mp hfirst⟩
  · rintro ⟨rule, hfirst⟩
    exact ⟨(name, rule), find?_eq_some_iff_isFirst.mpr hfirst, rfl⟩

namespace Edited

/-- What all rules have in common they keep, if the changed ones have it. -/
theorem forall_mem {P : BranchRule → Prop} (h : Edited branch name es es')
    (hchange : ∀ rule : BranchRule, rule.Readable → rule.accepts branch = false → P rule)
    (hall : ∀ e ∈ es, P e.2) : ∀ e ∈ es', P e.2 := by
  induction h with
  | nil => exact hall
  | keep e h ih =>
      obtain ⟨hfirst, hrest⟩ := List.forall_mem_cons.mp hall
      exact List.forall_mem_cons.mpr ⟨hfirst, ih hrest⟩
  | drop e hname h ih => exact ih (List.forall_mem_cons.mp hall).2
  | change e hname rule hread haccepts h ih =>
      exact List.forall_mem_cons.mpr
        ⟨hchange rule hread haccepts, ih (List.forall_mem_cons.mp hall).2⟩

theorem mem (h : Edited branch found.1 es es') (hmem : found ∈ es) : found ∈ es' := by
  induction h with
  | nil => exact hmem
  | keep e h ih =>
      rcases List.mem_cons.mp hmem with rfl | hrest
      · exact List.mem_cons_self
      · exact List.mem_cons_of_mem _ (ih hrest)
  | drop e hname h ih =>
      rcases List.mem_cons.mp hmem with rfl | hrest
      · exact absurd rfl hname
      · exact ih hrest
  | change e hname rule hread haccepts h ih =>
      rcases List.mem_cons.mp hmem with rfl | hrest
      · exact absurd rfl hname
      · exact List.mem_cons_of_mem _ (ih hrest)

/-- A rule of another name was not the one that is found. -/
theorem find?_of_find?_cons {e : String × BranchRule} (hname : e.1 ≠ found.1)
    (hfirst : ((e :: es).find? fun e => e.2.accepts branch) = some found) :
    (es.find? fun e => e.2.accepts branch) = some found := by
  rw [List.find?_cons] at hfirst
  cases haccepts : e.2.accepts branch with
  | true =>
      rw [haccepts] at hfirst
      exact absurd (congrArg Prod.fst (Option.some.inj hfirst)) hname
  | false => rwa [haccepts] at hfirst

/-- Before the first rule that accepts a branch there are still only rules that do
not. -/
theorem isFirst (h : Edited branch found.1 es es') (hfirst : IsFirst es branch found) :
    IsFirst es' branch found := by
  rw [← find?_eq_some_iff_isFirst] at hfirst ⊢
  induction h with
  | nil => exact hfirst
  | keep e h ih =>
      rw [List.find?_cons] at hfirst ⊢
      cases haccepts : e.2.accepts branch with
      | true => rwa [haccepts] at hfirst
      | false =>
          rw [haccepts] at hfirst
          exact ih hfirst
  | drop e hname h ih => exact ih (find?_of_find?_cons hname hfirst)
  | change e hname rule hread haccepts h ih =>
      rw [List.find?_cons, haccepts]
      exact ih (find?_of_find?_cons hname hfirst)

theorem governs (h : Edited branch found.1 rules.entries rules'.entries)
    (hfound : Governs rules branch found) : Governs rules' branch found := by
  rcases hfound with hfirst | ⟨hnone, hname, hmem⟩
  · exact Or.inl (h.isFirst hfirst)
  · exact Or.inr ⟨h.forall_mem (fun _ _ haccepts => haccepts) hnone, hname, h.mem hmem⟩

end Edited

/-- The rules without the fallback. -/
def withoutFallback (rules : OrderedMap BranchRule) : OrderedMap BranchRule :=
  rules.filter fun name _ => name ≠ fallbackRule

theorem mem_withoutFallback_iff :
    found ∈ (withoutFallback rules).entries ↔ found ∈ rules.entries ∧ found.1 ≠ fallbackRule := by
  show found ∈ rules.entries.filter _ ↔ _
  rw [List.mem_filter, decide_eq_true_iff]

/-- Without the fallback, if its pattern is blank, a branch has no rule exactly where
it is not classified. -/
theorem exists_error_withoutFallback_iff (hread : ofRules rules = .ok m) {rule : BranchRule}
    (hmem : (fallbackRule, rule) ∈ rules.entries) (hblank : isBlankText rule.regex = true)
    {m' : BranchMatcher} (hread' : ofRules (withoutFallback rules) = .ok m') (branch : String) :
    (∃ f, m'.resolve branch = .error f) ↔ m.classify branch = none := by
  have hkeys : fallbackRule ∉ (withoutFallback rules).keys := by
    intro hkey
    obtain ⟨e, he, hname⟩ := List.mem_map.mp hkey
    exact (mem_withoutFallback_iff.mp he).2 hname
  rw [classify_eq hread, Option.map_eq_none_iff, find?_eq_none_iff_refuses]
  simp only [resolve_eq_error_iff hread', hkeys, not_false_eq_true, true_and]
  constructor
  · rintro ⟨-, hnone, -⟩ e he
    by_cases hname : e.1 = fallbackRule
    · have hget : rules.get? fallbackRule = some e.2 :=
        OrderedMap.get?_eq_some_iff.mpr (hname ▸ he)
      rw [OrderedMap.get?_eq_some_iff.mpr hmem] at hget
      obtain rfl := Option.some.inj hget
      exact not_accepts_of_blank hblank branch
    · exact hnone e (mem_withoutFallback_iff.mpr ⟨he, hname⟩)
  · intro hnone
    exact ⟨_, fun e he => hnone e (mem_withoutFallback_iff.mp he).1, rfl⟩

/-- How a matcher chooses the rule of a branch. -/
structure Chooses (m : BranchMatcher) (rules : OrderedMap BranchRule) (branch : String) :
    Prop where
  resolve_ok : ∀ found, m.resolve branch = .ok found ↔ Governs rules branch found
  resolve_error : ∀ f, m.resolve branch = .error f ↔
    (∀ e ∈ rules.entries, e.2.accepts branch = false) ∧ fallbackRule ∉ rules.keys ∧
      f = .config (.noRule branch)
  /-- With a fallback there is always a rule. -/
  total : fallbackRule ∈ rules.keys → ∃ found, m.resolve branch = .ok found
  /-- A branch is classified without the fallback. -/
  classify : ∀ name, m.classify branch = some name ↔
    ∃ rule, IsFirst rules.entries branch (name, rule)

theorem chooses_of_ofRules (hread : ofRules rules = .ok m) (branch : String) :
    m.Chooses rules branch where
  resolve_ok _ := resolve_eq_ok_iff hread
  resolve_error _ := resolve_eq_error_iff hread
  total hfallback := exists_resolve (rules_of_ofRules hread ▸ hfallback) branch
  classify _ := classify_eq_some_iff hread

/-- Rules with patterns that can be read have a matcher, and for every branch it
chooses the first rule that accepts it, or else the fallback. The choice does not
depend on the other rules: it stays the same when some of them are left out or get
patterns that do not accept the branch. When the fallback is left out, and its
pattern is blank, exactly the branches that are not classified lose their rule. -/
theorem exists_chooses (hread : ∀ e ∈ rules.entries, e.2.Readable) :
    ∃ m, ofRules rules = .ok m ∧ ∀ branch, m.Chooses rules branch ∧
      (∀ rules' found, m.resolve branch = .ok found →
        Edited branch found.1 rules.entries rules'.entries →
        ∃ m', ofRules rules' = .ok m' ∧ m'.resolve branch = .ok found) ∧
      ∀ rule, (fallbackRule, rule) ∈ rules.entries → isBlankText rule.regex = true →
        ∃ m', ofRules (withoutFallback rules) = .ok m' ∧
          ((∃ f, m'.resolve branch = .error f) ↔ m.classify branch = none) := by
  obtain ⟨m, hm⟩ := exists_ofRules hread
  refine ⟨m, hm, fun branch => ⟨chooses_of_ofRules hm branch, ?_, ?_⟩⟩
  · intro rules' found hfound hedited
    obtain ⟨m', hm'⟩ := exists_ofRules (hedited.forall_mem (fun _ hrule _ => hrule) hread)
    exact ⟨m', hm',
      (resolve_eq_ok_iff hm').mpr (hedited.governs ((resolve_eq_ok_iff hm).mp hfound))⟩
  · intro rule hmem hblank
    obtain ⟨m', hm'⟩ := exists_ofRules fun e he => hread e (mem_withoutFallback_iff.mp he).1
    exact ⟨m', hm', exists_error_withoutFallback_iff hm hmem hblank hm' branch⟩

/-- Of two rules for releases the first one is chosen, also when the second one is
left out and the fallback gets a pattern. -/
theorem exists_chooses_release :
    let release : String × BranchRule := ("release", { regex := "^Release/" })
    let rules : OrderedMap BranchRule :=
      .ofList [release, ("any", { regex := "release" }), (fallbackRule, {})]
    let rules' : OrderedMap BranchRule := .ofList [release, (fallbackRule, { regex := "main" })]
    (∀ e ∈ rules.entries, e.2.Readable) ∧
      ∃ m m', ofRules rules = .ok m ∧ ofRules rules' = .ok m' ∧
        m.resolve "RELEASE/2" = .ok release ∧ m'.resolve "RELEASE/2" = .ok release := by
  intro release rules rules'
  have hread : ∀ e ∈ rules.entries, e.2.Readable := by
    have hall : ∀ e ∈ rules.entries, (Pattern.compile true e.2.regex).isOk = true := by
      decide +kernel
    exact fun e he _ => exists_ok_of_isOk (hall e he)
  have hfirst : Governs rules "RELEASE/2" release :=
    Or.inl ⟨[], _, rfl, by decide +kernel, by simp⟩
  have hedited : Edited "RELEASE/2" "release" rules.entries rules'.entries := by
    refine .keep _ (.drop _ (by decide) (.change _ (by decide) _ (fun _ => ?_) ?_ .nil))
    · exact exists_ok_of_isOk (by decide +kernel)
    · decide +kernel
  obtain ⟨m, hm, hchoice⟩ := exists_chooses hread
  obtain ⟨hchooses, hothers, -⟩ := hchoice "RELEASE/2"
  have hrelease := (hchooses.resolve_ok release).mpr hfirst
  obtain ⟨m', hm', hkept⟩ := hothers rules' release hrelease hedited
  exact ⟨hread, m, m', hm, hm', hrelease, hkept⟩

end BranchMatcher

end VersionTrail
