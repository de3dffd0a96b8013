/-
# Exact numbers

A replay changes every parameter as if it were alone. The actions on a parameter
are one for each commit that selects a table with the parameter in it, the
oldest commit first, and the parameter's number after them is what exact
arithmetic on integers gives. A replay succeeds exactly where every addition
meets a number and has a sum of 64 bits; nothing is ever rounded or wrapped.

The induction is over all actions in the order of the replay. An action on one
parameter writes its number as a text, from which the next action on it reads
the same number, and leaves the texts of all others alone.
-/
import Mathlib.Algebra.Ring.Nat
import VersionTrail.Proofs.Bump.Replay
import VersionTrail.Proofs.Text.Numeral

namespace VersionTrail

open VersionTrail.Text

namespace Parameters

/-- The number of a parameter: zero where it is absent or blank, none where its
text is no integer of 64 bits. -/
def number? (ps : Parameters) (name : String) : Option Int :=
  match ps.get? name with
  | none => some 0
  | some text => if isBlankText text then some 0 else readInt? (trim text)

theorem number?_eq_int? (ps : Parameters) (name : String) :
    ps.number? name = (ps.int? name).toOption.map (·.getD 0) := by
  rw [number?, int?]
  cases ps.get? name with
  | none => rfl
  | some text =>
      dsimp only
      rw [isEmpty_trim]
      cases isBlankText text with
      | true => rfl
      | false => cases readInt? (trim text) <;> rfl

/-- A written number is the number of its parameter, and of no other. -/
theorem number?_insert {n : Int} (hfits : fits n = true) (ps : Parameters) (name other : String) :
    number? (ps.insert name (toString n)) other =
      if name = other then some n else ps.number? other := by
  by_cases hname : name = other
  · simp only [number?, OrderedMap.get?_insert, hname, if_true, isBlankText_toString hfits,
      Bool.false_eq_true, if_false, trim_toString, readInt?_toString hfits]
  · simp [number?, hname]

end Parameters

namespace Action

/-! ## Actions in exact arithmetic -/

/-- The number behind an action; an addition to no number has none. -/
def next (start : Option Int) : Action → Option Int
  | set n => some n
  | add n => start.map (· + n)

/-- The number behind actions one after the other. -/
def numberAfter (start : Option Int) (actions : List Action) : Option Int :=
  actions.foldl next start

/-- Every addition meets a number and has a sum of 64 bits. -/
def Computable (start : Option Int) (actions : List Action) : Prop :=
  ∀ before n after, actions = before ++ add n :: after →
    ∃ v, numberAfter start before = some v ∧ fits (v + n) = true

@[simp]
theorem computable_nil (start : Option Int) : Computable start [] := by
  intro before n after hsplit
  simp at hsplit

theorem computable_cons {start : Option Int} {a : Action} {rest : List Action} :
    Computable start (a :: rest) ↔
      (∀ n, a = add n → ∃ v, start = some v ∧ fits (v + n) = true) ∧
        Computable (a.next start) rest := by
  constructor
  · intro h
    refine ⟨fun n ha => h [] n rest (by rw [ha, List.nil_append]), ?_⟩
    intro before n after hsplit
    exact h (a :: before) n after (by rw [hsplit, List.cons_append])
  · rintro ⟨hfirst, hrest⟩ before n after hsplit
    cases before with
    | nil =>
        obtain ⟨ha, -⟩ := List.cons.inj hsplit
        exact hfirst n ha
    | cons b before =>
        obtain ⟨rfl, htail⟩ := List.cons.inj hsplit
        exact hrest before n after htail

/-- The parts of a text that an action is read from. -/
theorem exists_of_read {text : String} {a : Action} (hread : read text = .ok a) :
    ∃ sign ds, text.toList = sign :: ds ∧ isNumeral ds = true ∧
      fits (Nat.ofDigitChars 10 ds 0) = true ∧
        ofSign? sign (Nat.ofDigitChars 10 ds 0) = some a := by
  rw [read] at hread
  cases htext : text.toList with
  | nil =>
      rw [htext] at hread
      cases hread
  | cons sign ds =>
      rw [htext] at hread
      dsimp only at hread
      by_cases hdigits : isNumeral ds = true
      · by_cases hfits : fits (Nat.ofDigitChars 10 ds 0) = true
        · rw [hdigits, hfits] at hread
          simp only [Bool.not_true, Bool.false_eq_true, if_false] at hread
          cases hsign : ofSign? sign (Nat.ofDigitChars 10 ds 0) with
          | none =>
              rw [hsign] at hread
              cases hread
          | some b =>
              rw [hsign] at hread
              obtain rfl := Except.ok.inj hread
              exact ⟨sign, ds, rfl, hdigits, hfits, hsign⟩
        · rw [if_neg (by simp [hdigits]), if_pos (by simp [hfits])] at hread
          cases hread
      · rw [if_pos (by simp [hdigits])] at hread
        cases hread

theorem fits_of_read_set {text : String} {n : Int} (hread : read text = .ok (.set n)) :
    fits n = true := by
  obtain ⟨sign, ds, -, -, hfits, hsign⟩ := exists_of_read hread
  unfold ofSign? at hsign
  split at hsign <;> cases hsign
  exact hfits

/-- An action applies exactly where it is an addition that meets a number and
has a sum of 64 bits, or none; it writes the exact number. -/
theorem apply_eq_ok_iff_of_fits {a : Action} (hset : ∀ n, a = set n → fits n = true)
    {ps after : Parameters} {name : String} :
    a.apply ps name = .ok after ↔
      ∃ m, a.next (ps.number? name) = some m ∧ fits m = true ∧
        after = ps.insert name (toString m) := by
  cases a with
  | set n =>
      have hfits := hset n rfl
      constructor
      · intro happly
        exact ⟨n, rfl, hfits, (Except.ok.inj happly).symm⟩
      · rintro ⟨m, hm, -, rfl⟩
        obtain rfl := Option.some.inj hm
        rfl
  | add n =>
      rw [apply, result, next, Parameters.number?_eq_int?]
      cases hint : ps.int? name with
      | error f => simp [Except.toOption]
      | ok current =>
          simp only [ok_bind, Except.toOption, Option.map_some]
          by_cases hfits : fits (current.getD 0 + n) = true
          · rw [if_pos hfits]
            constructor
            · intro happly
              exact ⟨_, rfl, hfits, (Except.ok.inj happly).symm⟩
            · rintro ⟨m, hm, -, rfl⟩
              obtain rfl := Option.some.inj hm
              rfl
          · rw [if_neg hfits]
            constructor
            · intro happly
              cases happly
            · rintro ⟨m, hm, hmfits, -⟩
              obtain rfl := Option.some.inj hm
              exact absurd hmfits hfits

theorem apply_eq_ok_iff {text : String} {a : Action} (hread : read text = .ok a)
    {ps after : Parameters} {name : String} :
    a.apply ps name = .ok after ↔
      ∃ m, a.next (ps.number? name) = some m ∧ fits m = true ∧
        after = ps.insert name (toString m) :=
  apply_eq_ok_iff_of_fits fun _ ha => fits_of_read_set (ha ▸ hread)

/-- An action applies unless it is an addition that cannot be computed. -/
theorem exists_apply {text : String} {a : Action} (hread : read text = .ok a) {ps : Parameters}
    {name : String}
    (hadd : ∀ n, a = add n → ∃ v, ps.number? name = some v ∧ fits (v + n) = true) :
    ∃ after, a.apply ps name = .ok after := by
  cases a with
  | set n => exact ⟨_, rfl⟩
  | add n =>
      obtain ⟨v, hv, hfits⟩ := hadd n rfl
      have hnext : (add n).next (ps.number? name) = some (v + n) := by
        rw [next, hv, Option.map_some]
      exact ⟨_, (apply_eq_ok_iff hread).mpr ⟨v + n, hnext, hfits, rfl⟩⟩

/-- The actions on one parameter, of all that a list of entries holds. -/
def actionsIn (name : String) (es : List (String × String)) : List Action :=
  es.filterMap fun e => if e.1 = name then (read e.2).toOption else none

theorem actionsIn_cons {e : String × String} {a : Action} (hread : read e.2 = .ok a)
    (name : String) (rest : List (String × String)) :
    actionsIn name (e :: rest) =
      if e.1 = name then a :: actionsIn name rest else actionsIn name rest := by
  by_cases hname : e.1 = name
  · simp [actionsIn, hname, hread, Except.toOption]
  · simp [actionsIn, hname]

end Action

/-! ## The run through all actions -/

namespace Replay

open VersionTrail.Action

variable {ps : Parameters} {es : List (String × String)}

theorem ofActions_cons {e : String × String} {a : Action} (hread : Action.read e.2 = .ok a)
    (ps : Parameters) (rest : List (String × String)) :
    ofActions ps (e :: rest) =
      match a.apply ps e.1 with
      | .error f => ⟨ps, 0, some f⟩
      | .ok after =>
        { ofActions after rest with applied := (ofActions after rest).applied + 1 } := by
  have happly : applyText ps e.1 e.2 = a.apply ps e.1 := bind_ok_eq hread _
  exact happly ▸ rfl

/-- One step: an action that applies moves the number of its parameter on, and
the numbers of the others are where they were. -/
theorem computable_step {e : String × String} {a : Action} (hread : Action.read e.2 = .ok a)
    {m : Int} (hm : a.next (ps.number? e.1) = some m) (hfits : fits m = true)
    (rest : List (String × String)) (name : String) :
    Computable (ps.number? name) (actionsIn name (e :: rest)) ↔
      Computable (Parameters.number? (ps.insert e.1 (toString m)) name) (actionsIn name rest) := by
  rw [actionsIn_cons hread, Parameters.number?_insert hfits]
  by_cases hname : e.1 = name
  · subst hname
    rw [if_pos rfl, if_pos rfl, computable_cons, hm]
    refine and_iff_right ?_
    rintro n rfl
    obtain ⟨v, hv, rfl⟩ := Option.map_eq_some_iff.mp hm
    exact ⟨v, hv, hfits⟩
  · rw [if_neg hname, if_neg hname]

/-- The actions all apply exactly where those on each parameter do. -/
theorem failure_ofActions_eq_none_iff (hread : ∀ e ∈ es, ∃ a, Action.read e.2 = .ok a) :
    (ofActions ps es).failure = none ↔
      ∀ name, Computable (ps.number? name) (actionsIn name es) := by
  induction es generalizing ps with
  | nil => exact iff_of_true rfl fun name => computable_nil _
  | cons e rest ih =>
      obtain ⟨a, ha⟩ := hread e List.mem_cons_self
      have hrest : ∀ e ∈ rest, ∃ a, Action.read e.2 = .ok a :=
        fun later hlater => hread later (List.mem_cons_of_mem _ hlater)
      rw [ofActions_cons ha]
      cases happly : a.apply ps e.1 with
      | ok after =>
          obtain ⟨m, hm, hfits, rfl⟩ := (apply_eq_ok_iff ha).mp happly
          rw [ih hrest]
          exact forall_congr' fun name => (computable_step ha hm hfits rest name).symm
      | error f =>
          -- A failing action is an addition that the parameter of `e` cannot compute.
          refine iff_of_false (by simp) fun hall => ?_
          have hfirst := hall e.1
          rw [actionsIn_cons ha, if_pos rfl, computable_cons] at hfirst
          obtain ⟨after, hafter⟩ := exists_apply ha hfirst.1
          rw [happly] at hafter
          contradiction

theorem applied_ofActions (hok : (ofActions ps es).failure = none) :
    (ofActions ps es).applied = es.length := by
  induction es generalizing ps with
  | nil => rfl
  | cons e rest ih =>
      obtain ⟨name, action⟩ := e
      rw [ofActions] at hok ⊢
      cases happly : applyText ps name action with
      | error f =>
          rw [happly] at hok
          contradiction
      | ok after =>
          rw [happly] at hok
          exact congrArg (· + 1) (ih hok)

/-- Actions that all apply keep the text of a parameter that none of them is on,
and write the exact number of any other. -/
theorem get?_ofActions (hread : ∀ e ∈ es, ∃ a, Action.read e.2 = .ok a)
    (hok : (ofActions ps es).failure = none) (name : String) :
    (actionsIn name es = [] ∧ (ofActions ps es).parameters.get? name = ps.get? name) ∨
      actionsIn name es ≠ [] ∧
        ∃ n, numberAfter (ps.number? name) (actionsIn name es) = some n ∧ fits n = true ∧
          (ofActions ps es).parameters.get? name = some (toString n) := by
  induction es generalizing ps with
  | nil => exact Or.inl ⟨rfl, rfl⟩
  | cons e rest ih =>
      obtain ⟨a, ha⟩ := hread e List.mem_cons_self
      have hrest : ∀ e ∈ rest, ∃ a, Action.read e.2 = .ok a :=
        fun later hlater => hread later (List.mem_cons_of_mem _ hlater)
      rw [ofActions_cons ha] at hok ⊢
      cases happly : a.apply ps e.1 with
      | error f =>
          rw [happly] at hok
          contradiction
      | ok after =>
          obtain ⟨m, hm, hfits, rfl⟩ := (apply_eq_ok_iff ha).mp happly
          rw [happly] at hok
          -- What follows starts from the text that this action wrote.
          have hlater := ih hrest hok
          rw [Parameters.number?_insert hfits, OrderedMap.get?_insert] at hlater
          rw [actionsIn_cons ha]
          by_cases hname : e.1 = name
          · subst hname
            simp only [if_true] at hlater ⊢
            refine Or.inr ⟨List.cons_ne_nil a _, ?_⟩
            rw [numberAfter, List.foldl_cons, hm]
            rcases hlater with ⟨hnone, hget⟩ | ⟨-, hnumber⟩
            · exact ⟨m, by rw [hnone, List.foldl_nil], hfits, hget⟩
            · exact hnumber
          · simp only [if_neg hname] at hlater ⊢
            exact hlater

end Replay

/-! ## The replay of commits -/

namespace BranchRule

/-- The table of actions that a commit selects: a plain commit that of commits,
a merge the one of the rule it comes from, or else that of the fallback rule. -/
def tableFor (rule : BranchRule) (v : Visit) : OrderedMap String :=
  if v.commit.isMerge then
    match v.fromRule.bind rule.onMerge.get? with
    | some own => own
    | none => (rule.onMerge.get? fallbackRule).getD ∅
  else rule.onCommit

@[simp]
theorem entries_tableFor (rule : BranchRule) (v : Visit) :
    (rule.tableFor v).entries = rule.actionsFor v := by
  rw [tableFor, actionsFor, mergeActions]
  cases v.commit.isMerge with
  | false => rfl
  | true =>
      cases v.fromRule.bind rule.onMerge.get? with
      | some own => rfl
      | none =>
          cases rule.onMerge.get? fallbackRule with
          | some table => rfl
          | none => rfl

/-- All actions of a rule can be read. -/
def ActionsRead (rule : BranchRule) : Prop :=
  (∀ text ∈ rule.onCommit.values, (Action.read text).isOk = true) ∧
    ∀ table ∈ rule.onMerge.values, ∀ text ∈ table.values, (Action.read text).isOk = true

instance (rule : BranchRule) : Decidable rule.ActionsRead :=
  inferInstanceAs (Decidable (_ ∧ _))

/-- The action on a parameter that a commit triggers. -/
def actionOn? (rule : BranchRule) (name : String) (v : Visit) : Option Action :=
  ((rule.tableFor v).get? name).bind fun text => (Action.read text).toOption

/-- The actions on a parameter that commits trigger, the oldest commit first.
The version source, which is last, triggers none. -/
def actionsOn (rule : BranchRule) (visits : List Visit) (name : String) : List Action :=
  visits.dropLast.reverse.filterMap (rule.actionOn? name)

theorem actionsIn_of_nodup {es : List (String × String)} (hnodup : (es.map Prod.fst).Nodup)
    (name : String) :
    Action.actionsIn name es =
      ((es.lookup name).bind fun text => (Action.read text).toOption).toList := by
  induction es with
  | nil => rfl
  | cons e rest ih =>
      obtain ⟨key, text⟩ := e
      rw [List.map_cons, List.nodup_cons] at hnodup
      have hrest := ih hnodup.2
      rw [OrderedMap.lookup_cons_eq_ite, Action.actionsIn, List.filterMap_cons]
      by_cases hname : key = name
      · subst hname
        have hlater : rest.lookup key = none := by
          refine List.lookup_eq_none_iff.mpr fun e he => bne_iff_ne.mpr ?_
          rintro rfl
          exact hnodup.1 (List.mem_map.mpr ⟨e, he, rfl⟩)
        rw [hlater, Action.actionsIn] at hrest
        rw [hrest, if_pos rfl, if_pos rfl]
        cases h : (Action.read text).toOption <;> simp [h]
      · rw [if_neg hname, if_neg hname]
        exact hrest

/-- The actions of commits on a parameter are at most one for each commit. -/
theorem actionsIn_flatMap (rule : BranchRule) (name : String) (visits : List Visit) :
    Action.actionsIn name (visits.flatMap rule.actionsFor) =
      visits.filterMap (rule.actionOn? name) := by
  induction visits with
  | nil => rfl
  | cons v rest ih =>
      have hfirst : Action.actionsIn name (rule.actionsFor v) =
          (rule.actionOn? name v).toList := by
        rw [← entries_tableFor]
        exact actionsIn_of_nodup (rule.tableFor v).nodup name
      rw [Action.actionsIn] at hfirst ih ⊢
      rw [List.flatMap_cons, List.filterMap_append, hfirst, ih, List.filterMap_cons]
      cases rule.actionOn? name v with
      | none => rfl
      | some a => rfl

/-- The actions of commits can be read where those of the rule can. -/
theorem ActionsRead.exists_read {rule : BranchRule} (hread : rule.ActionsRead) {v : Visit}
    {e : String × String} (he : e ∈ rule.actionsFor v) : ∃ a, Action.read e.2 = .ok a := by
  rcases mem_of_mem_actionsFor he with hcommit | ⟨table, htable, hmerge⟩
  · exact exists_ok_of_isOk (hread.1 e.2 hcommit)
  · exact exists_ok_of_isOk (hread.2 table htable e.2 hmerge)

end BranchRule

namespace Replay

open VersionTrail.Action

/-- What exact arithmetic on each parameter says about a replay. -/
structure Exact (rule : BranchRule) (visits : List Visit) (ps : Parameters) : Prop where
  /-- A replay succeeds where each addition on each parameter can be computed. -/
  succeeds : (∃ final, (ofVisits rule visits ps).toExcept = .ok final) ↔
    ∀ name, Computable (ps.number? name) (rule.actionsOn visits name)
  /-- A parameter without actions keeps its text, or stays absent. -/
  untouched : ∀ {final count}, (ofVisits rule visits ps).toExcept = .ok (final, count) →
    ∀ name, rule.actionsOn visits name = [] → final.get? name = ps.get? name
  /-- Any other parameter has its exact number, which fits. -/
  computed : ∀ {final count}, (ofVisits rule visits ps).toExcept = .ok (final, count) →
    ∀ name, rule.actionsOn visits name ≠ [] →
      ∃ n, numberAfter (ps.number? name) (rule.actionsOn visits name) = some n ∧
        fits n = true ∧ final.get? name = some (toString n)
  /-- Every action counts. -/
  counted : ∀ {final count}, (ofVisits rule visits ps).toExcept = .ok (final, count) →
    count = (visits.dropLast.map fun v => (rule.tableFor v).size).sum
  /-- A replay that fails does so for a number. -/
  fails : ∀ {f}, (ofVisits rule visits ps).toExcept = .error f → ∃ fault, f = .numeric fault

theorem toExcept_eq_ok_iff {r : Replay} {ps : Parameters} {count : Nat} :
    r.toExcept = .ok (ps, count) ↔ r.failure = none ∧ r.parameters = ps ∧ r.applied = count := by
  obtain ⟨final, applied, failure⟩ := r
  cases failure with
  | none => simp [toExcept]
  | some f => simp [toExcept]

/-- A replay of a rule whose actions can be read computes exact numbers. -/
theorem exact_of_actionsRead {rule : BranchRule} (hread : rule.ActionsRead)
    (visits : List Visit) (ps : Parameters) : Exact rule visits ps := by
  have hactions : ∀ e ∈ visits.dropLast.reverse.flatMap rule.actionsFor,
      ∃ a, Action.read e.2 = .ok a := by
    intro e he
    obtain ⟨v, -, hv⟩ := List.mem_flatMap.mp he
    exact hread.exists_read hv
  have hon : ∀ name, actionsIn name (visits.dropLast.reverse.flatMap rule.actionsFor) =
      rule.actionsOn visits name :=
    fun name => rule.actionsIn_flatMap name visits.dropLast.reverse
  have hget := fun hok name => @get?_ofActions ps _ hactions hok name
  simp only [hon] at hget
  refine ⟨?_, ?_, ?_, ?_, ?_⟩
  · have hnone := @failure_ofActions_eq_none_iff ps _ hactions
    simp only [hon] at hnone
    rw [← hnone]
    constructor
    · rintro ⟨⟨final, count⟩, hok⟩
      exact (toExcept_eq_ok_iff.mp hok).1
    · intro hfailure
      exact ⟨_, toExcept_eq_ok_iff.mpr ⟨hfailure, rfl, rfl⟩⟩
  · intro final count hok name hnil
    obtain ⟨hfailure, rfl, -⟩ := toExcept_eq_ok_iff.mp hok
    rcases hget hfailure name with ⟨-, hsame⟩ | ⟨hsome, -⟩
    · exact hsame
    · contradiction
  · intro final count hok name hsome
    obtain ⟨hfailure, rfl, -⟩ := toExcept_eq_ok_iff.mp hok
    rcases hget hfailure name with ⟨hnil, -⟩ | ⟨-, hwritten⟩
    · contradiction
    · exact hwritten
  · intro final count hok
    obtain ⟨hfailure, -, rfl⟩ := toExcept_eq_ok_iff.mp hok
    rw [ofVisits] at hfailure ⊢
    rw [applied_ofActions hfailure, List.length_flatMap, List.map_reverse, List.sum_reverse]
    simp [OrderedMap.size]
  · intro f hfails
    exact numeric_of_toExcept_ofVisits (fun v e he => hread.exists_read he) hfails

/-- A merge and two commits above the source. -/
theorem exact_of_merge_and_commits :
    let rule : BranchRule :=
      { onCommit := .ofList [("patch", "+1")]
        onMerge := .ofList [("release", .ofList [("patch", "=0"), ("minor", "+1")])] }
    let plain : Commit := ⟨"c", "", "", "", default, 1⟩
    let merge : Commit := ⟨"m", "", "", "", default, 2⟩
    let visits : List Visit :=
      [{ commit := plain }, { commit := merge, fromRule := some "release" }, { commit := plain },
        { commit := plain }]
    let ps : Parameters := .ofList [("patch", " 9 "), ("minor", "4")]
    rule.ActionsRead ∧ Exact rule visits ps ∧
      (ofVisits rule visits ps).toExcept = .ok (.ofList [("patch", "1"), ("minor", "5")], 4) := by
  intro rule plain merge visits ps
  have hread : rule.ActionsRead := by decide +kernel
  exact ⟨hread, exact_of_actionsRead hread visits ps, by decide +kernel⟩

end Replay

end VersionTrail
