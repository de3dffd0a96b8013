/-
# Captures and replays

Captures are added one after the other behind what is there, up to the first one
whose name is taken, by a parameter or by an earlier capture. So captures with
pairwise distinct names become the parameters as they are, in their order; only a
repeated name is refused.

A replay goes on from what it has come to: actions behind others start from the
parameters that the others left, add to their count, and are not reached when one
of the others fails. Since commits are given with the newest one first and are
replayed from the oldest one on, the replay of a history is that of its older
commits and behind it that of the newer ones. The last commit of either part is
its source and has no share in it.

An action that can be read fails only for a number: the parameter holds none, or
the sum does not fit. A replay triggers only actions of its rule, so with
actions that can be read it fails for numbers alone.
-/
import VersionTrail.Bump
import VersionTrail.Proofs.OrderedMap
import VersionTrail.Proofs.Run

namespace VersionTrail.Parameters

/-- A new name goes to the end, and a name that is taken is refused. -/
theorem insertNew_cases (ps : Parameters) (name value : String) :
    (name ∉ ps.keys ∧ insertNew ps name value = .ok (ps.insert name value)) ∨
      name ∈ ps.keys ∧ insertNew ps name value = .error (.config (.capturedTwice name)) := by
  rw [insertNew]
  by_cases hname : name ∈ ps.keys
  · exact Or.inr ⟨hname, by simp [hname]⟩
  · exact Or.inl ⟨hname, by simp [hname]⟩

/-- Either all names are new and go to the end, or those in front of the first one
that is taken do. -/
theorem extendNew_cases (ps : Parameters) (captures : List (String × String)) :
    (∃ all, extendNew ps captures = (all, none) ∧ all.entries = ps.entries ++ captures) ∨
      ∃ front name value back stopped, captures = front ++ (name, value) :: back ∧
        extendNew ps captures = (stopped, some (.config (.capturedTwice name))) ∧
        stopped.entries = ps.entries ++ front ∧ name ∈ stopped.keys := by
  induction captures generalizing ps with
  | nil => exact Or.inl ⟨ps, rfl, (List.append_nil _).symm⟩
  | cons e rest ih =>
      obtain ⟨name, value⟩ := e
      rw [extendNew]
      rcases insertNew_cases ps name value with ⟨hname, hinsert⟩ | ⟨hname, hinsert⟩
      · have hentries (more : List (String × String)) :
            (ps.insert name value).entries ++ more = ps.entries ++ (name, value) :: more := by
          rw [OrderedMap.entries_insert_of_notMem value hname, List.append_assoc,
            List.singleton_append]
        rw [hinsert]
        rcases ih (ps.insert name value) with ⟨all, hall, hall'⟩ |
          ⟨front, taken, other, back, stopped, rfl, hstopped, hstopped', htaken⟩
        · exact Or.inl ⟨all, hall, hall'.trans (hentries rest)⟩
        · exact Or.inr ⟨(name, value) :: front, taken, other, back, stopped, rfl, hstopped,
            hstopped'.trans (hentries front), htaken⟩
      · rw [hinsert]
        exact Or.inr ⟨[], name, value, rest, ps, rfl, rfl, (List.append_nil _).symm, hname⟩

/-- New names go to the end, one after the other. -/
theorem extendNew_of_nodup {ps : Parameters} {captures : List (String × String)}
    (hnodup : ((ps.entries ++ captures).map Prod.fst).Nodup) :
    ∃ all, extendNew ps captures = (all, none) ∧ all.entries = ps.entries ++ captures := by
  rcases extendNew_cases ps captures with hall |
    ⟨front, name, value, back, stopped, rfl, -, hentries, hname⟩
  · exact hall
  · rw [OrderedMap.keys, hentries] at hname
    rw [← List.append_assoc, List.map_append, List.map_cons] at hnodup
    exact absurd rfl ((List.nodup_append.mp hnodup).2.2 name hname name List.mem_cons_self)

/-- Captures with distinct names are the parameters. -/
theorem ofCaptures_of_nodup {captures : List (String × String)}
    (hnodup : (captures.map Prod.fst).Nodup) :
    ∃ ps, ofCaptures captures = .ok ps ∧ ps.entries = captures := by
  have hempty : (((∅ : Parameters).entries ++ captures).map Prod.fst).Nodup := hnodup
  obtain ⟨ps, hextend, hentries⟩ := extendNew_of_nodup hempty
  refine ⟨ps, ?_, hentries⟩
  rw [ofCaptures, hextend]

end VersionTrail.Parameters

namespace VersionTrail

namespace Replay

/-- A replay that goes on from what it has come to, unless it failed. -/
def andThen (r : Replay) (next : Parameters → Replay) : Replay :=
  match r.failure with
  | some _ => r
  | none => { next r.parameters with applied := r.applied + (next r.parameters).applied }

/-- An action in front counts once, whatever follows. -/
theorem andThen_succ (r : Replay) (next : Parameters → Replay) :
    andThen { r with applied := r.applied + 1 } next =
      { r.andThen next with applied := (r.andThen next).applied + 1 } := by
  obtain ⟨ps, applied, failure⟩ := r
  cases failure with
  | some f => rfl
  | none =>
      simp only [andThen]
      rw [Nat.add_right_comm]

/-- Actions behind others start from what the others came to. -/
theorem ofActions_append (ps : Parameters) (es later : List (String × String)) :
    ofActions ps (es ++ later) = (ofActions ps es).andThen fun after => ofActions after later := by
  induction es generalizing ps with
  | nil =>
      show _ = { ofActions ps later with applied := 0 + (ofActions ps later).applied }
      rw [List.nil_append, Nat.zero_add]
  | cons e rest ih =>
      obtain ⟨name, action⟩ := e
      rw [List.cons_append, ofActions, ofActions]
      cases applyText ps name action with
      | error f => rfl
      | ok next =>
          dsimp only
          rw [ih next, ← andThen_succ]

variable (rule : BranchRule) (visits newer older : List Visit) (source source' : Visit)
variable (ps : Parameters)

/-- The commits above the source are replayed from the oldest one on, and the
source is not. -/
theorem ofVisits_concat :
    ofVisits rule (visits ++ [source]) ps =
      ofActions ps (visits.reverse.flatMap rule.actionsFor) := by
  rw [ofVisits, List.dropLast_concat]

/-- Replaying commits is replaying the older ones and then the newer ones on what
these came to, whichever commit ends the newer ones. With the source alone, or
with no commit at all, nothing is replayed. -/
theorem ofVisits_append :
    ofVisits rule (newer ++ older ++ [source]) ps =
        (ofVisits rule (older ++ [source]) ps).andThen
          (ofVisits rule (newer ++ [source'])) ∧
      ofVisits rule (newer ++ [source]) ps = ofVisits rule (newer ++ [source']) ps ∧
      ofVisits rule [source] ps = ⟨ps, 0, none⟩ ∧ ofVisits rule [] ps = ⟨ps, 0, none⟩ := by
  refine ⟨?_, ?_, rfl, rfl⟩
  · have hnewer : ofVisits rule (newer ++ [source']) = fun after =>
        ofActions after (newer.reverse.flatMap rule.actionsFor) :=
      funext fun after => ofVisits_concat rule newer source' after
    rw [hnewer, ofVisits_concat, ofVisits_concat, List.reverse_append, List.flatMap_append,
      ofActions_append]
  · rw [ofVisits_concat, ofVisits_concat]

/-- An action that cannot be read ends the replay where it stands, and what the
older commit did is kept. -/
example :
    let rule : BranchRule :=
      { onCommit := .ofList [("patch", "+1")],
        onMerge := .ofList [("*", .ofList [("minor", "one")])] }
    let commit : Visit := { commit := ⟨"a", "", "", "", default, 1⟩ }
    let merge : Visit := { commit := ⟨"b", "", "", "", default, 2⟩ }
    (ofVisits rule [commit, merge, commit, commit] ∅).parameters.entries = [("patch", "1")] ∧
      (ofVisits rule [commit, merge, commit, commit] ∅).applied = 1 ∧
      (ofVisits rule [commit, merge, commit, commit] ∅).failure =
        some (.config (.actionNotUnderstood "one")) := by
  decide +kernel

end Replay

namespace Parameters

theorem numeric_of_int? {ps : Parameters} {name : String} {f : Failure}
    (hint : ps.int? name = .error f) : ∃ fault, f = .numeric fault := by
  unfold int? at hint
  split at hint
  · cases hint
  · dsimp only at hint
    split at hint
    · cases hint
    · split at hint
      · cases hint
      · exact ⟨_, (Except.error.inj hint).symm⟩

end Parameters

theorem Action.numeric_of_apply {a : Action} {ps : Parameters} {name : String} {f : Failure}
    (happly : a.apply ps name = .error f) : ∃ fault, f = .numeric fault := by
  rw [Action.apply, bind_eq_error_iff] at happly
  rcases happly with hresult | ⟨n, -, hn⟩
  · cases a with
    | set n =>
        rw [Action.result] at hresult
        cases hresult
    | add n =>
        rw [Action.result, bind_eq_error_iff] at hresult
        rcases hresult with hint | ⟨current, -, hcurrent⟩
        · exact Parameters.numeric_of_int? hint
        · dsimp only at hcurrent
          split at hcurrent
          · cases hcurrent
          · exact ⟨_, (Except.error.inj hcurrent).symm⟩
  · cases hn

/-- The actions that a commit triggers are actions of the rule. -/
theorem BranchRule.mem_of_mem_actionsFor {rule : BranchRule} {v : Visit} {e : String × String}
    (hmem : e ∈ rule.actionsFor v) :
    e.2 ∈ rule.onCommit.values ∨ ∃ actions ∈ rule.onMerge.values, e.2 ∈ actions.values := by
  unfold actionsFor at hmem
  split at hmem
  · unfold mergeActions at hmem
    dsimp only at hmem
    split at hmem
    · rename_i actions hactions
      have hget : ∃ name, rule.onMerge.get? name = some actions := by
        cases hown : v.fromRule.bind rule.onMerge.get? with
        | none => exact ⟨fallbackRule, by simpa [hown] using hactions⟩
        | some own =>
            obtain ⟨name, -, hname⟩ := Option.bind_eq_some_iff.mp hown
            obtain rfl : own = actions := by simpa [hown] using hactions
            exact ⟨name, hname⟩
      obtain ⟨name, hname⟩ := hget
      exact Or.inr ⟨actions, List.mem_map_of_mem (OrderedMap.get?_eq_some_iff.mp hname),
        List.mem_map_of_mem hmem⟩
    · contradiction
  · exact Or.inl (List.mem_map_of_mem hmem)

namespace Replay

theorem numeric_of_ofActions {ps : Parameters} {actions : List (String × String)} {f : Failure}
    (hread : ∀ e ∈ actions, ∃ a, Action.read e.2 = .ok a)
    (hfailure : (ofActions ps actions).failure = some f) : ∃ fault, f = .numeric fault := by
  induction actions generalizing ps with
  | nil => contradiction
  | cons e rest ih =>
      obtain ⟨name, action⟩ := e
      obtain ⟨a, ha⟩ := hread (name, action) List.mem_cons_self
      rw [ofActions, applyText, bind_ok_eq ha] at hfailure
      cases happly : a.apply ps name with
      | error g =>
          rw [happly] at hfailure
          obtain rfl := Option.some.inj hfailure
          exact Action.numeric_of_apply happly
      | ok next =>
          rw [happly] at hfailure
          exact ih (fun later hlater => hread later (List.mem_cons_of_mem _ hlater)) hfailure

/-- Actions behind others start from what the others came to. -/
theorem toExcept_ofActions_append (ps : Parameters) (es later : List (String × String)) :
    (ofActions ps (es ++ later)).toExcept =
      match (ofActions ps es).toExcept with
      | .error f => .error f
      | .ok (after, n) =>
        (ofActions after later).toExcept.map fun (final, m) => (final, n + m) := by
  rw [ofActions_append]
  obtain ⟨after, n, failure⟩ := ofActions ps es
  cases failure with
  | some f => rfl
  | none =>
      simp only [andThen, toExcept]
      cases (ofActions after later).failure <;> rfl

/-- A commit on top of others is replayed last. -/
theorem toExcept_ofVisits_cons {rule : BranchRule} {visits : List Visit} (hsome : visits ≠ [])
    {ps after : Parameters} {n : Nat}
    (hvisits : (ofVisits rule visits ps).toExcept = .ok (after, n)) (v : Visit) :
    (ofVisits rule (v :: visits) ps).toExcept =
      (ofActions after (rule.actionsFor v)).toExcept.map fun (final, m) => (final, n + m) := by
  rw [ofVisits] at hvisits
  rw [ofVisits, List.dropLast_cons_of_ne_nil hsome, List.reverse_cons, List.flatMap_append,
    toExcept_ofActions_append, hvisits]
  simp

/-- A replay of a rule whose actions can be read fails only for a number. -/
theorem numeric_of_toExcept_ofVisits {rule : BranchRule} {visits : List Visit} {ps : Parameters}
    {f : Failure} (hread : ∀ v, ∀ e ∈ rule.actionsFor v, ∃ a, Action.read e.2 = .ok a)
    (hfailure : (ofVisits rule visits ps).toExcept = .error f) : ∃ fault, f = .numeric fault := by
  have hactions : (ofActions ps (visits.dropLast.reverse.flatMap rule.actionsFor)).failure =
      some f := by
    unfold toExcept at hfailure
    split at hfailure
    · rename_i g hg
      obtain rfl := Except.error.inj hfailure
      exact hg
    · contradiction
  refine numeric_of_ofActions (fun e he => ?_) hactions
  obtain ⟨v, -, hv⟩ := List.mem_flatMap.mp he
  exact hread v e hv

end Replay

end VersionTrail
