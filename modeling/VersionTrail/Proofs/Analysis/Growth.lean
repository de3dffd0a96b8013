/-
# One more commit

A history grows at its top. A commit that the walk does not see changes nothing.
One that the walk sees and that does not qualify leaves the source where it is
and adds one step to the replay: its own actions, on what the replay had come to
before. With a limit that the old commits already filled, the source is out of
reach. A commit that qualifies is the new source itself, with nothing to replay.
-/
import VersionTrail.Proofs.Analysis.Resolving
import VersionTrail.Proofs.Bump.Exactness

namespace VersionTrail

open VersionTrail.History (Script)

namespace Criteria

variable {k : Criteria} {s : Script} {cs : List Commit} {c d : Commit} {source : VersionSource}
variable {side : Bool} {rest : List (Except Failure Commit)}

theorem walk_push_of_hidden (hside : side = true) (e : Except Failure Commit) :
    (s.push ⟨side, e⟩).walk true = s.walk true := by
  rw [hside]
  rfl

theorem walk_push_of_visible {firstParentOnly : Bool}
    (hvisible : firstParentOnly = true → side = false) (e : Except Failure Commit) :
    (s.push ⟨side, e⟩).walk firstParentOnly = e :: s.walk firstParentOnly := by
  have hkept : (!(firstParentOnly && side)) = true := by
    cases firstParentOnly with
    | false => rfl
    | true => rw [hvisible rfl]; rfl
  have hfilter : (s.push ⟨side, e⟩).entries.filter (fun e => !(firstParentOnly && e.side)) =
      ⟨side, e⟩ :: s.entries.filter fun e => !(firstParentOnly && e.side) :=
    List.filter_cons_of_pos hkept
  rw [Script.walk, hfilter]
  rfl

/-- With room below the limit, a walk has one more commit at its front. -/
theorem exists_scriptWalk_push (hvisible : k.settings.firstParentOnly = true → side = false)
    {front : List (Except Failure Commit)} (hwalk : k.scriptWalk s = front ++ rest)
    (hroom : ∀ n, k.settings.maxCommits = some n → 0 < n → (front.length : Int) < n)
    (e : Except Failure Commit) :
    ∃ rest', k.scriptWalk (s.push ⟨side, e⟩) = e :: front ++ rest' := by
  rw [scriptWalk] at hwalk ⊢
  rw [walk_push_of_visible hvisible]
  rcases k.bounded_cases with hall | ⟨n, hn, hpos⟩
  · rw [hall] at hwalk ⊢
    exact ⟨rest, by rw [hwalk, List.cons_append]⟩
  · have hlt : front.length < n := by
      have := hroom n hn (by omega)
      omega
    obtain ⟨m, rfl⟩ := Nat.exists_eq_add_of_lt hlt
    rw [bounded_of_limit hn hpos] at hwalk ⊢
    refine ⟨rest.take m, ?_⟩
    have hbelow : (s.walk k.settings.firstParentOnly).take (front.length + m) =
        (front ++ rest).take (front.length + m) := by
      rw [← hwalk, List.take_take, Nat.min_eq_left (by omega)]
    rw [List.take_succ_cons, hbelow, List.take_append, List.take_of_length_le (by omega),
      Nat.add_sub_cancel_left, List.cons_append]

/-- With a limit that the walk fills, the last commit falls off. -/
theorem scriptWalk_push_of_full (hvisible : k.settings.firstParentOnly = true → side = false)
    {front : List (Except Failure Commit)} {last : Except Failure Commit}
    (hwalk : k.scriptWalk s = front ++ last :: rest)
    (hfull : k.settings.maxCommits = some (front.length + 1)) (e : Except Failure Commit) :
    k.scriptWalk (s.push ⟨side, e⟩) = e :: front := by
  have hlimit : k.settings.maxCommits = some ((front.length + 1 : Nat) : Int) := hfull
  rw [scriptWalk, bounded_of_limit hlimit (Nat.succ_pos _)] at hwalk ⊢
  rw [walk_push_of_visible hvisible, List.take_succ_cons]
  have hbelow : (s.walk k.settings.firstParentOnly).take front.length =
      (front ++ last :: rest).take front.length := by
    rw [← hwalk, List.take_take, Nat.min_eq_left (by omega)]
  rw [hbelow, List.take_left]

/-- A commit that the walk does not see has no part in the search. -/
theorem resolveSource_push_of_hidden (hside : side = true)
    (hhidden : k.settings.firstParentOnly = true) (e : Except Failure Commit) (branch : String) :
    resolveSource k.settings k.matcher (s.push ⟨side, e⟩).toRepository branch =
      resolveSource k.settings k.matcher s.toRepository branch := by
  obtain ⟨warnings, hindexed⟩ := k.exists_indexed_toRepository s
  have hindexed' : k.indexed (s.push ⟨side, e⟩).toRepository =
      .ok (k.tagIndex s.tags, warnings) := hindexed
  have hwalked : k.walked s.toRepository = .ok (k.scriptWalk s) := rfl
  have hwalked' : k.walked (s.push ⟨side, e⟩).toRepository = .ok (k.scriptWalk s) := by
    show Except.ok (k.bounded _) = Except.ok (k.bounded _)
    rw [hhidden, walk_push_of_hidden hside]
  rw [resolveSource_eq hindexed hwalked, resolveSource_eq hindexed' hwalked']
  rfl

/-- A commit on top that does not qualify leaves the source where it is. -/
theorem Reaches.outcome_resolveSource_push (h : k.Reaches (k.tagIndex s.tags) cs d source)
    (hwalk : k.scriptWalk s = cs.map .ok ++ .ok d :: rest)
    (hvisible : k.settings.firstParentOnly = true → side = false)
    (hc : ∀ kind, ¬ k.Qualifies (k.tagIndex s.tags) c kind)
    (hroom : ∀ n, k.settings.maxCommits = some n → 0 < n → (cs.length + 1 : Int) < n)
    (branch : String) :
    (resolveSource k.settings k.matcher (s.push ⟨side, .ok c⟩).toRepository branch).outcome =
      .ok ⟨source, s.path, branch,
        k.merges.visit c :: (cs.map k.merges.visit ++ [source.visit])⟩ := by
  have hreaches : k.Reaches (k.tagIndex (s.push ⟨side, .ok c⟩).tags) (c :: cs) d source :=
    ⟨List.forall_mem_cons.mpr ⟨hc, h.above⟩, h.qualifies, h.visit, h.ends⟩
  have hfront : k.scriptWalk s = (cs.map .ok ++ [.ok d]) ++ rest := by
    rw [hwalk, List.append_assoc, List.singleton_append]
  obtain ⟨rest', hpushed⟩ := exists_scriptWalk_push hvisible hfront (by simpa using hroom) (.ok c)
  have hpushed' : k.scriptWalk (s.push ⟨side, .ok c⟩) = (c :: cs).map .ok ++ .ok d :: rest' := by
    rw [hpushed, List.cons_append, List.append_assoc, List.singleton_append, List.map_cons,
      List.cons_append]
  exact hreaches.outcome_resolveSource hpushed' branch

/-- Where the walk fills the limit, a commit on top that does not qualify puts
the source out of reach. -/
theorem Reaches.outcome_resolveSource_push_of_full (h : k.Reaches (k.tagIndex s.tags) cs d source)
    (hwalk : k.scriptWalk s = cs.map .ok ++ .ok d :: rest)
    (hvisible : k.settings.firstParentOnly = true → side = false)
    (hc : ∀ kind, ¬ k.Qualifies (k.tagIndex s.tags) c kind)
    (hfull : k.settings.maxCommits = some (cs.length + 1 : Int)) (branch : String) :
    (resolveSource k.settings k.matcher (s.push ⟨side, .ok c⟩).toRepository branch).outcome =
      .error (.sourceNotFound branch (cs.length + 1)) := by
  have hpushed : k.scriptWalk (s.push ⟨side, .ok c⟩) = (c :: cs).map .ok := by
    rw [scriptWalk_push_of_full hvisible hwalk (by simpa using hfull), List.map_cons]
  have hnone : ∀ other ∈ c :: cs, ∀ kind,
      ¬ k.Qualifies (k.tagIndex (s.push ⟨side, .ok c⟩).tags) other kind :=
    List.forall_mem_cons.mpr ⟨hc, h.above⟩
  exact outcome_resolveSource_of_not_qualifies hnone hpushed branch

/-- A commit on top that qualifies is the source. -/
theorem exists_source_of_push (hvisible : k.settings.firstParentOnly = true → side = false)
    {kind : SourceKind} (hc : k.Qualifies (k.tagIndex s.tags) c kind) (branch : String) :
    ∃ source : VersionSource,
      (resolveSource k.settings k.matcher (s.push ⟨side, .ok c⟩).toRepository branch).outcome =
        .ok ⟨source, s.path, branch, [source.visit]⟩ ∧
      source.visit.commit = c ∧ k.Captured (k.tagIndex s.tags) c source := by
  obtain ⟨source, hends, hvisit, -, hcaptured⟩ := exists_source_of_qualifies
    (fun _ _ => k.nodup_captures_of_tagIndex s.tags) hc
  have hreaches : k.Reaches (k.tagIndex (s.push ⟨side, .ok c⟩).tags) [] c source :=
    ⟨by simp, ⟨kind, hc⟩, hvisit, hends⟩
  obtain ⟨rest, hpushed⟩ : ∃ rest, k.scriptWalk (s.push ⟨side, .ok c⟩) = .ok c :: rest := by
    rw [scriptWalk, walk_push_of_visible hvisible]
    rcases k.bounded_cases with hall | ⟨n, hn, hpos⟩
    · exact ⟨_, hall _⟩
    · rw [bounded_of_limit hn hpos, ← Nat.sub_add_cancel hpos, List.take_succ_cons]
      exact ⟨_, rfl⟩
  exact ⟨source, hreaches.outcome_resolveSource hpushed branch, (fields_of_visit hvisit).1,
    hcaptured⟩

end Criteria

/-- What an analysis that worked on a scripted history tells about the same
history with one more commit on top. -/
structure Analyzer.CommitAdded (a : Analyzer) (s : Script) (old : Resolved) (k : Criteria)
    (side : Bool) (c : Commit) : Prop where
  /-- A commit that is not seen changes nothing. -/
  hidden : side = true → old.rule.source.firstParentOnly = true →
    a.resolve (s.push ⟨side, .ok c⟩).toRepository = a.resolve s.toRepository
  /-- A commit that is seen and does not qualify adds its own actions to the
  replay, and the replay fails where these fail. -/
  replayed : (old.rule.source.firstParentOnly = true → side = false) →
    (∀ kind, ¬ k.Qualifies (k.tagIndex s.tags) c kind) →
    (∀ n, old.rule.source.maxCommits = some n → 0 < n → (old.resolution.visits.length : Int) < n) →
    (a.resolve (s.push ⟨side, .ok c⟩).toRepository).outcome =
      (Replay.ofActions old.parameters
        (old.rule.tableFor (k.merges.visit c)).entries).toExcept.map fun (ps, n) =>
          { old with
            resolution :=
              { old.resolution with visits := k.merges.visit c :: old.resolution.visits }
            parameters := ps
            bumps := old.bumps + n }
  /-- Where the old commits fill the limit, the source is out of reach. -/
  lost : (old.rule.source.firstParentOnly = true → side = false) →
    (∀ kind, ¬ k.Qualifies (k.tagIndex s.tags) c kind) →
    old.rule.source.maxCommits = some (old.resolution.visits.length : Int) →
    (a.resolve (s.push ⟨side, .ok c⟩).toRepository).outcome =
      .error (.sourceNotFound s.branch old.resolution.visits.length)
  /-- A commit that qualifies is the source. -/
  source : (old.rule.source.firstParentOnly = true → side = false) →
    ∀ kind, k.Qualifies (k.tagIndex s.tags) c kind →
    ∃ r, r.visits = [r.source.visit] ∧ r.source.visit.commit = c ∧
      k.Captured (k.tagIndex s.tags) c r.source ∧
      (a.resolve (s.push ⟨side, .ok c⟩).toRepository).outcome =
        .ok { old with resolution := r, parameters := r.source.parameters, bumps := 0 }

/-- An analysis of a history with one more commit takes one more step. -/
theorem Analyzer.commitAdded_of_resolve {a : Analyzer} {s : Script} {old : Resolved}
    (hold : (a.resolve s.toRepository).outcome = .ok old) :
    ∃ k, a.Selects s.branch old.ruleName old.rule k ∧ ∀ side c, a.CommitAdded s old k side c := by
  obtain ⟨ruleName, rule, ⟨source, path, branch, visits⟩, parameters, bumps⟩ := old
  obtain ⟨k, cs, d, rest, hselects, hwalk, hreaches, hresolution, hreplay⟩ :=
    exists_reaches_of_resolve hold
  dsimp only at hselects hreaches hresolution hreplay
  obtain ⟨-, rfl, rfl, rfl⟩ := Resolution.mk.inj hresolution
  have hlength : (cs.map k.merges.visit ++ [source.visit]).length = cs.length + 1 := by simp
  refine ⟨k, hselects, fun side c => ⟨?_, ?_, ?_, ?_⟩⟩ <;> dsimp only <;> rw [← hselects.settings]
  · intro hside hhidden
    rw [hselects.resolve_eq rfl, hselects.resolve_eq rfl]
    exact congrArg (· >>= _) (Criteria.resolveSource_push_of_hidden hside hhidden _ _)
  · intro hvisible hc hroom
    rw [hlength] at hroom
    have hpushed := hreaches.outcome_resolveSource_push hwalk hvisible hc hroom s.branch
    have hlater := Replay.toExcept_ofVisits_cons (by simp) hreplay (k.merges.visit c)
    rw [hselects.outcome_resolve rfl hpushed, hlater, BranchRule.entries_tableFor]
    cases (Replay.ofActions parameters (rule.actionsFor (k.merges.visit c))).toExcept with
    | error f => rfl
    | ok done => rfl
  · intro hvisible hc hfull
    rw [hlength] at hfull ⊢
    have hpushed := hreaches.outcome_resolveSource_push_of_full hwalk hvisible hc hfull s.branch
    exact hselects.outcome_resolve_of_error rfl hpushed
  · intro hvisible kind hc
    obtain ⟨source, hpushed, hcommit, hcaptured⟩ :=
      Criteria.exists_source_of_push hvisible hc s.branch
    refine ⟨⟨source, s.path, s.branch, [source.visit]⟩, rfl, hcommit, hcaptured, ?_⟩
    rw [hselects.outcome_resolve rfl hpushed]
    rfl

/-- A tagged commit, and a second commit on top of it. -/
theorem Analyzer.commitAdded_of_resolve_tagged :
    let rule : BranchRule :=
      { source := { tagMatch := { pattern := "v" }, mergeMatch := { endsPattern := "x" } }
        onCommit := .ofList [("patch", "+1")] }
    let a : Analyzer := { config := { branches := .ofList [(fallbackRule, rule)] } }
    let s : Script := (Script.commit { tags := [⟨"v", false, "", "a"⟩] } "a" "one")
    ∃ old, (a.resolve s.toRepository).outcome = .ok old ∧
      (∃ k, a.Selects s.branch old.ruleName old.rule k ∧ ∀ side c, a.CommitAdded s old k side c) ∧
      ((a.resolve (s.commit "b" "two").toRepository).outcome.toOption.map fun new =>
        new.parameters.entries) = some [("patch", "1")] := by
  intro rule a s
  obtain ⟨old, hold⟩ :=
    exists_ok_of_isOk (by decide +kernel : (a.resolve s.toRepository).outcome.isOk = true)
  exact ⟨old, hold, Analyzer.commitAdded_of_resolve hold, by decide +kernel⟩

end VersionTrail
