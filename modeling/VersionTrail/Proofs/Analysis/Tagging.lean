/-
# One more tag

A tag that is added behind all others changes the index at one place at most:
under the commit that it points at. So an analysis sees it only where the tag is
eligible, tags are looked for, and the commit was looked at before. There the
search ends at the newest such commit, and the commits above it are replayed as
before on what the tag captured.
-/
import VersionTrail.Proofs.Analysis.Resolving
import VersionTrail.Proofs.Bump.Exactness

namespace VersionTrail

open VersionTrail.History (Script)

namespace Criteria

variable (k : Criteria)

/-- Whether a tag can make a commit the source where tags are looked for. -/
def Eligible (t : Tag) : Prop :=
  (k.settings.tagMatch.annotatedOnly = true → t.annotated = true) ∧
    k.tagPattern.isMatch t.name = true

/-- Whether a source is one by a tag, with the named groups of the tag pattern
that are not blank as its parameters. -/
structure ByTag (t : Tag) (source : VersionSource) : Prop where
  kind : source.kind = .tag
  tag : source.visit.tag = some t
  captured : ∃ groups, k.tagPattern.captures? t.name = some groups ∧
    source.parameters.entries = k.tagPattern.groupNames.filterMap (TagScanner.capture? groups)

variable {k} {t : Tag} {cs : List Commit} {c d : Commit} {source : VersionSource}

theorem eligible_scanner_iff : k.scanner.Eligible t ↔ k.Eligible t :=
  Iff.rfl

/-- One more tag changes the index for its commit at most. -/
theorem get?_tagIndex_concat_of_ne {sha : String}
    (h : ¬ k.Eligible t ∨ .tag ∉ k.settings.order ∨ sha ≠ t.target) (tags : List Tag) :
    (k.tagIndex (tags ++ [t])).get? sha = (k.tagIndex tags).get? sha := by
  unfold tagIndex
  split
  case isFalse => rfl
  case isTrue htag =>
    cases hcandidate : k.scanner.candidate? t with
    | none => rw [TagScanner.scan_concat_of_not_candidate? hcandidate]
    | some candidate =>
        rw [TagScanner.scan_concat_of_candidate? hcandidate, OrderedMap.get?_insert]
        refine if_neg ?_
        rintro rfl
        rcases h with hnot | hnone | hne
        · rw [TagScanner.candidate?_of_not_eligible (mt eligible_scanner_iff.mp hnot)] at hcandidate
          contradiction
        · exact hnone htag
        · exact hne rfl

/-- An eligible tag that comes last is the candidate for its commit. -/
theorem exists_get?_tagIndex_concat (heligible : k.Eligible t) (htag : .tag ∈ k.settings.order)
    (tags : List Tag) :
    ∃ groups, k.tagPattern.captures? t.name = some groups ∧
      (k.tagIndex (tags ++ [t])).get? t.target =
        some ⟨t, k.tagPattern.groupNames.filterMap (TagScanner.capture? groups)⟩ := by
  obtain ⟨groups, hgroups, hcandidate⟩ :=
    TagScanner.exists_candidate?_of_eligible (eligible_scanner_iff.mpr heligible)
  refine ⟨groups, hgroups, ?_⟩
  rw [tagIndex, if_pos htag, TagScanner.scan_concat_of_candidate? hcandidate]
  simp [scanner]

/-- A tag that is not seen leaves the source where it is. -/
theorem Reaches.concat_of_ne {tags : List Tag} (h : k.Reaches (k.tagIndex tags) cs d source)
    (hunseen : ¬ k.Eligible t ∨ .tag ∉ k.settings.order ∨ ∀ c ∈ cs ++ [d], c.sha ≠ t.target) :
    k.Reaches (k.tagIndex (tags ++ [t])) cs d source := by
  have hget : ∀ c ∈ cs ++ [d],
      (k.tagIndex (tags ++ [t])).get? c.sha = (k.tagIndex tags).get? c.sha := by
    intro c hc
    exact get?_tagIndex_concat_of_ne
      (hunseen.imp_right fun h => h.imp_right fun hne => hne c hc) tags
  exact h.congr (fun c hc => hget c (List.mem_append_left [d] hc)) (hget d (by simp))

theorem le_length_of_getElem?_concat {j : Nat} (hat : (cs ++ [d])[j]? = some c) :
    j ≤ cs.length := by
  obtain ⟨hj, -⟩ := List.getElem?_eq_some_iff.mp hat
  rw [List.length_append, List.length_singleton] at hj
  exact Nat.le_of_lt_succ hj

/-- A walk can be taken apart at any commit that was looked at. -/
theorem exists_walk_of_getElem? {walk rest : List (Except Failure Commit)}
    (hwalk : walk = cs.map .ok ++ .ok d :: rest) {j : Nat} (hat : (cs ++ [d])[j]? = some c) :
    ∃ rest', walk = (cs.take j).map .ok ++ .ok c :: rest' := by
  obtain ⟨hj, hc⟩ := List.getElem?_eq_some_iff.mp hat
  have hle : j ≤ cs.length := le_length_of_getElem?_concat hat
  have hsplit : cs ++ [d] = cs.take j ++ c :: (cs ++ [d]).drop (j + 1) := by
    rw [← hc, ← List.drop_eq_getElem_cons hj, ← List.take_append_of_le_length hle,
      List.take_append_drop]
  refine ⟨((cs ++ [d]).drop (j + 1)).map .ok ++ rest, ?_⟩
  calc walk = (cs ++ [d]).map .ok ++ rest := by
        rw [hwalk, List.map_append, List.append_assoc, List.map_singleton, List.singleton_append]
    _ = (cs.take j ++ c :: (cs ++ [d]).drop (j + 1)).map .ok ++ rest := by rw [← hsplit]
    _ = _ := by rw [List.map_append, List.append_assoc, List.map_cons, List.cons_append]

/-- A tag on one of the commits looked at, and on none above it, makes it the
source; a commit above the old source is so by the tag alone. -/
theorem Reaches.exists_concat {tags : List Tag} (h : k.Reaches (k.tagIndex tags) cs d source)
    (heligible : k.Eligible t) (htag : .tag ∈ k.settings.order) {j : Nat}
    (hat : (cs ++ [d])[j]? = some c) (htarget : c.sha = t.target)
    (hfirst : ∀ e ∈ cs.take j, e.sha ≠ t.target) :
    ∃ found : VersionSource, k.Reaches (k.tagIndex (tags ++ [t])) (cs.take j) c found ∧
      (j < cs.length → k.ByTag t found) := by
  obtain ⟨groups, hgroups, hcandidate⟩ := exists_get?_tagIndex_concat heligible htag tags
  rw [← htarget] at hcandidate
  have hget : ∀ e ∈ cs.take j,
      (k.tagIndex (tags ++ [t])).get? e.sha = (k.tagIndex tags).get? e.sha :=
    fun e he => get?_tagIndex_concat_of_ne (Or.inr (Or.inr (hfirst e he))) tags
  have hqualifies : k.Qualifies (k.tagIndex (tags ++ [t])) c .tag :=
    ⟨htag, OrderedMap.mem_keys_of_get? hcandidate⟩
  obtain ⟨found, hends, hvisit, ⟨-, -, -, hkind, -⟩, hcaptured⟩ := exists_source_of_qualifies
    (fun _ _ => k.nodup_captures_of_tagIndex (tags ++ [t])) hqualifies
  refine ⟨found, ⟨?_, ⟨.tag, hqualifies⟩, hvisit, hends⟩, fun hj => ?_⟩
  · intro e he kind
    exact mt (qualifies_congr (hget e he) kind).mp (h.above e (List.mem_of_mem_take he) kind)
  · have hc : c ∈ cs := by
      rw [List.getElem?_append_left hj] at hat
      exact List.mem_of_getElem? hat
    unfold Captured at hcaptured
    cases hfound : found.kind with
    | tag =>
        rw [hfound] at hcaptured
        obtain ⟨candidate, hget, hfoundTag, hparameters⟩ := hcaptured
        obtain rfl := Option.some.inj (hget.symm.trans hcandidate)
        exact ⟨hfound, hfoundTag, groups, hgroups, hparameters⟩
    | merge =>
        -- A merge would have qualified before: that does not depend on the index.
        rw [hfound] at hkind
        exact absurd hkind (h.above c hc .merge)

end Criteria

namespace Tag

variable {t : Tag} {visits : List Visit} {j : Nat} {v : Visit}

/-- Whether the commit at a place is the first one that a tag points at. -/
structure PointsAt (t : Tag) (visits : List Visit) (j : Nat) (v : Visit) : Prop where
  visit_at : visits[j]? = some v
  target : v.commit.sha = t.target
  first : ∀ i < j, ∀ w, visits[i]? = some w → w.commit.sha ≠ t.target

theorem exists_pointsAt (h : ∃ v ∈ visits, v.commit.sha = t.target) :
    ∃ j v, t.PointsAt visits j v := by
  induction visits with
  | nil => simp at h
  | cons u rest ih =>
      by_cases hhere : u.commit.sha = t.target
      · exact ⟨0, u, rfl, hhere, fun i hi => absurd hi (Nat.not_lt_zero i)⟩
      · obtain ⟨v, hv, htarget⟩ := h
        have hrest : v ∈ rest := by
          rcases List.mem_cons.mp hv with rfl | hrest
          · exact absurd htarget hhere
          · exact hrest
        obtain ⟨j, w, hw⟩ := ih ⟨v, hrest, htarget⟩
        refine ⟨j + 1, w, hw.visit_at, hw.target, fun i hi x hx => ?_⟩
        cases i with
        | zero => rwa [← Option.some.inj hx]
        | succ i => exact hw.first i (Nat.lt_of_succ_lt_succ hi) x hx

theorem PointsAt.commit_at (h : t.PointsAt visits j v) :
    (visits.map Visit.commit)[j]? = some v.commit := by
  rw [List.getElem?_map, h.visit_at]
  rfl

theorem PointsAt.ne_of_mem_take (h : t.PointsAt visits j v) {c : Commit}
    (hc : c ∈ (visits.map Visit.commit).take j) : c.sha ≠ t.target := by
  obtain ⟨i, hi⟩ := List.mem_iff_getElem?.mp hc
  rw [List.getElem?_take] at hi
  split at hi
  case isTrue hlt =>
    rw [List.getElem?_map] at hi
    obtain ⟨w, hw, rfl⟩ := Option.map_eq_some_iff.mp hi
    exact h.first i hlt w hw
  case isFalse => contradiction

end Tag

/-- Where the search meets an eligible tag, it ends there. -/
theorem Criteria.Reaches.exists_outcome_addTag {k : Criteria} {s : Script} {cs : List Commit}
    {d : Commit} {source : VersionSource} {rest : List (Except Failure Commit)}
    (h : k.Reaches (k.tagIndex s.tags) cs d source)
    (hwalk : k.scriptWalk s = cs.map .ok ++ .ok d :: rest) {t : Tag} (heligible : k.Eligible t)
    (htag : .tag ∈ k.settings.order) {j : Nat} {v : Visit}
    (hpoints : t.PointsAt (cs.map k.merges.visit ++ [source.visit]) j v) :
    ∃ found : VersionSource,
      (resolveSource k.settings k.matcher (s.addTag t).toRepository s.branch).outcome =
        .ok ⟨found, s.path, s.branch,
          (cs.map k.merges.visit ++ [source.visit]).take j ++ [found.visit]⟩ ∧
      { found.visit with tag := none } = { v with tag := none } ∧
      (j < cs.length → k.ByTag t found) := by
  have hat : (cs ++ [d])[j]? = some v.commit := h.map_commit ▸ hpoints.commit_at
  have hj : j ≤ cs.length := le_length_of_getElem?_concat hat
  have hfirst : ∀ c ∈ cs.take j, c.sha ≠ t.target := by
    intro c hc
    apply hpoints.ne_of_mem_take
    rwa [h.map_commit, List.take_append_of_le_length hj]
  have htake : (cs.map k.merges.visit ++ [source.visit]).take j =
      (cs.take j).map k.merges.visit := by
    rw [List.take_append_of_le_length (by rwa [List.length_map]), List.map_take]
  obtain ⟨found, hreached, htagged⟩ :=
    h.exists_concat heligible htag hat hpoints.target hfirst
  have hnew : k.Reaches (k.tagIndex (s.addTag t).tags) (cs.take j) v.commit found := hreached
  obtain ⟨rest', hwalk'⟩ := exists_walk_of_getElem? hwalk hat
  refine ⟨found, ?_, ?_, htagged⟩
  · rw [htake]
    exact hnew.outcome_resolveSource hwalk' s.branch
  · rw [hreached.visit, h.untagged (List.mem_of_getElem? hpoints.visit_at)]

/-- What is found with one more tag `t` on the commit at the place `j` of an
analysis. -/
structure Analyzer.Retagged (a : Analyzer) (s : Script) (old : Resolved) (k : Criteria) (t : Tag)
    (j : Nat) (v : Visit) (r : Resolution) : Prop where
  found : (resolveSource k.settings k.matcher (s.addTag t).toRepository s.branch).outcome = .ok r
  repository : r.path = old.resolution.path ∧ r.branch = old.resolution.branch
  commit : r.source.visit.commit = v.commit
  /-- The commits are those from the newest one to the source; apart from the
  tag on the source they are told as before. -/
  visits : r.visits = old.resolution.visits.take j ++ [r.source.visit]
  visit : { r.source.visit with tag := none } = { v with tag := none }
  /-- A commit above the old source is the source by the new tag. -/
  tagged : j + 1 < old.resolution.visits.length → k.ByTag t r.source
  /-- The commits above the source are replayed on the captures. -/
  replayed : (a.resolve (s.addTag t).toRepository).outcome =
    (Replay.ofActions r.source.parameters
      ((old.resolution.visits.take j).reverse.flatMap fun w =>
        (old.rule.tableFor w).entries)).toExcept.map fun (ps, n) =>
          { old with resolution := r, parameters := ps, bumps := n }

/-- What an analysis that worked on a scripted history tells about the same
history with one more tag behind the others. -/
structure Analyzer.TagAdded (a : Analyzer) (s : Script) (old : Resolved) (k : Criteria) (t : Tag) :
    Prop where
  /-- A tag that is not eligible, not looked for, or not on a commit that was
  looked at changes nothing. -/
  unseen : ¬ k.Eligible t ∨ .tag ∉ old.rule.source.order ∨
      (∀ v ∈ old.resolution.visits, v.commit.sha ≠ t.target) →
    (a.resolve (s.addTag t).toRepository).outcome = .ok old
  /-- Any other tag makes the first commit that it points at the source. -/
  seen : k.Eligible t → .tag ∈ old.rule.source.order →
      (∃ v ∈ old.resolution.visits, v.commit.sha = t.target) →
    ∃ j v r, t.PointsAt old.resolution.visits j v ∧ a.Retagged s old k t j v r

/-- An analysis of a history with one more tag differs where the tag is met. -/
theorem Analyzer.tagAdded_of_resolve {a : Analyzer} {s : Script} {old : Resolved}
    (hold : (a.resolve s.toRepository).outcome = .ok old) :
    ∃ k, a.Selects s.branch old.ruleName old.rule k ∧ ∀ t, a.TagAdded s old k t := by
  obtain ⟨ruleName, rule, ⟨source, path, branch, visits⟩, parameters, bumps⟩ := old
  obtain ⟨k, cs, d, rest, hselects, hwalk, hreaches, hresolution, hreplay⟩ :=
    exists_reaches_of_resolve hold
  dsimp only at hselects hreaches hresolution hreplay
  obtain ⟨-, rfl, rfl, rfl⟩ := Resolution.mk.inj hresolution
  refine ⟨k, hselects, fun t => ⟨?_, ?_⟩⟩ <;> dsimp only <;> rw [← hselects.settings]
  · intro hunseen
    have hne : ¬ k.Eligible t ∨ .tag ∉ k.settings.order ∨
        ∀ c ∈ cs ++ [d], c.sha ≠ t.target := by
      refine hunseen.imp_right fun h => h.imp_right fun hvisits c hc => ?_
      rw [← hreaches.map_commit] at hc
      obtain ⟨v, hv, rfl⟩ := List.mem_map.mp hc
      exact hvisits v hv
    have hsame : k.Reaches (k.tagIndex (s.addTag t).tags) cs d source :=
      hreaches.concat_of_ne hne
    rw [hselects.outcome_resolve rfl (hsame.outcome_resolveSource hwalk s.branch), hreplay]
    rfl
  · intro heligible htag hmet
    obtain ⟨j, v, hpoints⟩ := Tag.exists_pointsAt hmet
    obtain ⟨found, houtcome, hvisit, htagged⟩ :=
      hreaches.exists_outcome_addTag hwalk heligible htag hpoints
    have hcommit := congrArg Visit.commit hvisit
    refine ⟨j, v, _, hpoints, houtcome, ⟨rfl, rfl⟩, hcommit, rfl, hvisit, ?_, ?_⟩
    · intro hbefore
      rw [List.length_append, List.length_map, List.length_singleton] at hbefore
      exact htagged (by omega)
    · rw [hselects.outcome_resolve rfl houtcome]
      simp [Replay.ofVisits]

/-- Two commits, the older one tagged, and a tag on the newer one. -/
theorem Analyzer.tagAdded_of_resolve_tagged :
    let rule : BranchRule :=
      { source := { tagMatch := { pattern := "v" }, mergeMatch := { endsPattern := "x" } }
        onCommit := .ofList [("patch", "+1")] }
    let a : Analyzer := { config := { branches := .ofList [(fallbackRule, rule)] } }
    let s : Script :=
      ((Script.commit { tags := [⟨"v", false, "", "a"⟩] } "a" "one").commit "b" "two")
    ∃ old, (a.resolve s.toRepository).outcome = .ok old ∧
      (∃ k, a.Selects s.branch old.ruleName old.rule k ∧ ∀ t, a.TagAdded s old k t) ∧
      old.resolution.source.visit.commit.sha = "a" ∧
      ((a.resolve (s.addTag ⟨"v2", false, "", "b"⟩).toRepository).outcome.toOption.map fun new =>
        new.resolution.source.visit.commit.sha) = some "b" := by
  intro rule a s
  obtain ⟨old, hold⟩ :=
    exists_ok_of_isOk (by decide +kernel : (a.resolve s.toRepository).outcome.isOk = true)
  have hsource : ((a.resolve s.toRepository).outcome.toOption.map fun old =>
      old.resolution.source.visit.commit.sha) = some "a" := by
    decide +kernel
  rw [hold] at hsource
  exact ⟨old, hold, Analyzer.tagAdded_of_resolve hold, Option.some.inj hsource, by decide +kernel⟩

end VersionTrail
