/-
# Along first parents and through the whole history

A walk along first parents leaves the side commits out. So what it finds is there
in the whole history too, and a search of the whole history can only end sooner:
at a side commit that qualifies. Where there is none above the source, both
searches end at the same commit, and the shorter list of commits is the longer one
without the side commits.

Places are those of the script, so that the two searches can be compared although
they count differently: the entries in front of a place are split into those that
the walk along first parents keeps and the side commits.
-/
import VersionTrail.Proofs.Source.Stability

namespace VersionTrail

open VersionTrail.History (Script Entry)

namespace History.Script

/-- Whether every entry stands for a commit that can be read. -/
def Readable (s : Script) : Prop :=
  ∀ e ∈ s.entries, ∃ c, e.commit = .ok c

/-- What is left of the visits to the newest entries without those to side
commits. -/
def withoutSides (s : Script) (visits : List Visit) : List Visit :=
  ((s.entries.zip visits).filter fun (e, _) => !e.side).map Prod.snd

end History.Script

/-- Whether a resolution has its source at a place of a script, and has looked at
what the walk sees down to that place and no further. -/
structure Resolution.EndsAt (r : Resolution) (s : Script) (firstParentOnly : Bool) (i : Nat) :
    Prop where
  source : ∃ e, s.entries[i]? = some e ∧ (firstParentOnly = true → e.side = false) ∧
    e.commit = .ok r.source.visit.commit
  visits : (r.visits.map fun v => .ok v.commit) =
    { s with entries := s.entries.take (i + 1) }.walk firstParentOnly

namespace Criteria

variable (k : Criteria)

/-- The criteria with the walk that is asked for. -/
def withWalk (firstParentOnly : Bool) : Criteria :=
  { k with settings := { k.settings with firstParentOnly } }

/-- Whether no side commit above a place of a script qualifies. -/
def PassesSides (s : Script) (i : Nat) : Prop :=
  ∀ e ∈ s.entries.take i, e.side = true →
    ∀ c, e.commit = .ok c → ∀ kind, ¬ k.Qualifies (k.tagIndex s.tags) c kind

/-- How what a search of the whole history finds lies to what a search along first
parents has found, with the places of both sources. -/
structure WholeAgrees (s : Script) (branch : String) (r r' : Resolution) (i j : Nat) : Prop where
  found : (resolveSource { k.settings with firstParentOnly := false } k.matcher s.toRepository
    branch).outcome = .ok r'
  place : r.EndsAt s true i
  place' : r'.EndsAt s false j
  no_older : j ≤ i
  /-- Without a side commit that qualifies, the source is the same and all that is
  told of it, and the commits looked at are the same but for the side commits. -/
  same : k.PassesSides s i → j = i ∧ r'.source = r.source ∧ r.visits = s.withoutSides r'.visits

variable {k} {s : Script} {cs ds : List Commit} {c d : Commit} {source : VersionSource}
variable {front back : List Entry} {e : Entry} {rest : List (Except Failure Commit)}

theorem walk_false (s : Script) : s.walk false = s.entries.map Entry.commit := by
  have hall : s.entries.filter (fun e => !(false && e.side)) = s.entries :=
    List.filter_eq_self.mpr fun _ _ => rfl
  rw [Script.walk, hall]

/-- A commit that a walk along first parents sees is one of the entries. -/
theorem exists_entries_of_walk (hwalk : s.walk true = cs.map .ok ++ .ok c :: rest) :
    ∃ front e back, s.entries = front ++ e :: back ∧ e.side = false ∧ e.commit = .ok c ∧
      (front.filter fun e => !e.side).map Entry.commit = cs.map .ok := by
  obtain ⟨kept, others, hkept, hcs, hothers⟩ := List.map_eq_append_iff.mp hwalk
  obtain ⟨e, later, rfl, hc, -⟩ := List.map_eq_cons_iff.mp hothers
  obtain ⟨front, behind, hentries, hfront, hbehind⟩ := List.filter_eq_append_iff.mp hkept
  obtain ⟨sides, back, rfl, hsides, he, -⟩ := List.filter_eq_cons_iff.mp hbehind
  refine ⟨front ++ sides, e, back, by rw [hentries, List.append_assoc], ?_, hc, ?_⟩
  · simpa using he
  · have hnone : sides.filter (fun e => !e.side) = [] :=
      List.filter_eq_nil_iff.mpr hsides
    rw [List.filter_append, hnone, List.append_nil, ← hcs, ← hfront]
    rfl

theorem exists_commits_of_readable (hread : ∀ e ∈ front, ∃ c, e.commit = .ok c) :
    ∃ ds : List Commit, front.map Entry.commit = ds.map .ok := by
  induction front with
  | nil => exact ⟨[], rfl⟩
  | cons e front ih =>
      obtain ⟨⟨d, hd⟩, hfront⟩ := List.forall_mem_cons.mp hread
      obtain ⟨ds, hds⟩ := ih hfront
      exact ⟨d :: ds, by rw [List.map_cons, hd, hds, List.map_cons]⟩

/-- The commits that are no side commits are visited in both walks. -/
theorem visits_of_entries (visit : Commit → Visit) (hds : front.map Entry.commit = ds.map .ok)
    (hcs : (front.filter fun e => !e.side).map Entry.commit = cs.map .ok) :
    ((front.zip (ds.map visit)).filter fun (e, _) => !e.side).map Prod.snd = cs.map visit := by
  induction front generalizing ds cs with
  | nil =>
      obtain rfl : cs = [] := by simpa using hcs.symm
      rfl
  | cons e front ih =>
      obtain ⟨d, ds, rfl, hd, hlater⟩ := List.map_eq_cons_iff.mp hds.symm
      rw [List.map_cons, List.zip_cons_cons]
      cases hside : e.side with
      | true =>
          rw [List.filter_cons_of_neg (by simp [hside])] at hcs ⊢
          exact ih hlater.symm hcs
      | false =>
          rw [List.filter_cons_of_pos (by simp [hside])] at hcs ⊢
          obtain ⟨c, cs, rfl, hc, hkept⟩ := List.map_eq_cons_iff.mp hcs.symm
          obtain rfl : c = d := Except.ok.inj (hc.trans hd.symm)
          rw [List.map_cons, List.map_cons, ih hlater.symm hkept.symm]

theorem scriptWalk_of_unlimited (hunlimited : ∀ n, k.settings.maxCommits = some n → n ≤ 0)
    (s : Script) : k.scriptWalk s = s.walk k.settings.firstParentOnly :=
  bounded_withLimit_of_unlimited (k := k) hunlimited _

theorem Reaches.withWalk {index : TagIndex} (h : k.Reaches index cs c source)
    (firstParentOnly : Bool) : (k.withWalk firstParentOnly).Reaches index cs c source :=
  ⟨h.above, h.qualifies, h.visit, h.ends⟩

/-- A source that is reached in the whole history is found there. -/
theorem Reaches.exists_endsAt (h : k.Reaches (k.tagIndex s.tags) cs c source)
    (hunlimited : ∀ n, k.settings.maxCommits = some n → n ≤ 0)
    (hwalk : s.entries.map Entry.commit = cs.map .ok ++ .ok c :: rest) (branch : String) :
    ∃ r : Resolution,
      (resolveSource { k.settings with firstParentOnly := false } k.matcher s.toRepository
        branch).outcome = .ok r ∧
      r.EndsAt s false cs.length ∧ r.source = source ∧
      r.visits = cs.map k.merges.visit ++ [source.visit] := by
  have hfull : (k.withWalk false).scriptWalk s = cs.map .ok ++ .ok c :: rest :=
    (scriptWalk_of_unlimited (k := k.withWalk false) hunlimited s).trans
      ((walk_false s).trans hwalk)
  refine ⟨_, (h.withWalk false).outcome_resolveSource hfull branch, ⟨?_, ?_⟩, rfl, rfl⟩
  · have hplace : (s.entries.map Entry.commit)[cs.length]? = some (.ok c) := by
      rw [hwalk, List.getElem?_append_right (by simp), List.length_map, Nat.sub_self]
      rfl
    rw [List.getElem?_map, Option.map_eq_some_iff] at hplace
    obtain ⟨e, he, hc⟩ := hplace
    refine ⟨e, he, nofun, ?_⟩
    rw [(fields_of_visit h.visit).1, hc]
  · have hcommits := congrArg (List.map (Except.ok (ε := Failure))) h.map_commit
    rw [List.map_map] at hcommits
    refine hcommits.trans ?_
    rw [walk_false, List.map_take, hwalk, List.map_append, List.take_append, List.length_map,
      Nat.add_sub_cancel_left, List.take_of_length_le (by simp)]
    rfl

/-- The whole history above the source, if no side commit in it qualifies. -/
theorem Reaches.of_passesSides (h : k.Reaches (k.tagIndex s.tags) cs c source)
    (hentries : s.entries = front ++ e :: back) (hds : front.map Entry.commit = ds.map .ok)
    (hcs : (front.filter fun e => !e.side).map Entry.commit = cs.map .ok)
    (hsides : k.PassesSides s front.length) : k.Reaches (k.tagIndex s.tags) ds c source where
  above := by
    intro d hd
    have hmem : Except.ok d ∈ front.map Entry.commit := by
      rw [hds]
      exact List.mem_map_of_mem hd
    obtain ⟨other, hother, hcommit⟩ := List.mem_map.mp hmem
    cases hside : other.side with
    | true =>
        have htake : other ∈ s.entries.take front.length := by
          rw [hentries, List.take_left]
          exact hother
        exact hsides other htake hside d hcommit
    | false =>
        have hkept : Except.ok d ∈ (front.filter fun e => !e.side).map Entry.commit :=
          List.mem_map.mpr ⟨other, List.mem_filter.mpr ⟨hother, by simp [hside]⟩, hcommit⟩
        rw [hcs] at hkept
        obtain ⟨_, hmem, heq⟩ := List.mem_map.mp hkept
        exact h.above d (Except.ok.inj heq ▸ hmem)
  qualifies := h.qualifies
  visit := h.visit
  ends := h.ends

/-- A source that is found along first parents is an entry of the script. -/
theorem Reaches.endsAt {r : Resolution} (h : k.Reaches (k.tagIndex s.tags) cs c r.source)
    (hvisits : r.visits = cs.map k.merges.visit ++ [r.source.visit])
    (hentries : s.entries = front ++ e :: back) (he : e.side = false) (hc : e.commit = .ok c)
    (hcs : (front.filter fun e => !e.side).map Entry.commit = cs.map .ok) :
    r.EndsAt s true front.length where
  source := by
    refine ⟨e, ?_, fun _ => he, by rw [hc, (fields_of_visit h.visit).1]⟩
    rw [hentries, List.getElem?_append_right (Nat.le_refl _), Nat.sub_self]
    rfl
  visits := by
    have hcommits := congrArg (List.map (Except.ok (ε := Failure))) h.map_commit
    have htake : s.entries.take (front.length + 1) = front ++ [e] := by
      rw [hentries, List.take_length_add_append]
      rfl
    have hfilter : (front ++ [e]).filter (fun e => !(true && e.side)) =
        (front.filter fun e => !e.side) ++ [e] := by
      rw [List.filter_append, List.filter_cons_of_pos (by simp [he])]
      rfl
    rw [List.map_map, ← hvisits] at hcommits
    refine hcommits.trans ?_
    rw [Script.walk, htake, hfilter, List.map_append, List.map_append, hcs, List.map_singleton,
      List.map_singleton, hc]

/-- The visits above a source without those to side commits. -/
theorem withoutSides_visits (hentries : s.entries = front ++ e :: back) (he : e.side = false)
    (hds : front.map Entry.commit = ds.map .ok)
    (hcs : (front.filter fun e => !e.side).map Entry.commit = cs.map .ok)
    (visit : Commit → Visit) (last : Visit) :
    s.withoutSides (ds.map visit ++ [last]) = cs.map visit ++ [last] := by
  have hlength : front.length = (ds.map visit).length := by
    simpa using congrArg List.length hds
  have hlast : [(e, last)].filter (fun (e, _) => !e.side) = [(e, last)] :=
    List.filter_cons_of_pos (by simp [he])
  rw [Script.withoutSides, hentries, List.zip_append hlength, List.zip_cons_cons,
    List.zip_nil_right, List.filter_append, hlast, List.map_append, visits_of_entries visit hds hcs]
  rfl

/-- Where a commit qualifies, the search of the whole history ends there or above
it. -/
theorem exists_endsAt_of_qualifies {kind : SourceKind}
    (hkind : k.Qualifies (k.tagIndex s.tags) c kind)
    (hunlimited : ∀ n, k.settings.maxCommits = some n → n ≤ 0)
    (hwhole : s.entries.map Entry.commit = ds.map .ok ++ .ok c :: rest) (branch : String) :
    ∃ (j : Nat) (r : Resolution), j ≤ ds.length ∧
      (resolveSource { k.settings with firstParentOnly := false } k.matcher s.toRepository
        branch).outcome = .ok r ∧ r.EndsAt s false j := by
  obtain ⟨above, d, source, hbeginning, hreaches⟩ :=
    exists_reaches_of_qualifies (fun _ _ => k.nodup_captures_of_tagIndex s.tags) hkind ds
  obtain ⟨rest', hrest⟩ := exists_rest_of_prefix hbeginning rest
  obtain ⟨r, hfound, hends, -, -⟩ := hreaches.exists_endsAt hunlimited (hwhole.trans hrest) branch
  have hlength : above.length ≤ ds.length := by
    simpa using hbeginning.length_le
  exact ⟨above.length, r, hlength, hfound, hends⟩

/-- What is found along first parents is found in the whole history, or something
above it. It is the same source where no side commit above it qualifies, and then
the commits looked at differ by the side commits alone. -/
theorem resolveSource_of_firstParents {settings : SourceSettings} {matcher : BranchMatcher}
    {branch : String} {r : Resolution} (hread : s.Readable)
    (hunlimited : ∀ n, settings.maxCommits = some n → n ≤ 0)
    (hfound : (resolveSource { settings with firstParentOnly := true } matcher s.toRepository
      branch).outcome = .ok r) :
    ∃ (k : Criteria) (r' : Resolution) (i j : Nat), k.settings = settings ∧ k.matcher = matcher ∧
      k.WholeAgrees s branch r r' i j := by
  obtain ⟨k, rfl, rfl⟩ : ∃ k : Criteria, k.settings = settings ∧ k.matcher = matcher := by
    obtain ⟨k, hsettings, hmatcher⟩ := exists_criteria_of_resolveSource hfound
    refine ⟨k.withWalk settings.firstParentOnly, ?_, hmatcher⟩
    show { k.settings with firstParentOnly := settings.firstParentOnly } = settings
    rw [hsettings]
  obtain ⟨cs, c, rest, hwalk, hreaches, hr⟩ :=
    exists_reaches_of_resolveSource (k := k.withWalk true) hfound
  have hreaches : k.Reaches (k.tagIndex s.tags) cs c r.source := hreaches.withWalk _
  have hvisits : r.visits = cs.map k.merges.visit ++ [r.source.visit] :=
    congrArg Resolution.visits hr
  rw [scriptWalk_of_unlimited (k := k.withWalk true) hunlimited] at hwalk
  obtain ⟨front, e, back, hentries, he, hc, hcs⟩ := exists_entries_of_walk hwalk
  obtain ⟨ds, hds⟩ := exists_commits_of_readable
    fun other (hother : other ∈ front) => hread other (by simp [hentries, hother])
  have hwhole : s.entries.map Entry.commit = ds.map .ok ++ .ok c :: back.map Entry.commit := by
    rw [hentries, List.map_append, List.map_cons, hds, hc]
  have hlength : ds.length = front.length := by
    simpa using (congrArg List.length hds).symm
  have hends := hreaches.endsAt hvisits hentries he hc hcs
  by_cases hsides : k.PassesSides s front.length
  · obtain ⟨r', hfound', hends', hsource, hvisits'⟩ :=
      (hreaches.of_passesSides hentries hds hcs hsides).exists_endsAt hunlimited hwhole branch
    refine ⟨k, r', front.length, ds.length, rfl, rfl, hfound', hends, hends', hlength.le,
      fun _ => ⟨hlength, hsource, ?_⟩⟩
    rw [hvisits', withoutSides_visits hentries he hds hcs, hvisits]
  · obtain ⟨kind, hkind⟩ := hreaches.qualifies
    obtain ⟨j, r', hle, hfound', hends'⟩ :=
      exists_endsAt_of_qualifies hkind hunlimited hwhole branch
    exact ⟨k, r', front.length, j, rfl, rfl, hfound', hends, hends', hle.trans hlength.le,
      fun hpasses => absurd hpasses hsides⟩

/-- A side commit between a merge and the source is looked at in the whole history
alone, and is the source there as soon as it has a tag. -/
theorem resolveSource_of_firstParents_merge :
    let settings : SourceSettings :=
      { tagMatch := { pattern := "v" }, mergeMatch := { endsPattern := "x" } }
    let matcher : BranchMatcher := ⟨∅, []⟩
    let s : Script :=
      (((Script.commit { tags := [⟨"v", false, "", "a"⟩] } "a" "").sideCommit "b" "").merge "c" "")
    let found (s : Script) (firstParentOnly : Bool) : Option (List String) :=
      (resolveSource { settings with firstParentOnly } matcher s.toRepository
        "main").outcome.toOption.map fun r => r.visits.map fun v => v.commit.sha
    (∃ (r : Resolution) (k : Criteria) (r' : Resolution) (i j : Nat), k.settings = settings ∧
      k.matcher = matcher ∧ k.WholeAgrees s "main" r r' i j) ∧
      found s true = some ["c", "a"] ∧ found s false = some ["c", "b", "a"] ∧
      found (s.addTag ⟨"v", false, "", "b"⟩) false = some ["c", "b"] := by
  intro settings matcher s found
  have hread : s.Readable := by
    intro e he
    simp only [s, Script.merge, Script.sideCommit, Script.commit, Script.push, List.mem_cons] at he
    rcases he with rfl | rfl | rfl | he
    · exact ⟨_, rfl⟩
    · exact ⟨_, rfl⟩
    · exact ⟨_, rfl⟩
    · contradiction
  obtain ⟨r, hfound⟩ := exists_ok_of_isOk (by decide +kernel :
    (resolveSource { settings with firstParentOnly := true } matcher s.toRepository
      "main").outcome.isOk = true)
  exact ⟨⟨r, resolveSource_of_firstParents hread nofun hfound⟩, by decide +kernel,
    by decide +kernel, by decide +kernel⟩

end Criteria

end VersionTrail
