/-
# What the source does not depend on

The order of the kinds says which evidence is looked at first, and not which
commits have evidence. So with the same kinds in another order the same commit is
the source, and with more kinds the source is no older. The limit says how many
commits may be looked at: one that leaves room for the source changes nothing,
and one that does not leaves no source.

Two runs are compared by what their searches of one walk reach. A kind that is
not asked for has no part in which commits qualify, although without tags the
index is empty: this carries what is reached from one order to the other.
-/
import VersionTrail.Proofs.Source.Reaching

namespace VersionTrail

/-- Whether two resolutions tell of the same commits, so that they differ at most
in what makes the last commit the source: the kind, the tag and the parameters. -/
structure Resolution.SameCommits (r r' : Resolution) : Prop where
  path : r'.path = r.path
  branch : r'.branch = r.branch
  above : r'.visits.dropLast = r.visits.dropLast
  last : r.visits.getLast? = some r.source.visit
  last' : r'.visits.getLast? = some r'.source.visit
  source : { r'.source.visit with tag := none } = { r.source.visit with tag := none }

namespace Criteria

variable (k : Criteria)

/-- The criteria with the kinds in another order. -/
def withOrder (order : List SourceKind) : Criteria :=
  { k with settings := { k.settings with order } }

/-- The criteria with another limit. -/
def withLimit (limit : Option Int) : Criteria :=
  { k with settings := { k.settings with maxCommits := limit } }

/-- Whether two runs of a search agree: with the same warnings they end in the
same failure, or they find the same commit, and differ in what they tell of it
only where it qualifies by every kind. -/
def Agree (repo : Repository) (run run' : Run Resolution) : Prop :=
  (∃ warnings f, run = ⟨warnings, .error f⟩ ∧ run' = ⟨warnings, .error f⟩) ∨
    ∃ index warnings r r', k.indexed repo = .ok (index, warnings) ∧
      run = ⟨warnings, .ok r⟩ ∧ run' = ⟨warnings, .ok r'⟩ ∧ r.SameCommits r' ∧
      (r' = r ∨ ∀ kind, k.Qualifies index r.source.visit.commit kind)

/-- How little the source of a branch depends on the order of the kinds and on the
limit. -/
structure Stable (repo : Repository) (branch : String) : Prop where
  /-- The same kinds in another order find the same commit. -/
  reordered : ∀ order, (∀ kind, kind ∈ order ↔ kind ∈ k.settings.order) →
    k.Agree repo (resolveSource k.settings k.matcher repo branch)
      (resolveSource { k.settings with order } k.matcher repo branch)
  /-- With more kinds there still is a source, and it is no older. -/
  added : ∀ order, k.settings.order ⊆ order →
    ∀ r, (resolveSource k.settings k.matcher repo branch).outcome = .ok r →
      ∃ r', (resolveSource { k.settings with order } k.matcher repo branch).outcome = .ok r' ∧
        r'.visits.map Visit.commit <+: r.visits.map Visit.commit ∧
        r.visits.getLast? = some r.source.visit ∧ r'.visits.getLast? = some r'.source.visit
  /-- What is found within a limit is found within every larger one and without
  one. -/
  raised : ∀ n : Int, 0 < n → ∀ r,
    (resolveSource { k.settings with maxCommits := some n } k.matcher repo branch).outcome =
      .ok r →
    ∀ limit, (∀ m, limit = some m → 0 < m → n ≤ m) →
      resolveSource { k.settings with maxCommits := limit } k.matcher repo branch =
        resolveSource { k.settings with maxCommits := some n } k.matcher repo branch
  /-- What is found without a limit is found within every one that leaves room for
  it, and within no other. -/
  lowered : ∀ unlimited, (∀ m, unlimited = some m → m ≤ 0) → ∀ r,
    (resolveSource { k.settings with maxCommits := unlimited } k.matcher repo branch).outcome =
      .ok r →
    ∀ n : Int, 0 < n →
      (r.visits.length ≤ n →
        resolveSource { k.settings with maxCommits := some n } k.matcher repo branch =
          resolveSource { k.settings with maxCommits := unlimited } k.matcher repo branch) ∧
      (n < r.visits.length →
        (resolveSource { k.settings with maxCommits := some n } k.matcher repo branch).outcome =
          .error (.sourceNotFound branch n.toNat))

variable {k} {repo : Repository} {branch : String} {order : List SourceKind}
variable {index index' : TagIndex} {warnings warnings' : List Warning}
variable {walk : List (Except Failure Commit)} {cs : List Commit} {c : Commit}
variable {source : VersionSource} {r : Resolution}

/-- With an index, a run searches the walk if there is one. -/
theorem resolveSource_of_indexed (hindexed : k.indexed repo = .ok (index, warnings))
    (branch : String) :
    resolveSource k.settings k.matcher repo branch =
      ⟨warnings, k.walked repo >>= k.resolution index repo branch⟩ := by
  cases hwalked : k.walked repo with
  | error f =>
      rw [resolveSource_of_not_walked hindexed hwalked, error_bind]
  | ok walk =>
      rw [resolveSource_eq hindexed hwalked, ok_bind]
      rfl

theorem exists_indexed_of_tags {tags : List Tag} (htags : repo.tags = .ok tags) :
    ∃ index warnings, k.indexed repo = .ok (index, warnings) := by
  unfold indexed
  rw [htags]
  split <;> exact ⟨_, _, rfl⟩

/-! ## Kinds in another order -/

/-- A commit that qualifies still does so with more kinds. -/
theorem Qualifies.withOrder (hsub : k.settings.order ⊆ order)
    (hindexed : k.indexed repo = .ok (index, warnings))
    (hindexed' : (k.withOrder order).indexed repo = .ok (index', warnings')) {kind : SourceKind}
    (h : k.Qualifies index c kind) : (k.withOrder order).Qualifies index' c kind := by
  refine ⟨hsub h.1, ?_⟩
  cases kind with
  | merge => exact h.2
  | tag =>
      have hsame : (k.withOrder order).indexed repo = k.indexed repo := by
        unfold indexed
        rw [if_pos h.1, if_pos (show SourceKind.tag ∈ (k.withOrder order).settings.order from
          hsub h.1)]
        rfl
      rw [hindexed, hindexed'] at hsame
      obtain ⟨rfl, -⟩ := Prod.mk.inj (Except.ok.inj hsame)
      exact h.2

theorem resolveSource_withOrder
    (hindexed : (k.withOrder order).indexed repo = .ok (index, warnings)) (branch : String) :
    resolveSource { k.settings with order } k.matcher repo branch =
      ⟨warnings, k.walked repo >>= (k.withOrder order).resolution index repo branch⟩ :=
  resolveSource_of_indexed (k := k.withOrder order) hindexed branch

theorem Reaches.sameCommits {source' : VersionSource} (h : k.Reaches index cs c source)
    (h' : (k.withOrder order).Reaches index cs c source') (path branch : String) :
    Resolution.SameCommits ⟨source, path, branch, cs.map k.merges.visit ++ [source.visit]⟩
      ⟨source', path, branch, cs.map k.merges.visit ++ [source'.visit]⟩ where
  path := rfl
  branch := rfl
  above := by rw [List.dropLast_concat, List.dropLast_concat]
  last := List.getLast?_concat
  last' := List.getLast?_concat
  source := h'.visit.trans h.visit.symm

section SameKinds

variable (hsame : ∀ kind, kind ∈ order ↔ kind ∈ k.settings.order)

include hsame

theorem qualifies_withOrder_iff (kind : SourceKind) :
    (k.withOrder order).Qualifies index c kind ↔ k.Qualifies index c kind :=
  and_congr (hsame kind) Iff.rfl

theorem indexed_withOrder (repo : Repository) :
    (k.withOrder order).indexed repo = k.indexed repo :=
  if_congr (hsame .tag) rfl rfl

/-- What makes a commit the source does not depend on the order where there is a
kind by which the commit does not qualify. -/
theorem firstEvidence?_withOrder {other : SourceKind} (hother : ¬ k.Qualifies index c other) :
    ((k.withOrder order).detector index).firstEvidence? (k.merges.visit c) =
      (k.detector index).firstEvidence? (k.merges.visit c) := by
  have hlone (kind kind' : SourceKind) (h : k.Qualifies index c kind)
      (h' : k.Qualifies index c kind') : kind' = kind := by
    cases kind <;> cases kind' <;> cases other <;> first | rfl | contradiction
  cases hfirst : (k.detector index).firstEvidence? (k.merges.visit c) with
  | none =>
      refine (firstEvidence?_eq_none_iff (k := k.withOrder order)).mpr fun kind hkind => ?_
      have hkind := (qualifies_withOrder_iff hsame kind).mp hkind
      exact firstEvidence?_eq_none_iff.mp hfirst kind hkind
  | some e =>
      obtain ⟨-, kind, -, -, hevidence, hkind, -⟩ := first_kind_of_firstEvidence? hfirst
      cases hfirst' : ((k.withOrder order).detector index).firstEvidence? (k.merges.visit c) with
      | none =>
          exact absurd ((qualifies_withOrder_iff hsame kind).mpr hkind)
            (firstEvidence?_eq_none_iff (k := k.withOrder order) |>.mp hfirst' kind)
      | some e' =>
          obtain ⟨-, kind', -, -, hevidence', hkind', -⟩ :=
            first_kind_of_firstEvidence? (k := k.withOrder order) hfirst'
          obtain rfl := hlone kind kind' hkind ((qualifies_withOrder_iff hsame kind').mp hkind')
          exact hevidence'.symm.trans hevidence

/-- The same kinds in another order reach the same commit. -/
theorem Reaches.exists_withOrder (hnodup : index.NamesDistinct)
    (h : k.Reaches index cs c source) :
    ∃ source', (k.withOrder order).Reaches index cs c source' ∧
      (source' = source ∨ ∀ kind, k.Qualifies index c kind) := by
  have habove : ∀ d ∈ cs, ∀ kind, ¬ (k.withOrder order).Qualifies index d kind :=
    fun d hd kind => mt (qualifies_withOrder_iff hsame kind).mp (h.above d hd kind)
  obtain ⟨kind, hkind⟩ := h.qualifies
  have hkind' := (qualifies_withOrder_iff hsame kind).mpr hkind
  by_cases hboth : ∀ kind, k.Qualifies index c kind
  · obtain ⟨source', hends, hvisit, -⟩ := exists_source_of_qualifies hnodup hkind'
    exact ⟨source', ⟨habove, ⟨kind, hkind'⟩, hvisit, hends⟩, Or.inr hboth⟩
  · obtain ⟨other, hother⟩ := not_forall.mp hboth
    refine ⟨source, ⟨habove, ⟨kind, hkind'⟩, h.visit, fun rest => ?_⟩, Or.inl rfl⟩
    have hfirst := firstEvidence?_withOrder hsame hother
    cases hevidence : (k.detector index).firstEvidence? (k.merges.visit c) with
    | none => exact absurd hkind (firstEvidence?_eq_none_iff.mp hevidence kind)
    | some e =>
        rw [← h.ends rest, search_of_firstEvidence? hevidence]
        exact search_of_firstEvidence? (k := k.withOrder order) (hfirst.trans hevidence) rest

/-- Searches of one walk for the same kinds end alike. -/
theorem resolution_withOrder (hnodup : index.NamesDistinct) (repo : Repository) (branch : String)
    (walk : List (Except Failure Commit)) :
    (∃ f, k.resolution index repo branch walk = .error f ∧
      (k.withOrder order).resolution index repo branch walk = .error f) ∨
    ∃ r r', k.resolution index repo branch walk = .ok r ∧
      (k.withOrder order).resolution index repo branch walk = .ok r' ∧ r.SameCommits r' ∧
      (r' = r ∨ ∀ kind, k.Qualifies index r.source.visit.commit kind) := by
  rcases exists_reaches_or_exhausted hnodup walk with
    ⟨cs, c, source, rest, rfl, hreaches⟩ | ⟨cs, rest, rfl, hcs, hrest⟩
  · obtain ⟨source', hreaches', hsource⟩ := hreaches.exists_withOrder hsame hnodup
    refine Or.inr ⟨_, _, hreaches.resolution repo branch rest,
      hreaches'.resolution repo branch rest,
      hreaches.sameCommits hreaches' repo.path branch, ?_⟩
    rw [(fields_of_visit hreaches.visit).1]
    exact hsource.imp_left fun hsource => by rw [hsource]; rfl
  · left
    have hcs' : ∀ d ∈ cs, ∀ kind, ¬ (k.withOrder order).Qualifies index d kind :=
      fun d hd kind => mt (qualifies_withOrder_iff hsame kind).mp (hcs d hd kind)
    unfold resolution
    rw [search_append hcs, search_append hcs']
    rcases hrest with rfl | ⟨f, later, rfl⟩ <;> exact ⟨_, rfl, rfl⟩

end SameKinds

/-! ## More kinds -/

/-- Where a commit qualifies, a source is reached there or above it. -/
theorem exists_reaches_of_qualifies (hnodup : index.NamesDistinct) {kind : SourceKind}
    (hqualifies : k.Qualifies index c kind) (cs : List Commit) :
    ∃ above d source, above ++ [d] <+: cs ++ [c] ∧ k.Reaches index above d source := by
  have hreaches {d : Commit} {kind : SourceKind} (hkind : k.Qualifies index d kind) :
      ∃ source, k.Reaches index [] d source := by
    obtain ⟨source, hends, hvisit, -⟩ := exists_source_of_qualifies hnodup hkind
    exact ⟨source, by simp, ⟨kind, hkind⟩, hvisit, hends⟩
  induction cs with
  | nil =>
      obtain ⟨source, hsource⟩ := hreaches hqualifies
      exact ⟨[], c, source, List.prefix_refl _, hsource⟩
  | cons b cs ih =>
      by_cases hb : ∃ kind, k.Qualifies index b kind
      · obtain ⟨kind, hkind⟩ := hb
        obtain ⟨source, hsource⟩ := hreaches hkind
        exact ⟨[], b, source, ⟨cs ++ [c], rfl⟩, hsource⟩
      · obtain ⟨above, d, source, hbeginning, hsource⟩ := ih
        refine ⟨b :: above, d, source, List.cons_prefix_cons.mpr ⟨rfl, hbeginning⟩, ?_,
          hsource.qualifies, hsource.visit, hsource.ends⟩
        intro other hother
        rcases List.mem_cons.mp hother with rfl | habove
        · exact not_exists.mp hb
        · exact hsource.above other habove

/-- A walk that starts with some commits starts with fewer of them. -/
theorem exists_rest_of_prefix {above : List Commit} {d : Commit}
    (hbeginning : above ++ [d] <+: cs ++ [c]) (rest : List (Except Failure Commit)) :
    ∃ rest', (cs.map .ok ++ .ok c :: rest : List (Except Failure Commit)) =
      above.map .ok ++ .ok d :: rest' := by
  obtain ⟨between, hbetween⟩ := hbeginning
  have hcommits := congrArg (List.map (Except.ok (ε := Failure))) hbetween
  simp only [List.map_append, List.map_singleton] at hcommits
  refine ⟨between.map .ok ++ rest, ?_⟩
  rw [← List.singleton_append, ← List.append_assoc, ← hcommits]
  simp

/-- With more kinds, a search still finds a source, at the same commit or above
it. -/
theorem exists_resolution_withOrder (hsub : k.settings.order ⊆ order)
    (hindexed : k.indexed repo = .ok (index, warnings))
    (hindexed' : (k.withOrder order).indexed repo = .ok (index', warnings'))
    (hfound : k.resolution index repo branch walk = .ok r) :
    ∃ r', (k.withOrder order).resolution index' repo branch walk = .ok r' ∧
      r'.visits.map Visit.commit <+: r.visits.map Visit.commit ∧
      r.visits.getLast? = some r.source.visit ∧ r'.visits.getLast? = some r'.source.visit := by
  obtain ⟨cs, c, rest, rfl, hreaches, hr⟩ :=
    exists_reaches_of_resolution (fun _ _ => nodup_captures_of_indexed hindexed) hfound
  obtain ⟨kind, hkind⟩ := hreaches.qualifies
  obtain ⟨above, d, source, hbeginning, hreaches'⟩ :=
    exists_reaches_of_qualifies (fun _ _ => nodup_captures_of_indexed hindexed')
      (hkind.withOrder hsub hindexed hindexed') cs
  obtain ⟨rest', hwalk⟩ := exists_rest_of_prefix hbeginning rest
  refine ⟨_, hwalk ▸ hreaches'.resolution repo branch _, ?_, ?_, List.getLast?_concat⟩
  · rw [hr, hreaches.map_commit, hreaches'.map_commit]
    exact hbeginning
  · rw [hr]
    exact List.getLast?_concat

/-! ## Limits -/

/-- What is found in a walk is found in every longer one. -/
theorem resolution_of_longer (hnodup : index.NamesDistinct)
    (hfound : k.resolution index repo branch walk = .ok r)
    {longer : List (Except Failure Commit)} (hbeginning : walk <+: longer) :
    k.resolution index repo branch longer = .ok r := by
  obtain ⟨cs, c, rest, rfl, hreaches, hr⟩ := exists_reaches_of_resolution hnodup hfound
  obtain ⟨later, rfl⟩ := hbeginning
  rw [List.append_assoc, List.cons_append, hreaches.resolution]
  exact congrArg Except.ok hr.symm

/-- A walk that is cut short has the source unless it is cut above it. -/
theorem resolution_take (hnodup : index.NamesDistinct)
    (hfound : k.resolution index repo branch walk = .ok r) (n : Nat) :
    k.resolution index repo branch (walk.take n) =
      if r.visits.length ≤ n then .ok r else .error (.sourceNotFound branch n) := by
  obtain ⟨cs, c, rest, rfl, hreaches, hr⟩ := exists_reaches_of_resolution hnodup hfound
  have hlength : r.visits.length = cs.length + 1 := by
    rw [hr, List.length_append, List.length_map]
    rfl
  split
  case isTrue hroom =>
    obtain ⟨m, rfl⟩ := Nat.exists_eq_add_of_le (hlength ▸ hroom)
    have htake : (cs.map Except.ok ++ .ok c :: rest : List (Except Failure Commit)).take
        (cs.length + 1 + m) = cs.map .ok ++ .ok c :: rest.take m := by
      rw [List.take_append, List.length_map,
        List.take_of_length_le (by rw [List.length_map]; omega), Nat.add_assoc,
        Nat.add_sub_cancel_left, Nat.add_comm 1 m, List.take_succ_cons]
    rw [htake, hreaches.resolution]
    exact congrArg Except.ok hr.symm
  case isFalse hcut =>
    have hn : n ≤ cs.length := by omega
    have htake : (cs.map Except.ok ++ .ok c :: rest : List (Except Failure Commit)).take n =
        (cs.take n).map .ok ++ [] := by
      rw [List.take_append_of_le_length (by simpa using hn), List.map_take, List.append_nil]
    have hnone : ∀ d ∈ cs.take n, ∀ kind, ¬ k.Qualifies index d kind :=
      fun d hd => hreaches.above d (List.mem_of_mem_take hd)
    unfold resolution
    rw [htake, search_append hnone]
    simp [SourceDetector.search, hn]

theorem resolveSource_withLimit (hindexed : k.indexed repo = .ok (index, warnings))
    (branch : String) (limit : Option Int) :
    resolveSource { k.settings with maxCommits := limit } k.matcher repo branch =
      ⟨warnings, repo.walk k.settings.firstParentOnly >>= fun walk =>
        k.resolution index repo branch ((k.withLimit limit).bounded walk)⟩ := by
  have hrun := resolveSource_of_indexed (k := k.withLimit limit) hindexed branch
  refine hrun.trans (congrArg (Run.mk warnings) ?_)
  unfold walked
  show (Except.map _ (repo.walk k.settings.firstParentOnly)) >>= _ = _
  cases repo.walk k.settings.firstParentOnly <;> rfl

theorem bounded_withLimit_of_pos {n : Int} (hn : 0 < n) (walk : List (Except Failure Commit)) :
    (k.withLimit (some n)).bounded walk = walk.take n.toNat :=
  if_pos hn

theorem bounded_withLimit_of_unlimited {limit : Option Int} (hlimit : ∀ m, limit = some m → m ≤ 0)
    (walk : List (Except Failure Commit)) : (k.withLimit limit).bounded walk = walk := by
  cases limit with
  | none => rfl
  | some m => exact if_neg (Int.not_lt.mpr (hlimit m rfl))

/-- A limit that is not smaller leaves at least as much of a walk. -/
theorem take_prefix_bounded_withLimit {n : Int} {limit : Option Int}
    (hlimit : ∀ m, limit = some m → 0 < m → n ≤ m) (walk : List (Except Failure Commit)) :
    walk.take n.toNat <+: (k.withLimit limit).bounded walk := by
  by_cases hunlimited : ∀ m, limit = some m → m ≤ 0
  · rw [bounded_withLimit_of_unlimited hunlimited]
    exact List.take_prefix _ _
  · obtain ⟨m, hlimited⟩ := not_forall.mp hunlimited
    obtain ⟨rfl, hm⟩ := Classical.not_imp.mp hlimited
    rw [Int.not_le] at hm
    rw [bounded_withLimit_of_pos hm]
    exact List.take_prefix_take_left (Int.toNat_le_toNat (hlimit m rfl hm))

/-- The source of a branch is stable: no order of the same kinds, no further kind
and no limit that leaves room for it moves it to an older commit. -/
theorem resolveSource_stable (k : Criteria) {repo : Repository} {tags : List Tag}
    (htags : repo.tags = .ok tags) (branch : String) : k.Stable repo branch := by
  obtain ⟨index, warnings, hindexed⟩ := exists_indexed_of_tags (k := k) htags
  have hnodup : index.NamesDistinct := fun _ _ => nodup_captures_of_indexed hindexed
  refine ⟨fun order hsame => ?reordered, fun order hsub r hfound => ?added,
    fun n hn r hfound limit hlimit => ?raised, fun unlimited hunlimited r hfound n hn => ?lowered⟩
  case reordered =>
    rw [resolveSource_of_indexed hindexed,
      resolveSource_withOrder ((indexed_withOrder hsame repo).trans hindexed)]
    cases k.walked repo with
    | error f => exact Or.inl ⟨warnings, f, rfl, rfl⟩
    | ok walk =>
        rcases resolution_withOrder hsame hnodup repo branch walk with
          ⟨f, hf, hf'⟩ | ⟨r, r', hr, hr', hsources⟩
        · exact Or.inl ⟨warnings, f, congrArg _ hf, congrArg _ hf'⟩
        · exact Or.inr ⟨index, warnings, r, r', hindexed, congrArg _ hr, congrArg _ hr', hsources⟩
  case added =>
    obtain ⟨index', warnings', hindexed'⟩ := exists_indexed_of_tags (k := k.withOrder order) htags
    rw [resolveSource_of_indexed hindexed] at hfound
    rw [resolveSource_withOrder hindexed']
    cases hwalked : k.walked repo with
    | error f => rw [hwalked] at hfound; contradiction
    | ok walk =>
        rw [hwalked] at hfound
        exact exists_resolution_withOrder hsub hindexed hindexed' hfound
  case raised =>
    rw [resolveSource_withLimit hindexed] at hfound
    obtain ⟨walk, hwalk, hfound⟩ := bind_eq_ok_iff.mp hfound
    rw [resolveSource_withLimit hindexed, resolveSource_withLimit hindexed, hwalk, ok_bind,
      ok_bind, hfound]
    rw [bounded_withLimit_of_pos hn] at hfound
    rw [resolution_of_longer hnodup hfound (take_prefix_bounded_withLimit hlimit walk)]
  case lowered =>
    rw [resolveSource_withLimit hindexed] at hfound
    obtain ⟨walk, hwalk, hfound⟩ := bind_eq_ok_iff.mp hfound
    rw [resolveSource_withLimit hindexed, resolveSource_withLimit hindexed, hwalk, ok_bind,
      ok_bind, hfound, bounded_withLimit_of_pos hn]
    rw [bounded_withLimit_of_unlimited hunlimited] at hfound
    rw [resolution_take hnodup hfound]
    refine ⟨fun hroom => ?_, fun hcut => ?_⟩
    · rw [if_pos (by omega)]
    · rw [if_neg (by omega)]

/-- A merge that has a tag stays the source in every order, though what is told of
it changes. -/
theorem resolveSource_stable_twice :
    let merge : Commit := ⟨"b", "", "v", "", default, 2⟩
    let repo : Repository := ⟨"/", .ok "main", .ok [⟨"v", false, "", "b"⟩],
      fun _ => .ok [.ok ⟨"a", "", "", "", default, 1⟩, .ok merge, .error (.git "unread")]⟩
    let rules : OrderedMap BranchRule := (∅ : OrderedMap BranchRule).insert "main" { regex := "x*" }
    let settings : SourceSettings :=
      { order := [.tag, .merge]
        tagMatch := { pattern := "v" }
        mergeMatch := { endsPattern := "x", routes := [⟨"main", "main", none⟩] } }
    let found (order : List SourceKind) : Except Failure (SourceKind × Bool × List String) := do
      let matcher ← BranchMatcher.ofRules rules
      let r ← (resolveSource { settings with order } matcher repo "main").outcome
      .ok (r.source.kind, r.source.visit.tag.isSome, r.visits.map fun v => v.commit.sha)
    (∃ k : Criteria, k.settings = settings ∧ BranchMatcher.ofRules rules = .ok k.matcher ∧
      k.Stable repo "main") ∧
      (found [.tag, .merge]).toOption = some (.tag, true, ["a", "b"]) ∧
      (found [.merge, .tag, .merge]).toOption = some (.merge, false, ["a", "b"]) := by
  intro merge repo rules settings found
  obtain ⟨_, hcheck⟩ := exists_ok_of_isOk (by decide +kernel : settings.check.isOk = true)
  obtain ⟨matcher, hmatcher⟩ :=
    exists_ok_of_isOk (by decide +kernel : (BranchMatcher.ofRules rules).isOk = true)
  obtain ⟨k, hsettings, rfl⟩ := SourceSettings.exists_criteria_of_check hcheck matcher
  exact ⟨⟨k, hsettings, hmatcher, resolveSource_stable k rfl "main"⟩, by decide +kernel,
    by decide +kernel⟩

end Criteria

end VersionTrail
