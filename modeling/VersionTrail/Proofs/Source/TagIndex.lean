/-
# Where the candidates of an index come from

The tags with a candidate are the eligible ones. Every candidate in an index is
an eligible tag of the list, and stands under the commit that the tag points at.
Its captures have pairwise distinct names, since the pattern's groups have.
-/
import VersionTrail.Source
import VersionTrail.Proofs.OrderedMap
import VersionTrail.Proofs.Pattern.Captures

namespace VersionTrail

open VersionTrail.Text

/-- Whether the captures of every candidate have distinct names. -/
def TagIndex.NamesDistinct (index : TagIndex) : Prop :=
  ∀ sha candidate, index.get? sha = some candidate → (candidate.captures.map Prod.fst).Nodup

namespace TagScanner

/-- A group is captured where it took part with a text that is not blank. -/
theorem capture?_eq_some_iff {groups : Pattern.Captures} {group : String}
    {e : String × String} :
    capture? groups group = some e ↔
      e.1 = group ∧ groups.named? group = some e.2 ∧ isBlankText e.2 = false := by
  obtain ⟨name, value⟩ := e
  unfold capture?
  cases groups.named? group with
  | none => simp
  | some taken =>
      by_cases hblank : isBlankText taken = true
      · simp only [if_pos hblank, reduceCtorEq, false_iff, Option.some.injEq]
        rintro ⟨-, rfl, hvalue⟩
        rw [hblank] at hvalue
        contradiction
      · simp only [if_neg hblank, Option.some.injEq, Prod.mk.injEq]
        constructor
        · rintro ⟨rfl, rfl⟩
          exact ⟨rfl, rfl, Bool.eq_false_iff.mpr hblank⟩
        · rintro ⟨rfl, rfl, -⟩
          exact ⟨rfl, rfl⟩

/-- The captures of some groups are named like a part of them, in their order. -/
theorem sublist_captures (c : Pattern.Captures) (groups : List String) :
    ((groups.filterMap (capture? c)).map Prod.fst).Sublist groups := by
  induction groups with
  | nil => simp
  | cons group groups ih =>
      cases hcapture : capture? c group with
      | none =>
          rw [List.filterMap_cons_none hcapture]
          exact ih.cons group
      | some e =>
          rw [List.filterMap_cons_some hcapture, List.map_cons,
            (capture?_eq_some_iff.mp hcapture).1]
          exact ih.cons_cons group

/-- The captures of a candidate have distinct names. -/
theorem nodup_of_candidate? {s : TagScanner} {t : Tag} {c : TagCandidate}
    (hcandidate : s.candidate? t = some c) : (c.captures.map Prod.fst).Nodup := by
  unfold candidate? at hcandidate
  split at hcandidate
  · contradiction
  · obtain ⟨captures, -, rfl⟩ := Option.map_eq_some_iff.mp hcandidate
    exact s.pattern.names_nodup.sublist (sublist_captures captures s.pattern.groupNames)

/-- Whether a tag can be a candidate: its name matches, and it is annotated where
only such tags count. -/
def Eligible (s : TagScanner) (t : Tag) : Prop :=
  (s.annotatedOnly = true → t.annotated = true) ∧ s.pattern.isMatch t.name = true

instance (s : TagScanner) : DecidablePred s.Eligible := fun t =>
  inferInstanceAs
    (Decidable ((s.annotatedOnly = true → t.annotated = true) ∧ s.pattern.isMatch t.name = true))

theorem exists_candidate?_of_eligible {s : TagScanner} {t : Tag} (heligible : s.Eligible t) :
    ∃ groups, s.pattern.captures? t.name = some groups ∧
      s.candidate? t = some ⟨t, s.pattern.groupNames.filterMap (capture? groups)⟩ := by
  obtain ⟨hannotated, hmatch⟩ := heligible
  rw [Pattern.isMatch_eq_isSome_captures?] at hmatch
  obtain ⟨groups, hgroups⟩ := Option.isSome_iff_exists.mp hmatch
  have hkept : (s.annotatedOnly && !t.annotated) = false := by
    rw [Bool.and_eq_false_iff, Bool.not_eq_false']
    by_cases honly : s.annotatedOnly = true
    · exact Or.inr (hannotated honly)
    · exact Or.inl (Bool.not_eq_true _ ▸ honly)
  refine ⟨groups, hgroups, ?_⟩
  rw [candidate?, hkept, hgroups]
  rfl

theorem candidate?_of_not_eligible {s : TagScanner} {t : Tag} (heligible : ¬ s.Eligible t) :
    s.candidate? t = none := by
  by_cases hannotated : s.annotatedOnly = true → t.annotated = true
  · have hmatch : ¬ s.pattern.isMatch t.name = true := fun h => heligible ⟨hannotated, h⟩
    rw [Pattern.isMatch_eq_isSome_captures?, Bool.not_eq_true, Option.isSome_eq_false_iff,
      Option.isNone_iff_eq_none] at hmatch
    rw [candidate?, hmatch]
    split <;> rfl
  · obtain ⟨honly, hlight⟩ := Classical.not_imp.mp hannotated
    have hskipped : (s.annotatedOnly && !t.annotated) = true := by
      rw [Bool.and_eq_true, Bool.not_eq_true']
      exact ⟨honly, Bool.not_eq_true _ ▸ hlight⟩
    rw [candidate?, if_pos hskipped]

/-- A candidate is the tag that it is made from. -/
theorem tag_of_candidate? {s : TagScanner} {t : Tag} {c : TagCandidate}
    (hcandidate : s.candidate? t = some c) : c.tag = t := by
  unfold candidate? at hcandidate
  split at hcandidate
  · contradiction
  · obtain ⟨captures, -, rfl⟩ := Option.map_eq_some_iff.mp hcandidate
    rfl

/-- What a scan adds to an index are eligible tags of the list. -/
theorem mem_scanInto {s : TagScanner} {index : TagIndex} {tags : List Tag}
    {e : String × TagCandidate} (hmem : e ∈ (s.scanInto index tags).1.entries) :
    e ∈ index.entries ∨ ∃ t ∈ tags, t.target = e.1 ∧ s.candidate? t = some e.2 := by
  induction tags generalizing index with
  | nil => exact Or.inl hmem
  | cons t tags ih =>
      rw [scanInto] at hmem
      cases hcandidate : s.candidate? t with
      | none =>
          rw [hcandidate] at hmem
          refine (ih hmem).imp_right ?_
          rintro ⟨later, hlater, heq⟩
          exact ⟨later, List.mem_cons_of_mem _ hlater, heq⟩
      | some c =>
          rw [hcandidate] at hmem
          rcases ih hmem with hindex | ⟨later, hlater, heq⟩
          · rcases OrderedMap.mem_put hindex with rfl | hold
            · exact Or.inr ⟨t, List.mem_cons_self, rfl, hcandidate⟩
            · exact Or.inl hold
          · exact Or.inr ⟨later, List.mem_cons_of_mem _ hlater, heq⟩

/-- A candidate of an index is an eligible tag on the commit it stands under. -/
theorem exists_tag_of_get?_scan {s : TagScanner} {tags : List Tag} {sha : String}
    {c : TagCandidate} (hget : (s.scan tags).1.get? sha = some c) :
    ∃ t ∈ tags, t.target = sha ∧ s.candidate? t = some c := by
  rcases mem_scanInto (OrderedMap.get?_eq_some_iff.mp hget) with hnone | htag
  · exact absurd hnone List.not_mem_nil
  · exact htag

/-- Tags behind others go into the index that the others left. -/
theorem scanInto_append (s : TagScanner) (index : TagIndex) (tags later : List Tag) :
    s.scanInto index (tags ++ later) =
      ((s.scanInto (s.scanInto index tags).1 later).1,
        (s.scanInto index tags).2 ++ (s.scanInto (s.scanInto index tags).1 later).2) := by
  induction tags generalizing index with
  | nil => rfl
  | cons t tags ih =>
      rw [List.cons_append, scanInto, scanInto]
      cases s.candidate? t with
      | none => exact ih index
      | some c =>
          dsimp only
          rw [ih (index.insert t.target c), List.append_assoc]

/-- An eligible tag behind all others becomes the candidate for its commit, and the
one that it finds there gives way. -/
theorem scan_concat_of_candidate? {s : TagScanner} {t : Tag} {c : TagCandidate}
    (hcandidate : s.candidate? t = some c) (tags : List Tag) :
    s.scan (tags ++ [t]) =
      ((s.scan tags).1.insert t.target c,
        (s.scan tags).2 ++ displaced (s.scan tags).1 t.target) := by
  rw [scan, scanInto_append, scanInto, hcandidate]
  dsimp only [scanInto]
  rw [List.append_nil]
  rfl

theorem scan_concat_of_not_candidate? {s : TagScanner} {t : Tag}
    (hcandidate : s.candidate? t = none) (tags : List Tag) :
    s.scan (tags ++ [t]) = s.scan tags := by
  rw [scan, scanInto_append, scanInto, hcandidate]
  dsimp only [scanInto]
  rw [List.append_nil]
  rfl

end TagScanner

end VersionTrail
