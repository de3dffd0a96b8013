/-
# The last tag on a commit

For every commit with an eligible tag, an index keeps the last one of them. Each
eligible tag but the first one on its commit makes the last one before it give
way, and that one is warned of. Tags that are not eligible leave no trace, and
between tags on different commits the order does not count.

The list of tags is taken apart from its end here, since a scan puts each further
tag into the index that the tags in front of it left.
-/
import Mathlib.Data.Finset.Card
import VersionTrail.Proofs.Source.TagIndex

namespace VersionTrail.TagScanner

open VersionTrail.Text

/-- The last of some tags on a commit. -/
def lastOn? (target : String) (tags : List Tag) : Option Tag :=
  tags.reverse.find? fun t => t.target = target

/-- The tags that give way to a later one on the same commit, in the order in
which they do. -/
def displacedTags (tags : List Tag) : List Tag :=
  tags.zipIdx.filterMap fun (t, i) => lastOn? t.target (tags.take i)

variable {target : String} {t u : Tag}

@[simp]
theorem lastOn?_concat (tags : List Tag) (t : Tag) :
    lastOn? target (tags ++ [t]) = if t.target = target then some t else lastOn? target tags := by
  rw [lastOn?, List.reverse_append, List.reverse_singleton, List.singleton_append,
    List.find?_cons]
  by_cases htarget : t.target = target <;> simp [htarget, lastOn?]

@[simp]
theorem isSome_lastOn?_iff {tags : List Tag} :
    (lastOn? target tags).isSome = true ↔ target ∈ tags.map Tag.target := by
  simp [lastOn?]

/-- Two tags next to each other on different commits can change places. -/
theorem lastOn?_exchange (hne : t.target ≠ u.target) (before after : List Tag) :
    lastOn? target (before ++ u :: t :: after) = lastOn? target (before ++ t :: u :: after) := by
  induction after using List.reverseRecOn with
  | nil =>
      rw [List.append_cons, List.append_cons before t, lastOn?_concat, lastOn?_concat,
        lastOn?_concat, lastOn?_concat]
      by_cases ht : t.target = target
      · rw [if_pos ht, if_pos ht, if_neg fun hu => hne (ht.trans hu.symm)]
      · rw [if_neg ht, if_neg ht]
  | append_singleton after v ih =>
      rw [← List.cons_append, ← List.cons_append, ← List.cons_append, ← List.cons_append,
        ← List.append_assoc, ← List.append_assoc, lastOn?_concat, lastOn?_concat, ih]

/-- One more tag makes the last one before it on its commit give way. -/
theorem displacedTags_concat (tags : List Tag) (t : Tag) :
    displacedTags (tags ++ [t]) = displacedTags tags ++ (lastOn? t.target tags).toList := by
  have hfront : ∀ e ∈ tags.zipIdx, lastOn? e.1.target ((tags ++ [t]).take e.2) =
      lastOn? e.1.target (tags.take e.2) := by
    intro e he
    obtain ⟨-, hlt, -⟩ := List.mem_zipIdx he
    rw [List.take_append_of_le_length (by omega)]
  rw [displacedTags, List.zipIdx_append, List.filterMap_append, List.filterMap_congr hfront]
  congr 1
  simp [List.filterMap_cons]
  cases lastOn? t.target tags <;> rfl

/-- Of three tags on a commit two give way, each when the next one comes. -/
example :
    let tags : List Tag := [⟨"v1", true, "", "a"⟩, ⟨"v2", true, "", "b"⟩, ⟨"v3", true, "", "a"⟩,
      ⟨"v4", true, "", "a"⟩]
    (displacedTags tags).map Tag.name = ["v1", "v3"] := by
  decide

/-- All tags give way but the last one on each commit. -/
theorem length_displacedTags_add_card (tags : List Tag) :
    (displacedTags tags).length + (tags.map Tag.target).toFinset.card = tags.length := by
  induction tags using List.reverseRecOn with
  | nil => rfl
  | append_singleton tags t ih =>
      have htargets : ((tags ++ [t]).map Tag.target).toFinset =
          insert t.target (tags.map Tag.target).toFinset := by
        ext target
        simp
      rw [displacedTags_concat, htargets, List.length_append, List.length_append,
        List.length_singleton]
      cases hlast : lastOn? t.target tags with
      | none =>
          have hnew : t.target ∉ (tags.map Tag.target).toFinset := by
            rw [List.mem_toFinset, ← isSome_lastOn?_iff, hlast]
            exact Bool.false_ne_true
          rw [Finset.card_insert_of_notMem hnew]
          simp only [Option.toList_none, List.length_nil]
          omega
      | some last =>
          have hold : t.target ∈ (tags.map Tag.target).toFinset := by
            rw [List.mem_toFinset, ← isSome_lastOn?_iff, hlast]
            rfl
          rw [Finset.insert_eq_of_mem hold]
          simp only [Option.toList_some, List.length_singleton]
          omega

/-- Captures are the named groups, in the order of the pattern, with the text that
they took where it is not blank. -/
structure CapturedBy (groupNames : List String) (groups : Pattern.Captures)
    (captures : List (String × String)) : Prop where
  order : (captures.map Prod.fst).Sublist groupNames
  mem_iff : ∀ group value, (group, value) ∈ captures ↔
    group ∈ groupNames ∧ groups.named? group = some value ∧ isBlankText value = false

theorem capturedBy_filterMap (groupNames : List String) (groups : Pattern.Captures) :
    CapturedBy groupNames groups (groupNames.filterMap (capture? groups)) where
  order := sublist_captures groups groupNames
  mem_iff := by
    intro group value
    rw [List.mem_filterMap]
    constructor
    · rintro ⟨other, hmem, hcapture⟩
      obtain ⟨rfl, htaken⟩ := capture?_eq_some_iff.mp hcapture
      exact ⟨hmem, htaken⟩
    · rintro ⟨hmem, htaken⟩
      exact ⟨group, hmem, capture?_eq_some_iff.mpr ⟨rfl, htaken⟩⟩

/-- The tags that can be candidates, in their order. -/
def eligibleTags (s : TagScanner) (tags : List Tag) : List Tag :=
  tags.filter fun t => s.Eligible t

/-- The warning that a tag gives way. -/
def givesWay (t : Tag) : Warning :=
  .displacedTag t.name t.target

variable {s : TagScanner}

@[simp]
theorem eligibleTags_nil : s.eligibleTags [] = [] :=
  rfl

@[simp]
theorem eligibleTags_cons_of_eligible (ht : s.Eligible t) (tags : List Tag) :
    s.eligibleTags (t :: tags) = t :: s.eligibleTags tags :=
  List.filter_cons_of_pos (decide_eq_true ht)

@[simp]
theorem eligibleTags_cons_of_not_eligible (ht : ¬ s.Eligible t) (tags : List Tag) :
    s.eligibleTags (t :: tags) = s.eligibleTags tags :=
  List.filter_cons_of_neg (by simpa using ht)

@[simp]
theorem eligibleTags_append (front back : List Tag) :
    s.eligibleTags (front ++ back) = s.eligibleTags front ++ s.eligibleTags back :=
  List.filter_append front back

theorem eligibleTags_concat_of_eligible (ht : s.Eligible t) (tags : List Tag) :
    s.eligibleTags (tags ++ [t]) = s.eligibleTags tags ++ [t] := by
  simp [ht]

theorem eligibleTags_concat_of_not_eligible (ht : ¬ s.Eligible t) (tags : List Tag) :
    s.eligibleTags (tags ++ [t]) = s.eligibleTags tags := by
  simp [ht]

@[simp]
theorem mem_eligibleTags_iff {tags : List Tag} :
    t ∈ s.eligibleTags tags ↔ t ∈ tags ∧ s.Eligible t := by
  simp [eligibleTags]

/-- The other tags leave no trace, neither in the index nor among the warnings. -/
@[simp]
theorem scanInto_eligibleTags (s : TagScanner) (index : TagIndex) (tags : List Tag) :
    s.scanInto index (s.eligibleTags tags) = s.scanInto index tags := by
  induction tags generalizing index with
  | nil => rfl
  | cons t tags ih =>
      by_cases ht : s.Eligible t
      · obtain ⟨groups, -, hcandidate⟩ := exists_candidate?_of_eligible ht
        simp [scanInto, ht, hcandidate, ih]
      · simp [scanInto, ht, candidate?_of_not_eligible ht, ih]

@[simp]
theorem scan_eligibleTags (s : TagScanner) (tags : List Tag) :
    s.scan (s.eligibleTags tags) = s.scan tags :=
  s.scanInto_eligibleTags ∅ tags

/-- An index has under each commit the candidate of the last eligible tag on it. -/
theorem get?_scan (s : TagScanner) (tags : List Tag) (target : String) :
    (s.scan tags).1.get? target = (lastOn? target (s.eligibleTags tags)).bind s.candidate? := by
  induction tags using List.reverseRecOn with
  | nil => rfl
  | append_singleton tags t ih =>
      by_cases ht : s.Eligible t
      · obtain ⟨groups, -, hcandidate⟩ := exists_candidate?_of_eligible ht
        rw [scan_concat_of_candidate? hcandidate, eligibleTags_concat_of_eligible ht]
        by_cases htarget : t.target = target <;> simp [htarget, hcandidate, ih]
      · simp [scan_concat_of_not_candidate? (candidate?_of_not_eligible ht), ht, ih]

theorem eligible_of_lastOn? {tags : List Tag}
    (hlast : lastOn? target (s.eligibleTags tags) = some t) : s.Eligible t :=
  (mem_eligibleTags_iff.mp (List.mem_reverse.mp (List.mem_of_find?_eq_some hlast))).2

/-- The candidate that gives way is the one that the index has so far. -/
theorem displaced_scan (s : TagScanner) (tags : List Tag) (target : String) :
    displaced (s.scan tags).1 target =
      (lastOn? target (s.eligibleTags tags)).toList.map givesWay := by
  rw [displaced, get?_scan]
  cases hlast : lastOn? target (s.eligibleTags tags) with
  | none => rfl
  | some t =>
      obtain ⟨groups, -, hcandidate⟩ := exists_candidate?_of_eligible (eligible_of_lastOn? hlast)
      rw [Option.bind_some, hcandidate]
      rfl

/-- A scan warns of the eligible tags that give way, as they do. -/
theorem warnings_scan (s : TagScanner) (tags : List Tag) :
    (s.scan tags).2 = (displacedTags (s.eligibleTags tags)).map givesWay := by
  induction tags using List.reverseRecOn with
  | nil => rfl
  | append_singleton tags t ih =>
      by_cases ht : s.Eligible t
      · obtain ⟨groups, -, hcandidate⟩ := exists_candidate?_of_eligible ht
        rw [scan_concat_of_candidate? hcandidate, ih, displaced_scan,
          eligibleTags_concat_of_eligible ht, displacedTags_concat, List.map_append]
      · rw [scan_concat_of_not_candidate? (candidate?_of_not_eligible ht), ih,
          eligibleTags_concat_of_not_eligible ht]

/-- Whether an index has exactly the commits with an eligible tag, and under each of
them the last one, with what the pattern captured in its name. -/
structure KeepsLast (s : TagScanner) (tags : List Tag) (index : TagIndex) : Prop where
  keys : ∀ target, target ∈ index.keys ↔ ∃ t ∈ tags, s.Eligible t ∧ t.target = target
  last : ∀ target c, index.get? target = some c → ∃ before after,
    tags = before ++ c.tag :: after ∧ s.Eligible c.tag ∧ c.tag.target = target ∧
      ∀ later ∈ after, s.Eligible later → later.target ≠ target
  captured : ∀ target c, index.get? target = some c → ∃ groups,
    s.pattern.captures? c.tag.name = some groups ∧
      CapturedBy s.pattern.groupNames groups c.captures

/-- The last eligible tag on a commit, in the whole list. -/
theorem exists_split_of_lastOn? {tags : List Tag}
    (hlast : lastOn? target (s.eligibleTags tags) = some t) :
    ∃ before after, tags = before ++ t :: after ∧ t.target = target ∧
      ∀ later ∈ after, s.Eligible later → later.target ≠ target := by
  rw [lastOn?, eligibleTags, ← List.filter_reverse, List.find?_filter] at hlast
  obtain ⟨htest, after, before, hsplit, hafter⟩ := List.find?_eq_some_iff_append.mp hlast
  refine ⟨before.reverse, after.reverse, ?_, ?_, fun later hlater => ?_⟩
  · rw [← List.reverse_reverse tags, hsplit, List.reverse_append, List.reverse_cons,
      List.append_assoc, List.singleton_append]
  · simp only [decide_eq_true_eq] at htest
    exact htest.2
  · simpa [imp_iff_not_or] using hafter later (List.mem_reverse.mp hlater)

theorem keepsLast_scan (s : TagScanner) (tags : List Tag) :
    s.KeepsLast tags (s.scan tags).1 where
  keys := by
    intro target
    have hmem : (∃ t ∈ tags, s.Eligible t ∧ t.target = target) ↔
        target ∈ (s.eligibleTags tags).map Tag.target := by
      simp [and_assoc]
    rw [hmem, ← isSome_lastOn?_iff, ← OrderedMap.isSome_get?_iff, get?_scan]
    cases hlast : lastOn? target (s.eligibleTags tags) with
    | none => exact Iff.rfl
    | some t =>
        obtain ⟨groups, -, hcandidate⟩ :=
          exists_candidate?_of_eligible (eligible_of_lastOn? hlast)
        rw [Option.bind_some, hcandidate]
        exact Iff.rfl
  last := by
    intro target c hget
    rw [get?_scan] at hget
    obtain ⟨t, hlast, hcandidate⟩ := Option.bind_eq_some_iff.mp hget
    obtain rfl := tag_of_candidate? hcandidate
    obtain ⟨before, after, hsplit, htarget, hafter⟩ := exists_split_of_lastOn? hlast
    exact ⟨before, after, hsplit, eligible_of_lastOn? hlast, htarget, hafter⟩
  captured := by
    intro target c hget
    rw [get?_scan] at hget
    obtain ⟨t, hlast, hcandidate⟩ := Option.bind_eq_some_iff.mp hget
    obtain ⟨groups, hgroups, hsome⟩ := exists_candidate?_of_eligible (eligible_of_lastOn? hlast)
    obtain rfl := Option.some.inj (hsome.symm.trans hcandidate)
    exact ⟨groups, hgroups, capturedBy_filterMap _ groups⟩

/-- Two tags next to each other on different commits can change places. -/
theorem get?_scan_exchange (s : TagScanner) (hne : t.target ≠ u.target) (before after : List Tag)
    (target : String) :
    (s.scan (before ++ u :: t :: after)).1.get? target =
      (s.scan (before ++ t :: u :: after)).1.get? target := by
  rw [get?_scan, get?_scan, eligibleTags_append, eligibleTags_append]
  congr 1
  by_cases ht : s.Eligible t <;> by_cases hu : s.Eligible u <;>
    simp [ht, hu, lastOn?_exchange hne]

/-- A scan keeps the last eligible tag on each commit and warns of every one that
gives way to a later one, in order. So there is a warning for each eligible tag
beyond one on each commit. Tags that are not eligible change neither the index nor
the warnings, and tags next to each other on different commits can change places
without a change to the index. -/
theorem scan_keepsLast (s : TagScanner) (tags : List Tag) :
    s.KeepsLast tags (s.scan tags).1 ∧
    (s.scan tags).2 = (displacedTags (s.eligibleTags tags)).map givesWay ∧
    (s.scan tags).2.length + ((s.eligibleTags tags).map Tag.target).toFinset.card =
      (s.eligibleTags tags).length ∧
    (∀ others, s.eligibleTags others = s.eligibleTags tags → s.scan others = s.scan tags) ∧
    ∀ before t u after, tags = before ++ t :: u :: after → t.target ≠ u.target →
      ∀ target, (s.scan (before ++ u :: t :: after)).1.get? target =
        (s.scan tags).1.get? target := by
  refine ⟨s.keepsLast_scan tags, s.warnings_scan tags, ?_, fun others hsame => ?_, ?_⟩
  · rw [warnings_scan, List.length_map, length_displacedTags_add_card]
  · rw [← scan_eligibleTags, hsame, scan_eligibleTags]
  · rintro before t u after rfl hne target
    exact s.get?_scan_exchange hne before after target

end VersionTrail.TagScanner
