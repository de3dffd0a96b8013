/-
# Formats that show every moment

A valid format can hold one directive that only reading knows: the offset in any
notation, written `%#z`. Without it, a valid format shows every moment; with it,
it shows none. Where a directive starts is told by the text in front of it, which
has to be a valid format of its own.

The inductions are over the way in which a text is read as items.
-/
import VersionTrail.Calendar.Format

namespace VersionTrail.Calendar

variable {cs rest front back : List Char} {items others : List Item} {m : Moment}

/-- A letter that stands for a directive is read on its own. -/
theorem readDirective?_of_directive? {c : Char} (hitems : directive? c = some items)
    (cs : List Char) : readDirective? (c :: cs) = some (items, cs) := by
  unfold directive? at hitems
  split at hitems
  all_goals first
    | contradiction
    | obtain rfl := Option.some.inj hitems
      rfl

/-- A directive is read from the same characters, whatever stands behind it. -/
theorem exists_used_of_readDirective? (hread : readDirective? cs = some (items, rest)) :
    ∃ used, cs = used ++ rest ∧ ∀ more, readDirective? (used ++ more) = some (items, more) := by
  unfold readDirective? at hread
  split at hread
  case h_1 | h_2 | h_3 =>
    obtain ⟨shown, hshown, heq⟩ := Option.map_eq_some_iff.mp hread
    obtain ⟨rfl, rfl⟩ := Prod.mk.inj heq
    exact ⟨[_, _], rfl, fun more => Option.map_eq_some_iff.mpr ⟨shown, hshown, rfl⟩⟩
  case h_15 c cs _ _ _ _ _ _ _ _ _ _ _ _ _ _ =>
    obtain ⟨shown, hshown, heq⟩ := Option.map_eq_some_iff.mp hread
    obtain ⟨rfl, rfl⟩ := Prod.mk.inj heq
    exact ⟨[c], rfl, readDirective?_of_directive? hshown⟩
  case h_16 => contradiction
  -- The other directives are written out.
  all_goals obtain ⟨rfl, rfl⟩ := Prod.mk.inj (Option.some.inj hread)
  case h_4 | h_7 | h_8 | h_12 | h_13 | h_14 => exact ⟨[_, _], rfl, fun _ => rfl⟩
  case h_6 | h_9 | h_10 | h_11 => exact ⟨[_, _, _], rfl, fun _ => rfl⟩
  case h_5 => exact ⟨[_, _, _, _], rfl, fun _ => rfl⟩

/-- A letter stands for no directive that cannot be shown. -/
theorem anyOffset_notMem_of_directive? {c : Char} (hitems : directive? c = some items) :
    .anyOffset ∉ items := by
  unfold directive? at hitems
  split at hitems
  all_goals first
    | contradiction
    | obtain rfl := Option.some.inj hitems
      decide

theorem anyOffset_notMem_of_refill? {pad : Pad} (hitems : refill? pad others = some items) :
    .anyOffset ∉ items := by
  unfold refill? at hitems
  split at hitems
  · obtain rfl := Option.some.inj hitems
    simp
  · contradiction

/-- Only `#z` stands for the offset in any notation. -/
theorem anyOffset_mem_iff_of_readDirective? (hread : readDirective? cs = some (items, rest)) :
    .anyOffset ∈ items ↔ cs = '#' :: 'z' :: rest := by
  constructor
  · intro hmem
    unfold readDirective? at hread
    split at hread
    case h_1 | h_2 | h_3 =>
      obtain ⟨shown, hshown, heq⟩ := Option.map_eq_some_iff.mp hread
      obtain ⟨plain, -, hrefill⟩ := Option.bind_eq_some_iff.mp hshown
      obtain ⟨rfl, rfl⟩ := Prod.mk.inj heq
      exact absurd hmem (anyOffset_notMem_of_refill? hrefill)
    case h_15 =>
      obtain ⟨shown, hshown, heq⟩ := Option.map_eq_some_iff.mp hread
      obtain ⟨rfl, rfl⟩ := Prod.mk.inj heq
      exact absurd hmem (anyOffset_notMem_of_directive? hshown)
    case h_16 => contradiction
    all_goals obtain ⟨rfl, rfl⟩ := Prod.mk.inj (Option.some.inj hread)
    case h_4 => rfl
    all_goals exact absurd hmem (by decide)
  · rintro rfl
    obtain ⟨rfl, -⟩ := Prod.mk.inj (Option.some.inj hread)
    exact List.mem_singleton_self _

/-- How a text is read as items. -/
inductive Reads : List Char → List Item → Prop
  | nil : Reads [] []
  | directive {cs rest : List Char} {items others : List Item}
      (hread : readDirective? cs = some (items, rest)) (hrest : Reads rest others) :
      Reads ('%' :: cs) (items ++ others)
  | literal {c : Char} {cs : List Char} {others : List Item} (hc : c ≠ '%')
      (hrest : Reads cs others) : Reads (c :: cs) (.literal c :: others)

@[simp]
theorem reads_nil_iff : Reads [] items ↔ items = [] := by
  constructor
  · rintro ⟨⟩
    rfl
  · rintro rfl
    exact .nil

theorem reads_directive_iff :
    Reads ('%' :: cs) items ↔
      ∃ shown rest others, readDirective? cs = some (shown, rest) ∧ Reads rest others ∧
        items = shown ++ others := by
  constructor
  · intro hreads
    cases hreads with
    | directive hread hrest => exact ⟨_, _, _, hread, hrest, rfl⟩
    | literal hc => exact absurd rfl hc
  · rintro ⟨shown, rest, others, hread, hrest, rfl⟩
    exact .directive hread hrest

theorem reads_literal_iff {c : Char} (hc : c ≠ '%') :
    Reads (c :: cs) items ↔ ∃ others, Reads cs others ∧ items = .literal c :: others := by
  constructor
  · intro hreads
    cases hreads with
    | directive => exact absurd rfl hc
    | literal _ hrest => exact ⟨_, hrest, rfl⟩
  · rintro ⟨others, hrest, rfl⟩
    exact .literal hc hrest

/-- With as many steps as there are characters, a text is read to its end. -/
theorem readItems?_eq_some_iff {n : Nat} (hlength : cs.length ≤ n) :
    readItems? n cs = some items ↔ Reads cs items := by
  induction n generalizing cs items with
  | zero =>
      obtain rfl := List.length_eq_zero_iff.mp (Nat.le_zero.mp hlength)
      rw [reads_nil_iff, readItems?, Option.some.injEq, eq_comm]
  | succ n ih =>
      cases cs with
      | nil => rw [reads_nil_iff, readItems?, Option.some.injEq, eq_comm]
      | cons c cs =>
          have hshorter : cs.length ≤ n := Nat.le_of_succ_le_succ hlength
          by_cases hc : c = '%'
          · have hrest {shown : List Item} {rest : List Char} {others : List Item}
                (hread : readDirective? cs = some (shown, rest)) :
                readItems? n rest = some others ↔ Reads rest others := by
              obtain ⟨used, rfl, -⟩ := exists_used_of_readDirective? hread
              refine ih (Nat.le_trans ?_ hshorter)
              simp
            rw [hc, reads_directive_iff]
            simp only [readItems?, bind, Option.bind_eq_some_iff, Option.some.injEq]
            constructor
            · rintro ⟨⟨shown, rest⟩, hread, others, hothers, rfl⟩
              exact ⟨shown, rest, others, hread, (hrest hread).mp hothers, rfl⟩
            · rintro ⟨shown, rest, others, hread, hothers, rfl⟩
              exact ⟨(shown, rest), hread, others, (hrest hread).mpr hothers, rfl⟩
          · rw [readItems?.eq_4 _ _ _ hc, Option.map_eq_some_iff, reads_literal_iff hc]
            exact exists_congr fun others => and_congr (ih hshorter) eq_comm

theorem formatItems?_eq_some_iff {format : String} :
    formatItems? format = some items ↔ Reads format.toList items :=
  readItems?_eq_some_iff (Nat.le_refl _)

theorem isValidFormat_iff {format : String} :
    isValidFormat format = true ↔ ∃ items, Reads format.toList items := by
  rw [isValidFormat, Option.isSome_iff_exists]
  exact exists_congr fun _ => formatItems?_eq_some_iff

/-- Whether a format has the directive for the offset in any notation: it stands
behind a text that is a valid format. -/
def AsksForAnyOffset (format : String) : Prop :=
  ∃ front back, format.toList = front ++ '%' :: '#' :: 'z' :: back ∧
    isValidFormat (String.ofList front) = true

/-- The directive is among the items of a text behind whatever has been read. -/
theorem Reads.anyOffset_mem (hfront : Reads front others)
    (hread : Reads (front ++ '%' :: '#' :: 'z' :: back) items) : .anyOffset ∈ items := by
  induction hfront generalizing items with
  | nil =>
      obtain ⟨shown, rest, later, hshown, -, rfl⟩ := reads_directive_iff.mp hread
      obtain ⟨rfl, -⟩ := Prod.mk.inj (Option.some.inj hshown)
      exact List.mem_cons_self
  | directive hdirective _ ih =>
      obtain ⟨used, rfl, hused⟩ := exists_used_of_readDirective? hdirective
      rw [List.cons_append, List.append_assoc, reads_directive_iff] at hread
      obtain ⟨shown, rest, later, hshown, hrest, rfl⟩ := hread
      obtain ⟨rfl, rfl⟩ := Prod.mk.inj (Option.some.inj ((hused _).symm.trans hshown))
      exact List.mem_append_right _ (ih hrest)
  | literal hc _ ih =>
      obtain ⟨later, hrest, rfl⟩ := (reads_literal_iff hc).mp hread
      exact List.mem_cons_of_mem _ (ih hrest)

/-- Where the directive is among the items, it stands behind a text that can be
read. -/
theorem Reads.exists_front (hread : Reads cs items) (hmem : .anyOffset ∈ items) :
    ∃ front back others, cs = front ++ '%' :: '#' :: 'z' :: back ∧ Reads front others := by
  induction hread with
  | nil => simp at hmem
  | @directive cs rest shown others hdirective hrest ih =>
      rcases List.mem_append.mp hmem with hhere | hlater
      · obtain rfl := (anyOffset_mem_iff_of_readDirective? hdirective).mp hhere
        exact ⟨[], rest, [], rfl, .nil⟩
      · obtain ⟨front, back, earlier, rfl, hfront⟩ := ih hlater
        obtain ⟨used, rfl, hused⟩ := exists_used_of_readDirective? hdirective
        exact ⟨'%' :: (used ++ front), back, shown ++ earlier, by simp,
          .directive (hused front) hfront⟩
  | @literal c cs others hc hrest ih =>
      have hlater : .anyOffset ∈ others := by simpa using hmem
      obtain ⟨front, back, earlier, rfl, hfront⟩ := ih hlater
      exact ⟨c :: front, back, _, rfl, .literal hc hfront⟩

/-- The directive is among the items of a valid format exactly where the format
asks for it. -/
theorem anyOffset_mem_iff {format : String} (hitems : formatItems? format = some items) :
    .anyOffset ∈ items ↔ AsksForAnyOffset format := by
  have hread := formatItems?_eq_some_iff.mp hitems
  unfold AsksForAnyOffset
  constructor
  · intro hmem
    obtain ⟨front, back, others, hsplit, hfront⟩ := hread.exists_front hmem
    refine ⟨front, back, hsplit, isValidFormat_iff.mpr ⟨others, ?_⟩⟩
    rwa [String.toList_ofList]
  · rintro ⟨front, back, hsplit, hfront⟩
    obtain ⟨others, hothers⟩ := isValidFormat_iff.mp hfront
    rw [String.toList_ofList] at hothers
    rw [hsplit] at hread
    exact hothers.anyOffset_mem hread

@[simp]
theorem render?_eq_none_iff {i : Item} : i.render? m = none ↔ i = .anyOffset := by
  cases i <;> simp [Item.render?]

/-- Items have a text unless one of them has none. -/
@[simp]
theorem renderItems?_eq_none_iff : renderItems? m items = none ↔ .anyOffset ∈ items := by
  induction items with
  | nil => simp [renderItems?]
  | cons i items ih =>
      rw [List.mem_cons, ← ih, eq_comm (a := Item.anyOffset), ← render?_eq_none_iff (m := m),
        renderItems?]
      cases i.render? m with
      | none => simp
      | some front =>
          cases renderItems? m items <;> simp

/-- A moment can be shown in a valid format, unless the format asks for the offset
in any notation; then no moment can. -/
theorem format_of_isValidFormat {format : String} (hvalid : isValidFormat format = true)
    (m : Moment) :
    ((∃ text, m.format format = .ok text) ↔ ¬ AsksForAnyOffset format) ∧
      (AsksForAnyOffset format → m.format format = .error (.inapplicable format m)) := by
  obtain ⟨items, hitems⟩ := Option.isSome_iff_exists.mp hvalid
  have hnone := (renderItems?_eq_none_iff (m := m)).trans (anyOffset_mem_iff hitems)
  rw [← hnone, Moment.format, hitems]
  dsimp only
  cases renderItems? m items <;> simp

end VersionTrail.Calendar
