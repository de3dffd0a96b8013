/-
# Where a text stands inside another one

A position is the number of characters in front. Both searches walk through the
text once, and what is found behind its first character stands one position
further on. So, by induction on the text, they come to the smallest and to the
largest position at which a part stands, and to none where it stands nowhere.

Texts are stored as bytes, from one to four for a character. Only the first byte of
a character can be the first byte of one, so the bytes of a part stand in the bytes of
a text nowhere but where the part stands in the text. Searching the bytes therefore
comes to the same places as searching the characters.
-/
import Mathlib.Logic.Basic
import Mathlib.Order.Bounds.Defs
import VersionTrail.Text

namespace VersionTrail.Text

/-- Whether a part stands in a text behind a number of characters. -/
def StandsAt {α : Type} (part text : List α) (i : Nat) : Prop :=
  ∃ front back, text = front ++ part ++ back ∧ front.length = i

section Standing

variable {α : Type} {part cs : List α} {c : α} {i : Nat}

theorem StandsAt.isInfix (h : StandsAt part cs i) : part <:+: cs := by
  obtain ⟨front, back, htext, -⟩ := h
  exact ⟨front, back, htext.symm⟩

@[simp]
theorem standsAt_zero_iff : StandsAt part cs 0 ↔ part <+: cs := by
  constructor
  · rintro ⟨front, back, htext, hlength⟩
    rw [List.length_eq_zero_iff.mp hlength, List.nil_append] at htext
    exact ⟨back, htext.symm⟩
  · rintro ⟨back, htext⟩
    exact ⟨[], back, htext.symm, rfl⟩

@[simp]
theorem standsAt_succ_iff : StandsAt part (c :: cs) (i + 1) ↔ StandsAt part cs i := by
  constructor
  · rintro ⟨front, back, htext, hlength⟩
    obtain ⟨first, rest, rfl⟩ := List.exists_cons_of_length_eq_add_one hlength
    exact ⟨rest, back, (List.cons.inj htext).2, Nat.succ.inj hlength⟩
  · rintro ⟨front, back, rfl, rfl⟩
    exact ⟨c :: front, back, rfl, rfl⟩

@[simp]
theorem standsAt_append_iff {front : List α} :
    StandsAt part (front ++ cs) (front.length + i) ↔ StandsAt part cs i := by
  induction front with
  | nil => simp
  | cons c front ih => rw [List.cons_append, List.length_cons, Nat.succ_add, standsAt_succ_iff, ih]

/-- A part stands where what is behind the position begins with it. -/
theorem standsAt_iff_drop : StandsAt part cs i ↔ i ≤ cs.length ∧ part <+: cs.drop i := by
  constructor
  · rintro ⟨front, back, rfl, rfl⟩
    rw [List.append_assoc, List.drop_left]
    exact ⟨by simp, List.prefix_append part back⟩
  · rintro ⟨hle, back, hback⟩
    refine ⟨cs.take i, back, ?_, List.length_take_of_le hle⟩
    rw [List.append_assoc, hback, List.take_append_drop]

theorem StandsAt.take_drop (h : StandsAt part cs i) : (cs.drop i).take part.length = part :=
  (List.prefix_iff_eq_take.mp (standsAt_iff_drop.mp h).2).symm

/-- Where a part stands, the text is what is in front of it, the part, and the rest. -/
theorem StandsAt.take_append_drop (h : StandsAt part cs i) :
    cs.take i ++ part ++ cs.drop (i + part.length) = cs := by
  obtain ⟨front, back, rfl, rfl⟩ := h
  rw [← List.length_append, List.drop_left, List.append_assoc front, List.take_left,
    List.append_assoc]

theorem StandsAt.getElem?_eq (h : StandsAt (c :: part) cs i) : cs[i]? = some c := by
  obtain ⟨front, back, rfl, rfl⟩ := h
  simp

theorem StandsAt.add_length_le (h : StandsAt part cs i) : i + part.length ≤ cs.length := by
  obtain ⟨front, back, rfl, rfl⟩ := h
  simp

end Standing

variable {part cs : List Char} {c d : Char} {i j b : Nat}

@[simp]
theorem firstPosition?_eq_none_iff : firstPosition? part cs = none ↔ ¬ part <:+: cs := by
  induction cs with
  | nil => simp [firstPosition?]
  | cons c cs ih =>
      rw [firstPosition?, List.infix_cons_iff, not_or, ← ih, ← List.isPrefixOf_iff_prefix]
      cases part.isPrefixOf (c :: cs) <;> simp

@[simp]
theorem lastPosition?_eq_none_iff : lastPosition? part cs = none ↔ ¬ part <:+: cs := by
  induction cs with
  | nil => simp [lastPosition?]
  | cons c cs ih =>
      rw [lastPosition?, List.infix_cons_iff, not_or, ← ih]
      cases lastPosition? part cs <;> simp

/-- The first position is the smallest one at which the part stands. -/
theorem least_of_firstPosition? (hfirst : firstPosition? part cs = some i) :
    StandsAt part cs i ∧ ∀ j, StandsAt part cs j → i ≤ j := by
  induction cs generalizing i with
  | nil =>
      obtain ⟨hfront, rfl⟩ : part <+: [] ∧ 0 = i := by simpa [firstPosition?] using hfirst
      exact ⟨standsAt_zero_iff.mpr hfront, fun j _ => Nat.zero_le j⟩
  | cons c cs ih =>
      rw [firstPosition?] at hfirst
      by_cases hfront : part <+: c :: cs
      · obtain rfl : 0 = i := by simpa [hfront] using hfirst
        exact ⟨standsAt_zero_iff.mpr hfront, fun j _ => Nat.zero_le j⟩
      · rw [if_neg (by simpa using hfront)] at hfirst
        obtain ⟨k, hrest, rfl⟩ := Option.map_eq_some_iff.mp hfirst
        obtain ⟨hstands, hleast⟩ := ih hrest
        refine ⟨standsAt_succ_iff.mpr hstands, fun j hj => ?_⟩
        cases j with
        | zero => exact absurd (standsAt_zero_iff.mp hj) hfront
        | succ j => exact Nat.succ_le_succ (hleast j (standsAt_succ_iff.mp hj))

/-- The last position is the largest one at which the part stands. -/
theorem greatest_of_lastPosition? (hlast : lastPosition? part cs = some i) :
    StandsAt part cs i ∧ ∀ j, StandsAt part cs j → j ≤ i := by
  induction cs generalizing i with
  | nil =>
      obtain ⟨hfront, rfl⟩ : part <+: [] ∧ 0 = i := by simpa [lastPosition?] using hlast
      exact ⟨standsAt_zero_iff.mpr hfront, fun j hj => Nat.le_of_add_right_le hj.add_length_le⟩
  | cons c cs ih =>
      rw [lastPosition?] at hlast
      cases hrest : lastPosition? part cs with
      | some k =>
          rw [hrest] at hlast
          obtain rfl := Option.some.inj hlast
          obtain ⟨hstands, hgreatest⟩ := ih hrest
          refine ⟨standsAt_succ_iff.mpr hstands, fun j hj => ?_⟩
          cases j with
          | zero => exact Nat.zero_le _
          | succ j => exact Nat.succ_le_succ (hgreatest j (standsAt_succ_iff.mp hj))
      | none =>
          rw [hrest] at hlast
          obtain ⟨hfront, rfl⟩ : part <+: c :: cs ∧ 0 = i := by simpa using hlast
          refine ⟨standsAt_zero_iff.mpr hfront, fun j hj => ?_⟩
          cases j with
          | zero => exact Nat.le_refl 0
          | succ j =>
              have hoccurs := (standsAt_succ_iff.mp hj).isInfix
              exact absurd hoccurs (lastPosition?_eq_none_iff.mp hrest)

/-- The bytes of characters in UTF-8. -/
def bytesOf (cs : List Char) : List UInt8 :=
  cs.flatMap String.utf8EncodeChar

@[simp]
theorem bytesOf_cons (c : Char) (cs : List Char) :
    bytesOf (c :: cs) = String.utf8EncodeChar c ++ bytesOf cs :=
  List.flatMap_cons

@[simp]
theorem bytesOf_append (cs ds : List Char) : bytesOf (cs ++ ds) = bytesOf cs ++ bytesOf ds :=
  List.flatMap_append

theorem length_bytesOf_take_le (h : i ≤ j) :
    (bytesOf (cs.take i)).length ≤ (bytesOf (cs.take j)).length := by
  obtain ⟨more, hmore⟩ : cs.take i <+: cs.take j := List.take_prefix_take_left h
  simp [← hmore]

/-- What character begins some bytes is told by them. -/
theorem eq_of_utf8EncodeChar_append {front back : List UInt8}
    (heq : String.utf8EncodeChar c ++ front = String.utf8EncodeChar d ++ back) :
    c = d ∧ front = back := by
  have hread (e : Char) (more : List UInt8) :
      (String.utf8EncodeChar e ++ more).toByteArray.utf8DecodeChar? 0 = some e := by
    rw [List.toByteArray_append]
    exact ByteArray.utf8DecodeChar?_utf8EncodeChar_append
  obtain rfl : c = d := by
    apply Option.some.inj
    rw [← hread c front, heq, hread]
  exact ⟨rfl, List.append_cancel_left heq⟩

theorem isPrefix_of_bytesOf (hstart : bytesOf part <+: bytesOf cs) : part <+: cs := by
  induction part generalizing cs with
  | nil => exact List.nil_prefix
  | cons p part ih =>
      obtain ⟨back, hback⟩ := hstart
      rw [bytesOf_cons, List.append_assoc] at hback
      cases cs with
      | nil => exact absurd (List.append_eq_nil_iff.mp hback).1 String.utf8EncodeChar_ne_nil
      | cons c cs =>
          rw [bytesOf_cons] at hback
          obtain ⟨rfl, hrest⟩ := eq_of_utf8EncodeChar_append hback
          exact (List.prefix_cons_inj p).mpr (ih ⟨back, hrest⟩)

/-- The bytes of a part stand at no byte of a character but its first one. -/
theorem eq_zero_of_standsAt_bytesOf {rest : List UInt8} (hpart : part ≠ [])
    (h : StandsAt (bytesOf part) (String.utf8EncodeChar c ++ rest) b)
    (hlt : b < (String.utf8EncodeChar c).length) : b = 0 := by
  obtain ⟨p, part, rfl⟩ := List.exists_cons_of_ne_nil hpart
  obtain ⟨first, more, hfirst⟩ :=
    List.exists_cons_of_ne_nil (String.utf8EncodeChar_ne_nil : String.utf8EncodeChar p ≠ [])
  have hzero : 0 < (String.utf8EncodeChar p).length := by simp [hfirst]
  have hbegins : (String.utf8EncodeChar p)[0].IsUTF8FirstByte :=
    UInt8.isUTF8FirstByte_getElem_utf8EncodeChar.mpr rfl
  simp only [hfirst, List.getElem_cons_zero] at hbegins
  rw [bytesOf_cons, hfirst, List.cons_append] at h
  have hbyte := h.getElem?_eq
  rw [List.getElem?_append_left hlt, List.getElem?_eq_getElem hlt] at hbyte
  rw [← Option.some.inj hbyte] at hbegins
  exact UInt8.isUTF8FirstByte_getElem_utf8EncodeChar.mp hbegins

theorem StandsAt.bytesOf (h : StandsAt part cs i) :
    StandsAt (bytesOf part) (bytesOf cs) (Text.bytesOf (cs.take i)).length := by
  obtain ⟨front, back, rfl, rfl⟩ := h
  refine ⟨Text.bytesOf front, Text.bytesOf back, ?_, ?_⟩
  · simp
  · simp

theorem exists_standsAt_of_bytesOf (hpart : part ≠ [])
    (h : StandsAt (bytesOf part) (bytesOf cs) b) :
    ∃ i, StandsAt part cs i ∧ (bytesOf (cs.take i)).length = b := by
  induction cs generalizing b with
  | nil =>
      obtain ⟨p, part, rfl⟩ := List.exists_cons_of_ne_nil hpart
      have hnil := List.infix_nil.mp h.isInfix
      rw [bytesOf_cons] at hnil
      exact absurd (List.append_eq_nil_iff.mp hnil).1 String.utf8EncodeChar_ne_nil
  | cons c cs ih =>
      rw [bytesOf_cons] at h
      rcases Nat.lt_or_ge b (String.utf8EncodeChar c).length with hlt | hge
      · obtain rfl := eq_zero_of_standsAt_bytesOf hpart h hlt
        rw [← bytesOf_cons, standsAt_zero_iff] at h
        exact ⟨0, standsAt_zero_iff.mpr (isPrefix_of_bytesOf h), rfl⟩
      · obtain ⟨k, rfl⟩ := Nat.exists_eq_add_of_le hge
        obtain ⟨i, hi, hlength⟩ := ih (standsAt_append_iff.mp h)
        refine ⟨i + 1, standsAt_succ_iff.mpr hi, ?_⟩
        simp [hlength]

/-- In front of the first position are as many bytes as the first byte is away at
which the bytes of the part stand. -/
theorem isLeast_of_firstPosition? (hfirst : firstPosition? part cs = some i) :
    IsLeast {b | StandsAt (bytesOf part) (bytesOf cs) b} (bytesOf (cs.take i)).length := by
  obtain ⟨hstands, hleast⟩ := least_of_firstPosition? hfirst
  refine ⟨hstands.bytesOf, fun b hb => ?_⟩
  rcases eq_or_ne part [] with rfl | hpart
  · obtain rfl : i = 0 := Nat.le_zero.mp (hleast 0 (standsAt_zero_iff.mpr List.nil_prefix))
    exact Nat.zero_le b
  · obtain ⟨j, hj, rfl⟩ := exists_standsAt_of_bytesOf hpart hb
    exact length_bytesOf_take_le (hleast j hj)

/-- In front of the last position are as many bytes as the last byte is away at
which the bytes of the part stand. -/
theorem isGreatest_of_lastPosition? (hlast : lastPosition? part cs = some i) :
    IsGreatest {b | StandsAt (bytesOf part) (bytesOf cs) b} (bytesOf (cs.take i)).length := by
  obtain ⟨hstands, hgreatest⟩ := greatest_of_lastPosition? hlast
  refine ⟨hstands.bytesOf, fun b hb => ?_⟩
  rcases eq_or_ne part [] with rfl | hpart
  · have hend : cs.length ≤ i := hgreatest _ ⟨cs, [], by simp, rfl⟩
    rw [List.take_of_length_le hend]
    exact Nat.le_of_add_right_le hb.add_length_le
  · obtain ⟨j, hj, rfl⟩ := exists_standsAt_of_bytesOf hpart hb
    exact length_bytesOf_take_le (hgreatest j hj)

end VersionTrail.Text
