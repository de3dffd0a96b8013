/-
# Runs and first marks

What is taken from the front of a text ends at a character of another kind: a run at
the first one outside its class, a split at the first mark.
-/
import Mathlib.Data.List.TakeWhile
import VersionTrail.Text

namespace VersionTrail.Text

/-- A text is what stands in front of its first mark, the mark, and the rest. -/
theorem eq_append_of_splitFirst? {mark : Char} {cs front back : List Char}
    (hsplit : splitFirst? mark cs = some (front, back)) : cs = front ++ mark :: back := by
  induction cs generalizing front with
  | nil => simp [splitFirst?] at hsplit
  | cons c cs ih =>
      rw [splitFirst?] at hsplit
      by_cases hc : c = mark
      · rw [if_pos hc] at hsplit
        obtain ⟨rfl, rfl⟩ : [] = front ∧ cs = back := by simpa using hsplit
        simp [hc]
      · rw [if_neg hc] at hsplit
        obtain ⟨⟨inner, rest⟩, hinner, hpair⟩ := Option.map_eq_some_iff.mp hsplit
        obtain ⟨rfl, rfl⟩ : c :: inner = front ∧ rest = back := by simpa using hpair
        rw [ih hinner, List.cons_append]

@[simp]
theorem splitFirst?_eq_none_iff {mark : Char} {cs : List Char} :
    splitFirst? mark cs = none ↔ mark ∉ cs := by
  induction cs with
  | nil => simp [splitFirst?]
  | cons c cs ih =>
      by_cases hc : c = mark
      · simp [splitFirst?, hc]
      · simp [splitFirst?, hc, Ne.symm hc, ih]

theorem splitFirst?_append {mark : Char} {front : List Char} (hfront : mark ∉ front)
    (back : List Char) : splitFirst? mark (front ++ mark :: back) = some (front, back) := by
  induction front with
  | nil => simp [splitFirst?]
  | cons c front ih =>
      obtain ⟨hc, hfront⟩ : ¬ mark = c ∧ mark ∉ front := by simpa using hfront
      simp [splitFirst?, Ne.symm hc, ih hfront]

theorem notMem_of_splitFirst? {mark : Char} {cs front back : List Char}
    (hsplit : splitFirst? mark cs = some (front, back)) : mark ∉ front := by
  induction cs generalizing front with
  | nil => simp [splitFirst?] at hsplit
  | cons c cs ih =>
      rw [splitFirst?] at hsplit
      by_cases hc : c = mark
      · rw [if_pos hc] at hsplit
        obtain ⟨rfl, -⟩ : [] = front ∧ cs = back := by simpa using hsplit
        exact List.not_mem_nil
      · rw [if_neg hc] at hsplit
        obtain ⟨⟨inner, rest⟩, hinner, hpair⟩ := Option.map_eq_some_iff.mp hsplit
        obtain ⟨rfl, rfl⟩ : c :: inner = front ∧ rest = back := by simpa using hpair
        simpa [Ne.symm hc] using ih hinner

/-- A run of characters ends at the first one that is not of its kind. -/
theorem takeWhile_append_of_head? {p : Char → Bool} {front back : List Char}
    (hfront : ∀ c ∈ front, p c = true) (hback : ∀ c ∈ back.head?, p c = false) :
    (front ++ back).takeWhile p = front := by
  rw [List.takeWhile_append_of_pos hfront]
  cases back with
  | nil => exact List.append_nil front
  | cons c back => rw [List.takeWhile_cons_of_neg (by simpa using hback), List.append_nil]

theorem dropWhile_append_of_head? {p : Char → Bool} {front back : List Char}
    (hfront : ∀ c ∈ front, p c = true) (hback : ∀ c ∈ back.head?, p c = false) :
    (front ++ back).dropWhile p = back := by
  rw [List.dropWhile_append_of_pos hfront]
  cases back with
  | nil => rfl
  | cons c back => rw [List.dropWhile_cons_of_neg (by simpa using hback)]

theorem takeWhile_append_cons {p : Char → Bool} {front : List Char} {c : Char}
    (hfront : ∀ d ∈ front, p d = true) (hc : p c = false) (back : List Char) :
    (front ++ c :: back).takeWhile p = front :=
  takeWhile_append_of_head? hfront (by simpa using hc)

theorem dropWhile_append_cons {p : Char → Bool} {front : List Char} {c : Char}
    (hfront : ∀ d ∈ front, p d = true) (hc : p c = false) (back : List Char) :
    (front ++ c :: back).dropWhile p = c :: back :=
  dropWhile_append_of_head? hfront (by simpa using hc)

/-- One more character than the longest run takes the run and what ends it. -/
theorem take_length_takeWhile_succ {p : Char → Bool} {cs rest : List Char} {c : Char}
    (hrest : cs.dropWhile p = c :: rest) :
    cs.take ((cs.takeWhile p).length + 1) = cs.takeWhile p ++ [c] := by
  calc
    _ = (cs.takeWhile p ++ cs.dropWhile p).take ((cs.takeWhile p).length + 1) := by
      rw [List.takeWhile_append_dropWhile]
    _ = _ := by
      rw [hrest, List.take_length_add_append]
      rfl

end VersionTrail.Text
