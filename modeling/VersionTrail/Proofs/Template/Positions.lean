/-
# Positions in templates

The functions that search a text and the one that takes a part out of it count
positions alike: in characters, from zero up to the length of the text. So a part
is found at the first and at the last position from which its length takes it
out, and the text is put together again from what stands in front of it, the part,
and what stands behind it. A search of the bytes of the text ends at the same places,
with as many bytes in front as the characters there have.

Positions and lengths are handed over as integers of 64 bits. So a statement about
all positions of a text is one about texts of fewer than 2^63 characters; a text in
memory has not even as many bytes.
-/
import VersionTrail.Proofs.Template.Arithmetic
import VersionTrail.Proofs.Text.Positions

namespace VersionTrail.Template

open VersionTrail.Text

variable (s : Scope) {text part : String}

theorem call_index (text part : String) :
    call s "Index" [text, part] = .ok (positionText (firstPosition? part.toList text.toList)) :=
  call_title s .firstIndex [text, part]

theorem call_lastIndex (text part : String) :
    call s "LastIndex" [text, part] = .ok (positionText (lastPosition? part.toList text.toList)) :=
  call_title s .lastIndex [text, part]

theorem call_length (text : String) : call s "Length" [text] = .ok (toString text.length) :=
  call_title s .length [text]

/-- A position is written without a sign, so that there is none has a text of its own. -/
@[simp]
theorem positionText_eq_iff {position : Option Nat} :
    positionText position = "-1" ↔ position = none := by
  cases position with
  | none => simp [positionText]
  | some i =>
      simp only [positionText, reduceCtorEq, iff_false]
      intro heq
      have hmem : '-' ∈ i.repr.toList := by
        rw [← Nat.toString_eq_repr, heq]
        decide
      rw [Nat.toList_repr] at hmem
      exact absurd (Nat.isDigit_of_mem_toDigits (by decide) (by decide) hmem) (by decide)

/-- A part is taken out from a position of the text on; the length is not negative,
and what is behind the end does not count. -/
theorem call_substring_eq_ok_iff {x y value : String} :
    call s "Substring" [text, x, y] = .ok value ↔
      ∃ start count, Spells x start ∧ Spells y count ∧
        (0 ≤ start ∧ start ≤ text.length ∧ 0 ≤ count) ∧
        String.ofList ((text.toList.drop start.toNat).take count.toNat) = value := by
  have hcall : call s "Substring" [text, x, y] = substringText text x y :=
    call_title s .substring [text, x, y]
  simp only [hcall, substringText, bind_eq_ok_iff, intArg_eq_ok_iff]
  constructor
  · rintro ⟨start, hx, count, hy, hvalue⟩
    refine ⟨start, count, hx, hy, ?_⟩
    split at hvalue
    · cases hvalue
    · split at hvalue
      · cases hvalue
      · exact ⟨by omega, Except.ok.inj hvalue⟩
  · rintro ⟨start, count, hx, hy, hbounds, hvalue⟩
    refine ⟨start, hx, count, hy, ?_⟩
    rw [if_neg (by omega), if_neg (by omega), hvalue]

/-- Whether a part is what its own length takes out of a text from a position on. -/
def TakenAt (s : Scope) (text part position : String) : Prop :=
  call s "Substring" [text, position, toString part.length] = .ok part

/-- Whether a text is put together from what is in front of a position, a part, and
what is as far behind the position as the part is long. -/
def JoinedAt (s : Scope) (text part : String) (i : Nat) : Prop :=
  ∃ front back, call s "Substring" [text, toString 0, toString i] = .ok front ∧
    call s "Substring" [text, toString (i + part.length), toString text.length] = .ok back ∧
    front ++ part ++ back = text

theorem standsAt_of_takenAt {position : String} {i : Int} (hi : Spells position i)
    (h : TakenAt s text part position) :
    0 ≤ i ∧ StandsAt part.toList text.toList i.toNat := by
  obtain ⟨start, count, hstart, -, hbounds, hvalue⟩ := (call_substring_eq_ok_iff s).mp h
  obtain rfl := hstart.unique hi
  have htake : (text.toList.drop start.toNat).take count.toNat = part.toList := by
    rw [← hvalue, String.toList_ofList]
  refine ⟨hbounds.1, standsAt_iff_drop.mpr ⟨?_, ?_⟩⟩
  · rw [String.length_toList]
    omega
  -- Whatever length the text of it spells, a front of what is behind the position is taken.
  · rw [← htake]
    exact List.take_prefix _ _

section Standing

variable {i : Nat} (hi : StandsAt part.toList text.toList i)
include hi

theorem add_length_le_of_standsAt : i + part.length ≤ text.length := by
  simpa only [String.length_toList] using hi.add_length_le

variable (hsize : text.length < 2 ^ 63)
include hsize

theorem takenAt_of_standsAt : TakenAt s text part (toString i) := by
  have hle := add_length_le_of_standsAt hi
  refine (call_substring_eq_ok_iff s).mpr ⟨i, part.length, spells_natCast (by omega),
    spells_natCast (by omega), by omega, ?_⟩
  rw [Int.toNat_natCast, Int.toNat_natCast, ← String.length_toList, hi.take_drop,
    String.ofList_toList]

theorem joinedAt_of_standsAt : JoinedAt s text part i := by
  have hle := add_length_le_of_standsAt hi
  have hback : (text.toList.drop (i + part.length)).take text.length =
      text.toList.drop (i + part.length) := by
    apply List.take_of_length_le
    rw [List.length_drop, String.length_toList]
    omega
  refine ⟨String.ofList (text.toList.take i), String.ofList (text.toList.drop (i + part.length)),
    (call_substring_eq_ok_iff s).mpr ⟨(0 : Nat), i, spells_natCast (by omega),
      spells_natCast (by omega), by omega, rfl⟩,
    (call_substring_eq_ok_iff s).mpr ⟨(i + part.length : Nat), text.length,
      spells_natCast (by omega), spells_natCast (by omega), by omega, congrArg _ hback⟩, ?_⟩
  have hjoin := hi.take_append_drop
  rw [String.length_toList] at hjoin
  simpa only [← String.toList_inj, String.toList_append, String.toList_ofList] using hjoin

end Standing

/-- The bytes of a text behind which the bytes of a part stand. -/
def bytePositions (text part : String) : Set Nat :=
  {b | StandsAt (bytesOf part.toList) (bytesOf text.toList) b}

/-- How many bytes the characters in front of a position have. -/
def bytesBefore (text : String) (i : Nat) : Nat :=
  (bytesOf (text.toList.take i)).length

/-- What the functions say of a part that occurs in a text: it is found behind the
characters in front of the smallest and of the largest byte at which its bytes stand,
those positions are the smallest and the largest from which its length takes it out, and
the text is put together at both. -/
structure Located (s : Scope) (text part : String) (first last : Nat) : Prop where
  index : call s "Index" [text, part] = .ok (toString first)
  lastIndex : call s "LastIndex" [text, part] = .ok (toString last)
  first_le_last : first ≤ last
  firstByte : IsLeast (bytePositions text part) (bytesBefore text first)
  lastByte : IsGreatest (bytePositions text part) (bytesBefore text last)
  between : ∀ position i, Spells position i → TakenAt s text part position →
    (first : Int) ≤ i ∧ i ≤ last
  ends : ∀ i ∈ [first, last], TakenAt s text part (toString i) ∧ JoinedAt s text part i

theorem exists_located (hoccurs : part.toList <:+: text.toList) (hsize : text.length < 2 ^ 63) :
    ∃ first last, Located s text part first last := by
  obtain ⟨first, hfirst⟩ : ∃ i, firstPosition? part.toList text.toList = some i :=
    Option.ne_none_iff_exists'.mp fun hnone => firstPosition?_eq_none_iff.mp hnone hoccurs
  obtain ⟨last, hlast⟩ : ∃ i, lastPosition? part.toList text.toList = some i :=
    Option.ne_none_iff_exists'.mp fun hnone => lastPosition?_eq_none_iff.mp hnone hoccurs
  obtain ⟨hstart, hleast⟩ := least_of_firstPosition? hfirst
  obtain ⟨hstop, hgreatest⟩ := greatest_of_lastPosition? hlast
  refine ⟨first, last, ?_, ?_, hleast last hstop, isLeast_of_firstPosition? hfirst,
    isGreatest_of_lastPosition? hlast, ?_, ?_⟩
  · rw [call_index, hfirst, positionText]
  · rw [call_lastIndex, hlast, positionText]
  · intro position i hi htaken
    obtain ⟨hnonneg, hstands⟩ := standsAt_of_takenAt s hi htaken
    have hge := hleast _ hstands
    have hle := hgreatest _ hstands
    omega
  · intro i hi
    have hstands : StandsAt part.toList text.toList i := by
      rcases List.mem_pair.mp hi with rfl | rfl
      · exact hstart
      · exact hstop
    exact ⟨takenAt_of_standsAt s hstands hsize, joinedAt_of_standsAt s hstands hsize⟩

/-- Searching, measuring and taking out count the same positions. Both searches come to
minus one exactly for a part that does not occur, and otherwise to the first and the last
position from which its length takes it out. Taking out succeeds from every position up
to the length of the text, and gives as many characters as are asked for and are there. -/
theorem positions_shared (s : Scope) (text part : String) :
    (∀ t, call s "Length" [t] = .ok (toString t.length)) ∧
    (call s "Index" [text, part] = .ok "-1" ↔ ¬ part.toList <:+: text.toList) ∧
    (call s "LastIndex" [text, part] = .ok "-1" ↔ ¬ part.toList <:+: text.toList) ∧
    (part.toList <:+: text.toList → text.length < 2 ^ 63 →
      ∃ first last, Located s text part first last) ∧
    ∀ x y start count, Spells x start → Spells y count →
      ((∃ value, call s "Substring" [text, x, y] = .ok value) ↔
        0 ≤ start ∧ start ≤ text.length ∧ 0 ≤ count) ∧
      ∀ value, call s "Substring" [text, x, y] = .ok value →
        call s "Length" [value] = .ok (toString (min count (text.length - start))) := by
  refine ⟨call_length s, ?_, ?_, exists_located s, ?_⟩
  · rw [call_index, Except.ok.injEq, positionText_eq_iff, firstPosition?_eq_none_iff]
  · rw [call_lastIndex, Except.ok.injEq, positionText_eq_iff, lastPosition?_eq_none_iff]
  · intro x y start count hx hy
    constructor
    · constructor
      · rintro ⟨value, hvalue⟩
        obtain ⟨start', count', hx', hy', hbounds, -⟩ := (call_substring_eq_ok_iff s).mp hvalue
        rwa [hx.unique hx', hy.unique hy']
      · intro hbounds
        exact ⟨_, (call_substring_eq_ok_iff s).mpr ⟨start, count, hx, hy, hbounds, rfl⟩⟩
    · intro value hvalue
      obtain ⟨start', count', hx', hy', hbounds, rfl⟩ := (call_substring_eq_ok_iff s).mp hvalue
      obtain rfl := hx.unique hx'
      obtain rfl := hy.unique hy'
      have hcount : ((min count.toNat (text.length - start.toNat) : Nat) : Int) =
          min count (text.length - start) := by omega
      rw [call_length, ← toString_natCast, String.length_ofList, List.length_take,
        List.length_drop, String.length_toList, hcount]

/-- A part that overlaps itself, behind a character of two bytes. -/
theorem positions_shared_overlapping :
    let text := "éana-banana"
    let part := "ana"
    (∃ first last, Located {} text part first last ∧ toString first = "1" ∧ toString last = "8") ∧
      ∃ value, call {} "Substring" [text, "10", "+9"] = .ok value ∧
        call {} "Length" [value] = .ok "1" := by
  intro text part
  obtain ⟨-, -, -, hlocated, hsubstring⟩ := positions_shared {} text part
  have hoccurs : part.toList <:+: text.toList := ⟨['é'], "-banana".toList, by decide⟩
  have hfirst : firstPosition? part.toList text.toList = some 1 := by decide
  have hlast : lastPosition? part.toList text.toList = some 8 := by decide
  obtain ⟨first, last, h⟩ := hlocated hoccurs (by decide)
  have hindex := h.index
  have hlastIndex := h.lastIndex
  rw [call_index, hfirst, Except.ok.injEq, positionText] at hindex
  rw [call_lastIndex, hlast, Except.ok.injEq, positionText] at hlastIndex
  have hstart : Spells "10" 10 := readInt?_trim_eq_some_iff.mp (by decide)
  have hcount : Spells "+9" 9 := readInt?_trim_eq_some_iff.mp (by decide)
  obtain ⟨htaken, hmeasured⟩ := hsubstring _ _ _ _ hstart hcount
  obtain ⟨value, hvalue⟩ := htaken.mpr (by decide)
  refine ⟨⟨first, last, h, hindex.symm, hlastIndex.symm⟩, value, hvalue, ?_⟩
  rw [hmeasured value hvalue]
  decide

end VersionTrail.Template
