/-
# The grammar of actions

An action is a sign with digits behind it, and leading zeros do not count. Of
the texts of this form, those whose number does not fit in 64 bits are faults of
a number; all other texts are no actions, which is a fault of the configuration.

Reading looks at the size of the number before it looks at the sign. So it says
what the grammar says except where digits of too large a number stand behind a
character that is no sign.
-/
import VersionTrail.Bump
import VersionTrail.Proofs.Text.Numeral

namespace VersionTrail.Action

open VersionTrail.Text

/-- What an action does with its number. -/
inductive Sign where
  | replace
  | increase
  | decrease
  deriving DecidableEq, Repr

/-- The character of a sign. -/
def Sign.char : Sign → Char
  | .replace => '='
  | .increase => '+'
  | .decrease => '-'

/-- The action of a sign with a number. -/
def Sign.action (n : Nat) : Sign → Action
  | .replace => .set n
  | .increase => .add n
  | .decrease => .add (-n)

/-- Whether a text is a character with digits behind it that have a value. -/
def Marked (mark : Char) (n : Nat) (text : String) : Prop :=
  ∃ ds, text.toList = mark :: ds ∧ ds ≠ [] ∧ (∀ d ∈ ds, '0' ≤ d ∧ d ≤ '9') ∧
    Nat.ofDigitChars 10 ds 0 = n

/-- What the grammar says of a text. -/
inductive Documented (text : String) : Except Failure Action → Prop
  /-- A sign with a number that fits is its action. -/
  | action (sign : Sign) (n : Nat) (hshape : Marked sign.char n text) (hfits : n ≤ 2 ^ 63 - 1) :
      Documented text (.ok (sign.action n))
  /-- A sign with a number that does not fit is a fault of a number. -/
  | tooLarge (sign : Sign) (n : Nat) (hshape : Marked sign.char n text) (hlarge : 2 ^ 63 - 1 < n) :
      Documented text (.error (.numeric (.actionTooLarge text)))
  /-- Any other text is a fault of the configuration. -/
  | notUnderstood (hshape : ∀ (sign : Sign) n, ¬ Marked sign.char n text) :
      Documented text (.error (.config (.actionNotUnderstood text)))

/-- Whether a text is the number of an action that does not fit, behind a
character that is no sign. -/
def OverlongWithoutSign (text : String) : Prop :=
  ∃ mark n, Marked mark n text ∧ 2 ^ 63 - 1 < n ∧ ∀ sign : Sign, mark ≠ sign.char

theorem ofSign?_eq_some_iff {mark : Char} {n : Nat} {a : Action} :
    ofSign? mark n = some a ↔ ∃ sign : Sign, mark = sign.char ∧ a = sign.action n := by
  constructor
  · intro hsign
    unfold ofSign? at hsign
    split at hsign
    · exact ⟨.replace, rfl, (Option.some.inj hsign).symm⟩
    · exact ⟨.increase, rfl, (Option.some.inj hsign).symm⟩
    · exact ⟨.decrease, rfl, (Option.some.inj hsign).symm⟩
    · contradiction
  · rintro ⟨sign, rfl, rfl⟩
    cases sign <;> rfl

theorem ofSign?_eq_none_iff {mark : Char} {n : Nat} :
    ofSign? mark n = none ↔ ∀ sign : Sign, mark ≠ sign.char := by
  rw [Option.eq_none_iff_forall_ne_some]
  constructor
  · intro hnone sign hmark
    exact hnone _ (ofSign?_eq_some_iff.mpr ⟨sign, hmark, rfl⟩)
  · intro hnone a hsome
    obtain ⟨sign, hmark, -⟩ := ofSign?_eq_some_iff.mp hsome
    exact hnone sign hmark

variable {mark : Char} {n : Nat} {text : String}

/-- The character and the value are told by the text. -/
theorem Marked.unique {mark' : Char} {n' : Nat} (h : Marked mark n text)
    (h' : Marked mark' n' text) : mark = mark' ∧ n = n' := by
  obtain ⟨ds, htext, -, -, rfl⟩ := h
  obtain ⟨ds', htext', -, -, rfl⟩ := h'
  obtain ⟨rfl, rfl⟩ := List.cons.inj (htext.symm.trans htext')
  exact ⟨rfl, rfl⟩

/-- What reading gives for digits behind a character. -/
theorem Marked.read_eq (h : Marked mark n text) :
    read text =
      if n ≤ 2 ^ 63 - 1 then
        match ofSign? mark n with
        | some a => .ok a
        | none => .error (.config (.actionNotUnderstood text))
      else .error (.numeric (.actionTooLarge text)) := by
  obtain ⟨ds, htext, hne, hdigits, rfl⟩ := h
  have hnumeral : isNumeral ds = true := isNumeral_iff_digits.mpr ⟨hne, hdigits⟩
  rw [read, htext]
  simp only [hnumeral, Bool.not_true, Bool.false_eq_true, if_false]
  by_cases hle : Nat.ofDigitChars 10 ds 0 ≤ 2 ^ 63 - 1
  · rw [if_pos hle, fits_natCast_iff.mpr hle]
    rfl
  · rw [if_neg hle, Bool.eq_false_iff.mpr (mt fits_natCast_iff.mp hle)]
    rfl

/-- Texts of another form are not understood. -/
theorem read_of_not_marked (h : ∀ mark n, ¬ Marked mark n text) :
    read text = .error (.config (.actionNotUnderstood text)) := by
  rw [read]
  split
  case h_1 => rfl
  case h_2 mark ds htext =>
    have hnumeral : isNumeral ds = false := by
      rw [Bool.eq_false_iff]
      intro hds
      obtain ⟨hne, hdigits⟩ := isNumeral_iff_digits.mp hds
      exact h mark _ ⟨ds, htext, hne, hdigits, rfl⟩
    rw [hnumeral]
    rfl

theorem OverlongWithoutSign.read_eq (h : OverlongWithoutSign text) :
    read text = .error (.numeric (.actionTooLarge text)) := by
  obtain ⟨mark, n, hmarked, hlarge, -⟩ := h
  rw [hmarked.read_eq, if_neg (Nat.not_le.mpr hlarge)]

/-- The grammar calls such a text no action. -/
theorem OverlongWithoutSign.documented_iff (h : OverlongWithoutSign text)
    {outcome : Except Failure Action} :
    Documented text outcome ↔ outcome = .error (.config (.actionNotUnderstood text)) := by
  obtain ⟨mark, n, hmarked, -, hmark⟩ := h
  have hshape (sign : Sign) (m : Nat) : ¬ Marked sign.char m text := fun hsign =>
    hmark sign (hmarked.unique hsign).1
  constructor
  · rintro (⟨sign, m, hsign, -⟩ | ⟨sign, m, hsign, -⟩ | -)
    · exact absurd hsign (hshape sign m)
    · exact absurd hsign (hshape sign m)
    · rfl
  · rintro rfl
    exact .notUnderstood hshape

theorem OverlongWithoutSign.not_documented_read (h : OverlongWithoutSign text) :
    ¬ Documented text (read text) := by
  rw [h.documented_iff, h.read_eq]
  exact fun heq => nomatch heq

/-- Reading says what the grammar says, unless the text is the number of an
action that does not fit, behind a character that is no sign. Such a text is
taken for a fault of a number and not for one of the configuration. -/
theorem documented_read_iff (text : String) :
    (Documented text (read text) ↔ ¬ OverlongWithoutSign text) ∧
      (OverlongWithoutSign text → read text = .error (.numeric (.actionTooLarge text))) := by
  refine ⟨⟨fun hread hoverlong => hoverlong.not_documented_read hread, fun hshort => ?_⟩,
    OverlongWithoutSign.read_eq⟩
  by_cases hmarked : ∃ mark n, Marked mark n text
  · obtain ⟨mark, n, hmarked⟩ := hmarked
    rw [hmarked.read_eq]
    split
    case isTrue hle =>
      cases hsign : ofSign? mark n with
      | some a =>
          obtain ⟨sign, rfl, rfl⟩ := ofSign?_eq_some_iff.mp hsign
          exact .action sign n hmarked hle
      | none =>
          refine .notUnderstood fun sign m hshape => ?_
          exact ofSign?_eq_none_iff.mp hsign sign (hmarked.unique hshape).1
    case isFalse hlarge =>
      have hlarge := Nat.not_le.mp hlarge
      cases hsign : ofSign? mark n with
      | some a =>
          obtain ⟨sign, rfl, -⟩ := ofSign?_eq_some_iff.mp hsign
          exact .tooLarge sign n hmarked hlarge
      | none => exact absurd ⟨mark, n, hmarked, hlarge, ofSign?_eq_none_iff.mp hsign⟩ hshort
  · have hother : ∀ mark n, ¬ Marked mark n text := fun mark n h => hmarked ⟨mark, n, h⟩
    rw [read_of_not_marked hother]
    exact .notUnderstood fun sign n => hother sign.char n

/-- The least number that does not fit, behind a star. -/
theorem not_documented_read_starred :
    read "*9223372036854775808" = .error (.numeric (.actionTooLarge "*9223372036854775808")) ∧
      ¬ Documented "*9223372036854775808" (read "*9223372036854775808") := by
  have hmarked : Marked '*' 9223372036854775808 "*9223372036854775808" :=
    ⟨"9223372036854775808".toList, by decide, by decide, by simp, by decide⟩
  have hoverlong : OverlongWithoutSign "*9223372036854775808" :=
    ⟨_, _, hmarked, by decide, fun sign => by cases sign <;> decide⟩
  exact ⟨hoverlong.read_eq, hoverlong.not_documented_read⟩

end VersionTrail.Action
