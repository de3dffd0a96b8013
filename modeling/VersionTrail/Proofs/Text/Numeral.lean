/-
# Blank texts and spelled integers

Trimming leaves nothing of a blank text and all of a text without blanks. A
written number is a text without blanks, so it is read back as it stands.

A text spells an integer if it is, without the blanks around it, a run of digits
with at most one sign in front, and its value has 64 bits. These are the texts
that are read as integers. Many texts spell one integer; the one that is written
for it is its decimal text.
-/
import Mathlib.Algebra.Ring.Int.Defs
import Mathlib.Algebra.Ring.Nat
import Mathlib.Data.List.DropRight
import Mathlib.Data.List.TakeWhile
import VersionTrail.Text

namespace VersionTrail.Text

theorem dropBlanks_eq_nil_iff {cs : List Char} :
    dropBlanks cs = [] ↔ ∀ c ∈ cs, isBlank c = true := by
  rw [dropBlanks, List.dropWhile_eq_nil_iff]

theorem dropBlanks_of_not_blank {cs : List Char} (hcs : ∀ c ∈ cs, isBlank c = false) :
    dropBlanks cs = cs := by
  cases cs with
  | nil => rfl
  | cons c cs =>
      have hc : isBlank c = false := hcs c List.mem_cons_self
      rw [dropBlanks, List.dropWhile_cons, hc]
      simp

theorem dropBlanks_append {blanks : List Char} (hblanks : ∀ c ∈ blanks, isBlank c = true)
    (cs : List Char) : dropBlanks (blanks ++ cs) = dropBlanks cs :=
  List.dropWhile_append_of_pos hblanks

@[simp]
theorem dropBlanks_dropBlanks (cs : List Char) :
    dropBlanks (dropBlanks cs) = dropBlanks cs := by
  rw [dropBlanks, dropBlanks, List.dropWhile_idempotent]

/-- A first character that the blanks at the front leave is not blank. -/
theorem not_isBlank_of_dropBlanks_eq_cons {cs rest : List Char} {c : Char}
    (hdrop : dropBlanks cs = c :: rest) : isBlank c = false := by
  have hhead := List.head?_dropWhile_not isBlank cs
  rw [← dropBlanks, hdrop] at hhead
  exact hhead

/-- Only a blank text has nothing but blanks at its ends. -/
@[simp]
theorem isEmpty_trim (s : String) : (trim s).isEmpty = isBlankText s := by
  have hempty : (trim s).isEmpty = true ↔ dropBlanks (dropBlanks s.toList).reverse = [] := by
    simp [trim, dropBlanksRight, String.isEmpty_iff, ← String.toList_inj]
  have hblank : isBlankText s = true ↔ dropBlanks s.toList = [] := by
    rw [isBlankText, List.all_eq_true, dropBlanks_eq_nil_iff]
  rw [Bool.eq_iff_iff, hempty, hblank]
  constructor
  · intro hrest
    cases hdrop : dropBlanks s.toList with
    | nil => rfl
    | cons c cs =>
        have hc : isBlank c = true := dropBlanks_eq_nil_iff.mp hrest c (by simp [hdrop])
        rw [not_isBlank_of_dropBlanks_eq_cons hdrop] at hc
        contradiction
  · intro hnil
    rw [hnil]
    rfl

theorem isNumeral_iff_digits {ds : List Char} :
    isNumeral ds = true ↔ ds ≠ [] ∧ ∀ d ∈ ds, '0' ≤ d ∧ d ≤ '9' := by
  simp [isNumeral_iff, Char.isDigit, Char.le_def]

theorem fits_natCast_iff {n : Nat} : fits (n : Int) = true ↔ n ≤ 2 ^ 63 - 1 := by
  simp only [fits, Bool.and_eq_true, decide_eq_true_eq]
  omega

theorem not_isBlank_of_isDigit {c : Char} (hdigit : c.isDigit = true) : isBlank c = false := by
  have hbounds : 48 ≤ c.toNat ∧ c.toNat ≤ 57 := Char.isDigit_iff_toNat.mp hdigit
  simp only [isBlank, Bool.or_eq_false_iff, Bool.and_eq_false_iff, decide_eq_false_iff_not,
    beq_eq_false_iff_ne]
  omega

theorem isBlankText_of_isNumeral {s : String} (hs : isNumeral s.toList = true) :
    isBlankText s = false := by
  obtain ⟨hne, hdigits⟩ := isNumeral_iff.mp hs
  obtain ⟨c, cs, hcs⟩ := List.exists_cons_of_ne_nil hne
  have hc := not_isBlank_of_isDigit (hdigits c (by rw [hcs]; exact List.mem_cons_self))
  rw [isBlankText, hcs, List.all_cons, hc, Bool.false_and]

/-- A written number has no blanks. -/
theorem not_isBlank_of_mem_toString {n : Int} {c : Char} (hc : c ∈ (toString n).toList) :
    isBlank c = false := by
  have hdigits {k : Nat} (hk : c ∈ k.repr.toList) : isBlank c = false := by
    rw [Nat.toList_repr] at hk
    exact not_isBlank_of_isDigit ((isNumeral_iff.mp (isNumeral_toDigits k)).2 c hk)
  rw [Int.toString_eq_repr, Int.repr_eq_if] at hc
  split at hc
  · exact hdigits hc
  · rw [String.toList_append, List.mem_append] at hc
    rcases hc with hsign | hdigit
    · obtain rfl := List.mem_singleton.mp hsign
      decide
    · exact hdigits hdigit

/-- A text without blanks is left as it stands. -/
theorem trim_of_not_blank {s : String} (hs : ∀ c ∈ s.toList, isBlank c = false) : trim s = s := by
  have hback : dropBlanks s.toList.reverse = s.toList.reverse :=
    dropBlanks_of_not_blank fun c hc => hs c (List.mem_reverse.mp hc)
  rw [trim, dropBlanksRight, dropBlanks_of_not_blank hs, hback, List.reverse_reverse,
    String.ofList_toList]

@[simp]
theorem trim_toString (n : Int) : trim (toString n) = toString n :=
  trim_of_not_blank fun _ hc => not_isBlank_of_mem_toString hc

/-- A written number that fits is not blank: it is read back. -/
theorem isBlankText_toString {n : Int} (hfits : fits n = true) :
    isBlankText (toString n) = false := by
  rw [← isEmpty_trim, trim_toString]
  by_contra hempty
  rw [Bool.not_eq_false, String.isEmpty_iff] at hempty
  have hread := readInt?_toString hfits
  rw [hempty] at hread
  contradiction

/-- The literals of integers with their values. -/
inductive Literal : List Char → Int → Prop where
  | bare (ds : List Char) (hne : ds ≠ []) (hdigits : ∀ d ∈ ds, '0' ≤ d ∧ d ≤ '9') :
      Literal ds (Nat.ofDigitChars 10 ds 0)
  | plus (ds : List Char) (hne : ds ≠ []) (hdigits : ∀ d ∈ ds, '0' ≤ d ∧ d ≤ '9') :
      Literal ('+' :: ds) (Nat.ofDigitChars 10 ds 0)
  | minus (ds : List Char) (hne : ds ≠ []) (hdigits : ∀ d ∈ ds, '0' ≤ d ∧ d ≤ '9') :
      Literal ('-' :: ds) (-Nat.ofDigitChars 10 ds 0)

/-- Whether a text, without the blanks around it, is a literal of an integer of
64 bits. -/
def Spells (text : String) (n : Int) : Prop :=
  Literal (trim text).toList n ∧ -2 ^ 63 ≤ n ∧ n ≤ 2 ^ 63 - 1

theorem fits_iff {n : Int} : fits n = true ↔ -2 ^ 63 ≤ n ∧ n ≤ 2 ^ 63 - 1 := by
  simp only [fits, Bool.and_eq_true, decide_eq_true_eq]
  omega

/-- The literals are what is read without regard to size. -/
theorem readSigned?_eq_some_iff {cs : List Char} {n : Int} :
    readSigned? cs = some n ↔ Literal cs n := by
  constructor
  · intro hread
    unfold readSigned? at hread
    split at hread
    all_goals
      obtain ⟨hnumeral, hvalue⟩ := Option.ite_none_right_eq_some.mp hread
      obtain rfl := Option.some.inj hvalue
      obtain ⟨hne, hdigits⟩ := isNumeral_iff_digits.mp hnumeral
    case h_1 => exact .plus _ hne hdigits
    case h_2 => exact .minus _ hne hdigits
    case h_3 => exact .bare _ hne hdigits
  · intro hliteral
    cases hliteral with
    | bare _ hne hdigits => exact readSigned?_of_isNumeral (isNumeral_iff_digits.mpr ⟨hne, hdigits⟩)
    | plus ds hne hdigits => exact if_pos (isNumeral_iff_digits.mpr ⟨hne, hdigits⟩)
    | minus ds hne hdigits => exact if_pos (isNumeral_iff_digits.mpr ⟨hne, hdigits⟩)

/-- A text is read as the integer that it spells. -/
theorem readInt?_trim_eq_some_iff {text : String} {n : Int} :
    readInt? (trim text) = some n ↔ Spells text n := by
  rw [readInt?, Option.filter_eq_some_iff, readSigned?_eq_some_iff, fits_iff, Spells]

theorem Spells.unique {text : String} {m n : Int} (hm : Spells text m) (hn : Spells text n) :
    m = n :=
  Option.some.inj ((readInt?_trim_eq_some_iff.mpr hm).symm.trans (readInt?_trim_eq_some_iff.mpr hn))

/-- A written integer of 64 bits is spelled by its text. -/
theorem spells_toString {n : Int} (hfits : fits n = true) : Spells (toString n) n := by
  rw [← readInt?_trim_eq_some_iff, trim_toString, readInt?_toString hfits]

theorem toString_natCast (n : Nat) : toString (n : Int) = toString n :=
  rfl

theorem spells_natCast {n : Nat} (hlt : n < 2 ^ 63) : Spells (toString n) n := by
  rw [← toString_natCast]
  exact spells_toString (fits_natCast_iff.mpr (Nat.le_sub_one_of_lt hlt))

end VersionTrail.Text
