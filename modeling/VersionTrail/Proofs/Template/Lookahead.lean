/-
# What the lookahead finds

Behind an angle bracket the lookahead finds a reference exactly where legal
characters lead up to the closing bracket, and behind a dollar sign a call
exactly where a name leads up to a parenthesis. Neither ever leaves the plain
text that it starts in: another piece begins with a mark, and an argument ends
with one, and no reference and no name has such a character in it. So the
characters of a plain text are taken one by one, whatever comes behind it.
-/
import Mathlib.Data.List.TakeWhile
import VersionTrail.Proofs.Template.Printing
import VersionTrail.Proofs.Template.WellFormed

namespace VersionTrail.Template

open VersionTrail.Text

theorem not_isReferenceChar_of_mem_marks {c : Char} (hc : c ∈ marks) :
    isReferenceChar c = false := by
  simp [isReferenceChar, hc]

/-- Legal characters stand for a reference where nothing is missing in them. -/
theorem isSome_referenceOf?_iff {inner : List Char}
    (hlegal : ∀ c ∈ inner, isReferenceChar c = true) :
    (referenceOf? inner).isSome = true ↔ IsReference inner := by
  unfold referenceOf?
  cases hsplit : splitFirst? ':' inner with
  | none =>
      have hcolon := splitFirst?_eq_none_iff.mp hsplit
      constructor
      · intro hsome
        refine ⟨?_, hlegal, fun space key heq => ?_⟩
        · rintro rfl
          simp at hsome
        · simp [heq] at hcolon
      · rintro ⟨hnonempty, -, -⟩
        simp [hnonempty]
  | some parts =>
      obtain ⟨front, back⟩ := parts
      obtain rfl := eq_append_of_splitFirst? hsplit
      constructor
      · intro hsome
        refine ⟨by simp, hlegal, fun space key heq hspace => ?_⟩
        rw [heq, splitFirst?_append hspace] at hsplit
        obtain ⟨rfl, rfl⟩ : space = front ∧ key = back := by simpa using hsplit
        simpa using hsome
      · rintro ⟨-, -, hsides⟩
        simpa using hsides front back rfl (notMem_of_splitFirst? hsplit)

/-- What legal characters stand for is a well-formed reference. -/
theorem wellFormed_of_referenceOf? {inner : List Char} {r : Reference}
    (hlegal : ∀ c ∈ inner, isReferenceChar c = true) (hr : referenceOf? inner = some r) :
    r.WellFormed := by
  unfold referenceOf? at hr
  cases hsplit : splitFirst? ':' inner with
  | none =>
      simp only [hsplit, Option.ite_none_left_eq_some, List.isEmpty_iff] at hr
      obtain ⟨hnonempty, hr⟩ := hr
      obtain rfl := Option.some.inj hr
      exact
        { key_nonempty := by simpa [← String.toList_inj] using hnonempty
          key_legal := by simpa using hlegal
          bare := fun _ => by simpa using splitFirst?_eq_none_iff.mp hsplit
          spaced := by simp }
  | some parts =>
      obtain ⟨front, back⟩ := parts
      have hfront := notMem_of_splitFirst? hsplit
      rw [eq_append_of_splitFirst? hsplit] at hlegal
      simp only [hsplit, Option.ite_none_left_eq_some] at hr
      obtain ⟨hsides, hr⟩ := hr
      obtain rfl := Option.some.inj hr
      obtain ⟨hspace, hkey⟩ : front ≠ [] ∧ back ≠ [] := by simpa using hsides
      obtain ⟨hspaceLegal, -, hkeyLegal⟩ := by simpa [or_imp, forall_and] using hlegal
      exact
        { key_nonempty := by simpa [← String.toList_inj] using hkey
          key_legal := by simpa using hkeyLegal
          bare := by simp
          spaced := by
            rintro space ⟨⟩
            exact ⟨by simpa [← String.toList_inj] using hspace, by simpa using hspaceLegal,
              by simpa using hfront⟩ }

/-- A well-formed reference is what its characters stand for. -/
theorem Reference.WellFormed.exists_inner {r : Reference} (hr : r.WellFormed) :
    ∃ inner, referenceOf? inner = some r ∧ ∀ c ∈ inner, isReferenceChar c = true := by
  obtain ⟨space, key⟩ := r
  have hkey : key.toList ≠ [] := fun hnil => hr.key_nonempty (String.toList_inj.mp hnil)
  cases space with
  | none =>
      refine ⟨key.toList, ?_, hr.key_legal⟩
      simp [referenceOf?, splitFirst?_eq_none_iff.mpr (hr.bare rfl), hkey]
  | some space =>
      obtain ⟨hspace, hlegal, hcolon⟩ := hr.spaced space rfl
      have hspace : space.toList ≠ [] := fun hnil => hspace (String.toList_inj.mp hnil)
      refine ⟨space.toList ++ ':' :: key.toList, ?_, fun c hc => ?_⟩
      · simp [referenceOf?, splitFirst?_append hcolon, hspace, hkey]
      · rcases List.mem_append.mp hc with hmem | hmem
        · exact hlegal c hmem
        · rcases List.mem_cons.mp hmem with rfl | hmem
          · decide
          · exact hr.key_legal c hmem

theorem referenceAfter?_append {inner : List Char}
    (hlegal : ∀ c ∈ inner, isReferenceChar c = true) (back : List Char) :
    referenceAfter? (inner ++ '>' :: back) = referenceOf? inner := by
  have hclose : isReferenceChar '>' = false := not_isReferenceChar_of_mem_marks (by decide)
  rw [referenceAfter?, dropWhile_append_cons hlegal hclose, takeWhile_append_cons hlegal hclose]
  rfl

/-- A reference is found only where legal characters lead up to a bracket. -/
theorem exists_inner_of_referenceAfter? {cs : List Char} {r : Reference}
    (hr : referenceAfter? cs = some r) :
    ∃ inner back, cs = inner ++ '>' :: back ∧ referenceOf? inner = some r ∧
      ∀ c ∈ inner, isReferenceChar c = true := by
  unfold referenceAfter? at hr
  split at hr
  · rename_i back hback
    refine ⟨cs.takeWhile isReferenceChar, back, ?_, hr, fun c hc => List.mem_takeWhile_imp hc⟩
    rw [← hback, List.takeWhile_append_dropWhile]
  · contradiction

theorem continuesName_of_startsName {c : Char} (hc : startsName c = true) :
    continuesName c = true := by
  rw [startsName, Bool.or_eq_true] at hc
  rcases hc with halpha | hline
  · simp [continuesName, Char.isAlphanum, halpha]
  · simp [continuesName, hline]

theorem IsName.continuesName {name : List Char} (hname : IsName name) :
    ∀ c ∈ name, continuesName c = true := by
  cases name with
  | nil => exact hname.elim
  | cons c cs => exact List.forall_mem_cons.mpr ⟨continuesName_of_startsName hname.1, hname.2⟩

theorem callAfter?_append {name : List Char} (hname : IsName name) (back : List Char) :
    callAfter? (name ++ '(' :: back) = some (String.ofList name) := by
  have hlegal := hname.continuesName
  cases name with
  | nil => exact hname.elim
  | cons c cs =>
      have hopen : continuesName '(' = false := by decide
      rw [List.cons_append, callAfter?, if_pos hname.1, ← List.cons_append,
        dropWhile_append_cons hlegal hopen, takeWhile_append_cons hlegal hopen]
      rfl

/-- A call is found only where a name leads up to a parenthesis. -/
theorem exists_back_of_callAfter? {cs : List Char} {name : String}
    (hcall : callAfter? cs = some name) :
    IsName name.toList ∧ ∃ back, cs = name.toList ++ '(' :: back := by
  cases cs with
  | nil => contradiction
  | cons c cs =>
      rw [callAfter?] at hcall
      split at hcall
      · rename_i hstart
        split at hcall
        · rename_i back hback
          obtain rfl := Option.some.inj hcall
          rw [String.toList_ofList]
          constructor
          · rw [List.takeWhile_cons, if_pos (continuesName_of_startsName hstart)]
            exact ⟨hstart, fun d hd => List.mem_takeWhile_imp hd⟩
          · exact ⟨back, by rw [← hback, List.takeWhile_append_dropWhile]⟩
        · contradiction
      · contradiction

/-- What can follow plain text: nothing, another piece, or the end of an
argument. -/
def EndsText (rest : List Char) : Prop :=
  ∀ c ∈ rest.head?, c ∈ ['<', '$', ',', ')']

@[simp]
theorem endsText_nil : EndsText [] := by
  simp [EndsText]

@[simp]
theorem endsText_cons_iff {c : Char} {rest : List Char} :
    EndsText (c :: rest) ↔ c ∈ ['<', '$', ',', ')'] := by
  simp [EndsText]

/-- What leads up to a character that cannot end plain text has not left the
text, if nothing that ends text is on the way. -/
theorem exists_back_of_endsText {text rest inner back : List Char} {c : Char}
    (hrest : EndsText rest) (heq : text ++ rest = inner ++ c :: back)
    (hinner : ∀ d ∈ inner ++ [c], d ∉ ['<', '$', ',', ')']) :
    ∃ back', text = inner ++ c :: back' := by
  rcases List.append_eq_append_iff.mp heq with ⟨more, rfl, hmore⟩ | ⟨back', rfl, hback'⟩
  · cases more with
    | nil =>
        have hhead := hrest c (by rw [hmore]; rfl)
        exact absurd hhead (hinner c (by simp))
    | cons d more =>
        have hhead := hrest d (by rw [hmore]; rfl)
        exact absurd hhead (hinner d (by simp))
  · cases back' with
    | nil =>
        have hhead := hrest c (by rw [List.nil_append] at hback'; rw [← hback']; rfl)
        exact absurd hhead (hinner c (by simp))
    | cons d back' =>
        obtain ⟨rfl, -⟩ : c = d ∧ back = back' ++ rest := by simpa using hback'
        exact ⟨back', rfl⟩

/-- What ends plain text completes no reference in it. -/
theorem referenceAfter?_append_of_endsText {text rest : List Char}
    (htext : referenceAfter? text = none) (hrest : EndsText rest) :
    referenceAfter? (text ++ rest) = none := by
  by_contra hsome
  obtain ⟨r, hr⟩ := Option.ne_none_iff_exists'.mp hsome
  obtain ⟨inner, back, heq, hinner, hlegal⟩ := exists_inner_of_referenceAfter? hr
  have hmarks : ∀ d ∈ inner ++ ['>'], d ∉ ['<', '$', ',', ')'] := by
    intro d hd hmark
    rcases List.mem_append.mp hd with hmem | hmem
    · have hall : (['<', '$', ',', ')'].all fun c => !isReferenceChar c) = true := by decide
      have hfalse := List.all_eq_true.mp hall d hmark
      rw [hlegal d hmem] at hfalse
      cases hfalse
    · obtain rfl := List.mem_singleton.mp hmem
      exact absurd hmark (by decide)
  obtain ⟨back', rfl⟩ := exists_back_of_endsText hrest heq hmarks
  rw [referenceAfter?_append hlegal, hinner] at htext
  contradiction

/-- What ends plain text completes no opening of a call in it. -/
theorem callAfter?_append_of_endsText {text rest : List Char} (htext : callAfter? text = none)
    (hrest : EndsText rest) : callAfter? (text ++ rest) = none := by
  by_contra hsome
  obtain ⟨name, hname⟩ := Option.ne_none_iff_exists'.mp hsome
  obtain ⟨hisName, back, heq⟩ := exists_back_of_callAfter? hname
  have hmarks : ∀ d ∈ name.toList ++ ['('], d ∉ ['<', '$', ',', ')'] := by
    intro d hd hmark
    rcases List.mem_append.mp hd with hmem | hmem
    · have hall : (['<', '$', ',', ')'].all fun c => !continuesName c) = true := by decide
      have hfalse := List.all_eq_true.mp hall d hmark
      rw [hisName.continuesName d hmem] at hfalse
      cases hfalse
    · obtain rfl := List.mem_singleton.mp hmem
      exact absurd hmark (by decide)
  obtain ⟨back', rfl⟩ := exists_back_of_endsText hrest heq hmarks
  rw [callAfter?_append hisName] at htext
  contradiction

/-- Behind an angle bracket in plain text there is no reference. -/
theorem referenceAfter?_of_isPlain {text rest : List Char} (htext : IsPlain ('<' :: text))
    (hrest : EndsText rest) : referenceAfter? (text ++ rest) = none := by
  refine referenceAfter?_append_of_endsText ?_ hrest
  by_contra hsome
  obtain ⟨r, hr⟩ := Option.ne_none_iff_exists'.mp hsome
  obtain ⟨inner, back, rfl, hinner, hlegal⟩ := exists_inner_of_referenceAfter? hr
  refine htext.no_reference inner ?_ ⟨[], back, by simp⟩
  exact (isSome_referenceOf?_iff hlegal).mp (by rw [hinner]; rfl)

/-- Behind a dollar sign in plain text there is no call. -/
theorem callAfter?_of_isPlain {text rest : List Char} (htext : IsPlain ('$' :: text))
    (hrest : EndsText rest) : callAfter? (text ++ rest) = none := by
  refine callAfter?_append_of_endsText ?_ hrest
  by_contra hsome
  obtain ⟨name, hname⟩ := Option.ne_none_iff_exists'.mp hsome
  obtain ⟨hisName, back, rfl⟩ := exists_back_of_callAfter? hname
  exact htext.no_opening name.toList hisName ⟨[], back, by simp⟩

end VersionTrail.Template
