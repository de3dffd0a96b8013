/-
# Counting commits

A rule whose only action adds one to a parameter for each plain commit counts
the plain commits above the version source. The texts of the other parameters
stay as they are. The count starts at the number of the captured text, and it
cannot be taken where that number or the sum leaves the integers of 64 bits.

The inductions are over the number of additions, with the number at which the
count starts left open.
-/
import VersionTrail.Proofs.Bump.Exactness
import VersionTrail.Proofs.Text.Numeral

namespace VersionTrail

open VersionTrail.Text

theorem Text.trim_of_isNumeral {s : String} (hs : isNumeral s.toList = true) : trim s = s :=
  trim_of_not_blank fun c hc => not_isBlank_of_isDigit ((isNumeral_iff.mp hs).2 c hc)

/-- A numeral is the number of its parameter where it fits, and none otherwise. -/
theorem Parameters.number?_of_isNumeral {ps : Parameters} {name text : String}
    (hget : ps.get? name = some text) (htext : isNumeral text.toList = true) :
    ps.number? name =
      if fits (Nat.ofDigitChars 10 text.toList 0) then
        some (Nat.ofDigitChars 10 text.toList 0 : Int)
      else none := by
  rw [number?, hget]
  dsimp only
  rw [isBlankText_of_isNumeral htext, if_neg Bool.false_ne_true, trim_of_isNumeral htext, readInt?,
    readSigned?_of_isNumeral htext, Option.filter_some]

namespace Action

@[simp]
theorem numberAfter_replicate (n : Int) (count : Nat) :
    numberAfter (some n) (List.replicate count (add 1)) = some (n + count) := by
  induction count generalizing n with
  | zero => simp [numberAfter]
  | succ count ih =>
      rw [List.replicate_succ, numberAfter, List.foldl_cons, next, Option.map_some]
      have hrest := ih (n + 1)
      rw [numberAfter] at hrest
      rw [hrest]
      exact congrArg some (by omega)

@[simp]
theorem not_computable_none (count : Nat) :
    ¬ Computable none (List.replicate (count + 1) (add 1)) := by
  intro h
  obtain ⟨v, hv, -⟩ := h [] 1 (List.replicate count (add 1)) rfl
  contradiction

/-- From a number that is not negative, additions of one can be computed up to
the last sum. -/
@[simp]
theorem computable_replicate_iff (n count : Nat) :
    Computable (some (n : Int)) (List.replicate (count + 1) (add 1)) ↔
      n + (count + 1) ≤ 2 ^ 63 - 1 := by
  induction count generalizing n with
  | zero =>
      rw [List.replicate_one, computable_cons, and_iff_left (computable_nil _)]
      constructor
      · intro h
        obtain ⟨v, hv, hfits⟩ := h 1 rfl
        obtain rfl := Option.some.inj hv
        exact fits_natCast_iff.mp hfits
      · rintro hle m hm
        obtain rfl := Action.add.inj hm
        exact ⟨n, rfl, fits_natCast_iff.mpr hle⟩
  | succ count ih =>
      have hnext : (add 1).next (some (n : Int)) = some ((n + 1 : Nat) : Int) := rfl
      rw [List.replicate_succ, computable_cons, hnext, ih (n + 1)]
      constructor
      · rintro ⟨-, hle⟩
        omega
      · intro hle
        refine ⟨fun m hm => ?_, by omega⟩
        obtain rfl := Action.add.inj hm
        exact ⟨n, rfl, (fits_natCast_iff (n := n + 1)).mpr (by omega)⟩

end Action

namespace Replay

open VersionTrail.Action

variable {name : String} {ps : Parameters}

@[simp]
theorem actionsIn_replicate (name other : String) (count : Nat) :
    actionsIn other (List.replicate count (name, "+1")) =
      if name = other then List.replicate count (add 1) else [] := by
  have hread : Action.read "+1" = .ok (add 1) := by
    decide
  by_cases hname : name = other
  · simp [actionsIn, hname, hread, Except.toOption]
  · simp [actionsIn, hname]

theorem exists_read_of_mem_replicate {count : Nat} :
    ∀ e ∈ List.replicate count (name, "+1"), ∃ a, Action.read e.2 = .ok a := by
  intro e he
  obtain rfl := (List.mem_replicate.mp he).2
  exact ⟨add 1, (by decide : Action.read "+1" = .ok (add 1))⟩

/-- The actions of a rule that counts plain commits. -/
theorem ofVisits_counting {rule : BranchRule} (hcommit : rule.onCommit.entries = [(name, "+1")])
    (hmerge : rule.onMerge = ∅) (visits : List Visit) (ps : Parameters) :
    ofVisits rule visits ps = ofActions ps
      (List.replicate (visits.dropLast.countP fun v => !v.commit.isMerge) (name, "+1")) := by
  have hactions (v : Visit) :
      rule.actionsFor v = if v.commit.isMerge then [] else [(name, "+1")] := by
    rw [BranchRule.actionsFor, BranchRule.mergeActions, hmerge, hcommit]
    cases v.fromRule <;> rfl
  have hall (vs : List Visit) : vs.flatMap rule.actionsFor =
      List.replicate (vs.countP fun v => !v.commit.isMerge) (name, "+1") := by
    induction vs with
    | nil => rfl
    | cons v vs ih =>
        rw [List.flatMap_cons, ih, hactions, List.countP_cons]
        cases v.commit.isMerge <;> simp [List.replicate_succ]
  rw [ofVisits, hall, List.countP_reverse]

/-- Additions from a numeral that stay within 64 bits write the sum. -/
theorem exists_toExcept_replicate {text : String} (hget : ps.get? name = some text)
    (htext : isNumeral text.toList = true) {count : Nat} (hcount : 0 < count)
    (hle : Nat.ofDigitChars 10 text.toList 0 + count ≤ 2 ^ 63 - 1) :
    ∃ final n, (ofActions ps (List.replicate count (name, "+1"))).toExcept = .ok (final, n) ∧
      final.get? name = some (toString (Nat.ofDigitChars 10 text.toList 0 + count)) ∧
      ∀ other, name ≠ other → final.get? other = ps.get? other := by
  obtain ⟨count, rfl⟩ := Nat.exists_eq_succ_of_ne_zero (Nat.pos_iff_ne_zero.mp hcount)
  have hread := @exists_read_of_mem_replicate name (count + 1)
  have hnumber : ps.number? name = some (Nat.ofDigitChars 10 text.toList 0 : Int) := by
    rw [Parameters.number?_of_isNumeral hget htext, if_pos (fits_natCast_iff.mpr (by omega))]
  have hok : (ofActions ps (List.replicate (count + 1) (name, "+1"))).failure = none := by
    rw [failure_ofActions_eq_none_iff hread]
    intro other
    by_cases hname : name = other
    · subst hname
      simpa [hnumber] using hle
    · simp [hname]
  refine ⟨_, _, toExcept_eq_ok_iff.mpr ⟨hok, rfl, rfl⟩, ?_, fun other hother => ?_⟩
  · rcases get?_ofActions hread hok name with ⟨hnil, -⟩ | ⟨-, m, hm, -, hfinal⟩
    · simp at hnil
    · simp only [actionsIn_replicate, if_true, hnumber, numberAfter_replicate] at hm
      rw [hfinal, ← Option.some.inj hm]
      rfl
  · rcases get?_ofActions hread hok other with ⟨-, hfinal⟩ | ⟨hsome, -⟩
    · exact hfinal
    · simp [hother] at hsome

/-- Additions from a numeral that leave the 64 bits fail for a number. -/
theorem exists_numeric_replicate {text : String} (hget : ps.get? name = some text)
    (htext : isNumeral text.toList = true) {count : Nat} (hcount : 0 < count)
    (hlarge : 2 ^ 63 - 1 < Nat.ofDigitChars 10 text.toList 0 + count) :
    ∃ fault, (ofActions ps (List.replicate count (name, "+1"))).toExcept =
      .error (.numeric fault) := by
  obtain ⟨count, rfl⟩ := Nat.exists_eq_succ_of_ne_zero (Nat.pos_iff_ne_zero.mp hcount)
  have hread := @exists_read_of_mem_replicate name (count + 1)
  cases hfailure : (ofActions ps (List.replicate (count + 1) (name, "+1"))).failure with
  | some f =>
      obtain ⟨fault, rfl⟩ := numeric_of_ofActions hread hfailure
      exact ⟨fault, by rw [toExcept, hfailure]⟩
  | none =>
      have hcomputable := (failure_ofActions_eq_none_iff hread).mp hfailure name
      rw [Parameters.number?_of_isNumeral hget htext] at hcomputable
      split at hcomputable
      · rw [actionsIn_replicate, if_pos rfl, computable_replicate_iff] at hcomputable
        omega
      · simp at hcomputable

end Replay

end VersionTrail
