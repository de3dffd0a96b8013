/-
# Arguments by their keys

Raw arguments are written into a map one after the other. A key has the place of the
first argument for it and the value of the last one. What is no argument leaves no
trace, so of two lists of raw arguments read together the second one is written over
the map of the first.
-/
import VersionTrail.Analysis
import VersionTrail.Proofs.OrderedMap
import VersionTrail.Proofs.Text.Search

namespace VersionTrail

open VersionTrail.Text

/-- What stands in front of the first equals sign, without the blanks around it. -/
def argumentKey (raw : String) : String :=
  trim (String.ofList (raw.toList.takeWhile (· != '=')))

/-- All that follows the first equals sign. -/
def argumentValue (raw : String) : String :=
  String.ofList (raw.toList.dropWhile (· != '=')).tail

/-- Whether a raw argument counts: it has an equals sign, and a key in front of it. -/
def IsArgument (raw : String) : Prop :=
  '=' ∈ raw.toList ∧ argumentKey raw ≠ ""

instance : DecidablePred IsArgument := fun raw =>
  inferInstanceAs (Decidable ('=' ∈ raw.toList ∧ argumentKey raw ≠ ""))

theorem argument?_eq (raw : String) :
    argument? raw = if IsArgument raw then some (argumentKey raw, argumentValue raw) else none := by
  rw [argument?]
  cases hsplit : splitFirst? '=' raw.toList with
  | none =>
      have hmark : '=' ∉ raw.toList := splitFirst?_eq_none_iff.mp hsplit
      rw [if_neg fun h => hmark h.1]
  | some parts =>
      obtain ⟨front, value⟩ := parts
      have hraw := eq_append_of_splitFirst? hsplit
      have hmark : '=' ∈ raw.toList := by simp [hraw]
      have hfront : ∀ c ∈ front, (c != '=') = true := by
        intro c hc
        rw [bne_iff_ne]
        rintro rfl
        exact notMem_of_splitFirst? hsplit hc
      have hkey : trim (String.ofList front) = argumentKey raw := by
        rw [argumentKey, hraw, takeWhile_append_cons hfront rfl]
      have hvalue : String.ofList value = argumentValue raw := by
        rw [argumentValue, hraw, dropWhile_append_cons hfront rfl, List.tail_cons]
      dsimp only
      rw [hkey, hvalue]
      by_cases hempty : argumentKey raw = ""
      · rw [if_pos (String.isEmpty_iff.mpr hempty), if_neg fun h => h.2 hempty]
      · rw [if_neg (mt String.isEmpty_iff.mp hempty), if_pos ⟨hmark, hempty⟩]

/-- The map holds what counts, written in order. -/
theorem readArguments_eq (raws : List String) :
    readArguments raws = .ofList
      ((raws.filter IsArgument).map fun raw => (argumentKey raw, argumentValue raw)) := by
  rw [readArguments]
  congr 1
  induction raws with
  | nil => rfl
  | cons raw raws ih =>
      by_cases hraw : IsArgument raw
      · simp [argument?_eq, hraw, ← ih]
      · simp [argument?_eq, hraw, ← ih]

/-- The keys stand in the order of their first arguments, and each has the value of its
last one. More arguments are written over those in front of them one by one, and only
what counts decides. -/
theorem readArguments_overlays (xs ys : List String) :
    (readArguments xs).keys = ((xs.filter IsArgument).map argumentKey).eraseDups ∧
    (∀ key, (readArguments xs).get? key =
      (((xs.filter IsArgument).filter fun raw => argumentKey raw = key).getLast?).map
        argumentValue) ∧
    readArguments (xs ++ ys) = (readArguments xs).insertAll (readArguments ys).entries ∧
    ∀ zs, zs.filter IsArgument = xs.filter IsArgument → readArguments zs = readArguments xs := by
  refine ⟨?_, fun key => ?_, ?_, fun zs hzs => ?_⟩
  · rw [readArguments_eq, OrderedMap.keys_ofList, List.map_map]
    rfl
  · rw [readArguments_eq, OrderedMap.get?_ofList, List.filter_map, List.getLast?_map,
      Option.map_map]
    simp only [Function.comp_def]
  · simp [readArguments, OrderedMap.ofList_append]
  · rw [readArguments_eq, readArguments_eq, hzs]

/-- A key with blanks around it and a value with an equals sign, between two raw
arguments that are ignored. -/
theorem readArguments_overlays_ignored :
    let xs := ["Build=42", " Label = a=b", "Build\t=43"]
    let zs := ["Build=42", "=nokey", " Label = a=b", "novalue", "Build\t=43"]
    zs.filter IsArgument = xs.filter IsArgument ∧ readArguments zs = readArguments xs ∧
      (readArguments xs).keys = ["Build", "Label"] ∧
      (readArguments xs).get? "Build" = some "43" ∧
      (readArguments xs).get? "Label" = some " a=b" := by
  intro xs zs
  obtain ⟨hkeys, hvalues, -, hignored⟩ := readArguments_overlays xs []
  have hsame : zs.filter IsArgument = xs.filter IsArgument := by decide
  refine ⟨hsame, hignored zs hsame, ?_, ?_, ?_⟩
  · rw [hkeys]
    decide
  · rw [hvalues]
    decide
  · rw [hvalues]
    decide

end VersionTrail
