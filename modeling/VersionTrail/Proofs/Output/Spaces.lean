/-
# Two ways to read a space

A value of a space can be asked for by a reference, `<space:key>`, or by the
function that goes by a name of the space, `$space(key)`. The names that are
recognised in front of a key and the names of functions stand in two tables, and
each table has its own way to disregard the case of letters. Still every name in
front of a key is the name of a function that reads the same space, so both ways
come to the same value or to none. Templates of either form are read as nothing
but that reference or that call: a key without blanks and marks neither ends its
argument nor opens anything, and a colon in it belongs to the key.
-/
import VersionTrail.Output.Rendering
import VersionTrail.Proofs.Template.Reading

namespace VersionTrail.Template

open VersionTrail.Text

/-- The names of a space in small letters. -/
def Space.names : Space → List String
  | .arg => ["arg"]
  | .gitInfo => ["gitinfo", "common"]
  | .head => ["head"]
  | .captured => ["match"]
  | .versionSource => ["versionsource", "vs"]
  | .process => ["env"]

/-- A space goes by its names in any case, and by no other name. -/
theorem Space.ofName?_eq_some_iff {name : String} {space : Space} :
    Space.ofName? name = some space ↔ lowerLetters name ∈ space.names := by
  constructor
  · intro hname
    unfold Space.ofName? at hname
    split at hname
    case h_9 => cases hname
    all_goals
      rename_i hsmall
      obtain rfl := Option.some.inj hname
      rw [hsmall]
      decide
  · intro hname
    have htable : ∀ small ∈ space.names,
        lowerLetters small = small ∧ Space.ofName? small = some space := by
      cases space <;> decide
    obtain ⟨hsmall, hspace⟩ := htable _ hname
    rw [ofName?, hsmall] at hspace
    exact hspace

/-- Names are compared in small letters. -/
theorem sameLetters_eq (a b : String) :
    sameLetters a b = (lowerLetters a == lowerLetters b) := by
  rw [sameLetters, lowerLetters, lowerLetters, Bool.eq_iff_iff, beq_iff_eq, beq_iff_eq,
    String.ofList_inj]

/-- The name of a space is also the name of a function, which reads the same space. -/
theorem exists_read_of_ofName? {name : String} {space : Space}
    (hname : Space.ofName? name = some space) :
    ∃ n : SpaceName, Builtin.ofName? name = some (.read n) ∧
      Space.ofName? n.text = some space := by
  have htable : ∀ small ∈ space.names, lowerLetters small = small ∧
      ∃ n ∈ SpaceName.all, Builtin.ofName? small = some (.read n) ∧
        Space.ofName? n.text = some space := by
    cases space <;> decide +kernel
  obtain ⟨hsmall, n, -, hread, hspace⟩ := htable _ (Space.ofName?_eq_some_iff.mp hname)
  refine ⟨n, ?_, hspace⟩
  -- Either spelling is compared with the titles of functions in small letters.
  simp only [Builtin.ofName?, sameLetters_eq] at hread ⊢
  rwa [hsmall] at hread

theorem isAlpha_of_isAlpha_lowerLetter {c : Char} (hc : (lowerLetter c).isAlpha = true) :
    c.isAlpha = true := by
  unfold lowerLetter at hc
  split at hc
  · rename_i hcapital
    exact Bool.or_eq_true_iff.mpr (Or.inl (decide_eq_true hcapital))
  · exact hc

theorem isReferenceChar_of_isAlpha {c : Char} (hc : c.isAlpha = true) :
    isReferenceChar c = true := by
  have hblank : isBlank c = false := by
    have hbounds : 65 ≤ c.toNat ∧ c.toNat ≤ 90 ∨ 97 ≤ c.toNat ∧ c.toNat ≤ 122 := by
      rcases Bool.or_eq_true_iff.mp hc with hupper | hlower
      · exact Or.inl (of_decide_eq_true hupper)
      · obtain ⟨hleast, hmost⟩ := Bool.and_eq_true_iff.mp hlower
        exact Or.inr ⟨of_decide_eq_true hleast, of_decide_eq_true hmost⟩
    simp only [isBlank, Bool.or_eq_false_iff, Bool.and_eq_false_iff, decide_eq_false_iff_not,
      beq_eq_false_iff_ne]
    omega
  have hmark : c ∉ marks := by
    intro hmem
    have hmarks : (marks.all fun d => !d.isAlpha) = true := by decide
    have hletter := List.all_eq_true.mp hmarks c hmem
    rw [hc] at hletter
    contradiction
  simp [isReferenceChar, hblank, hmark]

/-- A name of a space can stand behind a dollar sign as well as in front of a key. -/
theorem legal_of_ofName? {name : String} {space : Space}
    (hname : Space.ofName? name = some space) :
    name.toList ≠ [] ∧ ∀ c ∈ name.toList, c.isAlpha = true := by
  have htable : ∀ small ∈ space.names,
      small.toList ≠ [] ∧ small.toList.all Char.isAlpha = true := by
    cases space <;> decide
  obtain ⟨hne, halpha⟩ := htable _ (Space.ofName?_eq_some_iff.mp hname)
  rw [lowerLetters, String.toList_ofList] at hne halpha
  refine ⟨fun hnil => hne (by rw [hnil, List.map_nil]), fun c hc => ?_⟩
  exact isAlpha_of_isAlpha_lowerLetter (List.all_eq_true.mp halpha _ (List.mem_map_of_mem hc))

/-- Legal characters are plain text in which no parenthesis and no comma stands. -/
theorem isPlain_of_legal {text : List Char} (htext : ∀ c ∈ text, isReferenceChar c = true) :
    IsPlain text ∧ LeavesOpen 0 text := by
  have hmarks : ∀ c ∈ marks, c ∉ text := by
    intro c hmark hmem
    have hc := htext c hmem
    rw [not_isReferenceChar_of_mem_marks hmark] at hc
    contradiction
  have hfront : ∀ c ∈ marks, ∀ front, front <+: text → front.count c = 0 := fun c hmark front h =>
    List.count_eq_zero.mpr fun hmem => hmarks c hmark (h.subset hmem)
  refine ⟨⟨fun inner _ h => ?_, fun name _ h => ?_⟩, ⟨fun front h => ?_, fun front h => ?_, ?_⟩⟩
  · exact hmarks '<' (by decide) (h.subset (by simp))
  · exact hmarks '$' (by decide) (h.subset (by simp))
  · rw [hfront ')' (by decide) front h]
    exact Nat.zero_le _
  · exact absurd (h.subset (by simp)) (hmarks ',' (by decide))
  · rw [hfront '(' (by decide) text List.prefix_rfl, hfront ')' (by decide) text List.prefix_rfl]

section Forms

variable {name key : String} {space : Space}

/-- A reference alone is a template of one piece. -/
theorem read_reference (hname : Space.ofName? name = some space) (hkey : key ≠ "")
    (hlegal : ∀ c ∈ key.toList, isReferenceChar c = true) :
    read ("<" ++ name ++ ":" ++ key ++ ">") = .ok [.reference ⟨some name, key⟩] := by
  obtain ⟨hne, halpha⟩ := legal_of_ofName? hname
  have hr : Reference.WellFormed ⟨some name, key⟩ :=
    { key_nonempty := hkey
      key_legal := hlegal
      bare := by simp
      spaced := by
        rintro _ ⟨⟩
        refine ⟨fun hempty => hne (String.toList_eq_nil_iff.mpr hempty),
          fun c hc => isReferenceChar_of_isAlpha (halpha c hc), fun hcolon => ?_⟩
        exact absurd (halpha _ hcolon) (by decide) }
  have hwell : WellFormed [.reference ⟨some name, key⟩] := ⟨hr, fun h => h.1, trivial⟩
  have hread := read_of_wellFormed hwell
  rwa [printAll_singleton] at hread

/-- A call alone is one as well, and its argument is the key as plain text. -/
theorem read_call (hname : Space.ofName? name = some space) (hkey : key ≠ "")
    (hlegal : ∀ c ∈ key.toList, isReferenceChar c = true) :
    read ("$" ++ name ++ "(" ++ key ++ ")") = .ok [.call name [[.plain key]]] := by
  obtain ⟨hne, halpha⟩ := legal_of_ofName? hname
  obtain ⟨hplain, hclosed⟩ := isPlain_of_legal hlegal
  have hisName : IsName name.toList := by
    obtain ⟨c, cs, hcs⟩ := List.exists_cons_of_ne_nil hne
    rw [hcs] at halpha ⊢
    have hstarts : ∀ d ∈ c :: cs, startsName d = true := fun d hd => by
      rw [startsName, halpha d hd, Bool.true_or]
    exact ⟨hstarts c List.mem_cons_self, fun d hd =>
      continuesName_of_startsName (hstarts d (List.mem_cons_of_mem _ hd))⟩
  have hargs : ArgsWellFormed [[.plain key]] := by
    refine ⟨⟨⟨hkey, hplain⟩, fun h => h.2, trivial⟩, ?_, trivial⟩
    simpa using hclosed
  have hwell : WellFormed [.call name [[.plain key]]] :=
    ⟨⟨hisName, by simp, hargs⟩, fun h => h.1, trivial⟩
  have hread := read_of_wellFormed hwell
  simpa [printArgs] using hread

theorem resolve_of_ofName? (s : Scope) (hname : Space.ofName? name = some space) (key : String) :
    s.resolve ⟨some name, key⟩ =
      (s.lookup? space key).elim (.error (.notFound name key space)) .ok := by
  rw [Scope.resolve]
  dsimp only
  rw [hname]
  dsimp only
  cases s.lookup? space key <;> rfl

/-- A call of the function of a space reads the space, and has no other fault than
that the key is not there. -/
theorem exists_call_of_ofName? (s : Scope) (hname : Space.ofName? name = some space) :
    ∃ b : Builtin, ∀ key, call s name [key] =
      (s.lookup? space key).elim (.error (.notFound b key)) .ok := by
  obtain ⟨n, hread, hspace⟩ := exists_read_of_ofName? hname
  refine ⟨.read n, fun key => ?_⟩
  rw [call, hread]
  dsimp only
  rw [Builtin.apply, hspace]
  dsimp only
  cases s.lookup? space key <;> rfl

end Forms

/-- A template of one piece has the value of the piece. -/
@[simp]
theorem valueOf_singleton (s : Scope) (n : Node) : valueOf s [n] = n.value s := by
  rw [valueOf, valueOf]
  cases n.value s with
  | error fault => rfl
  | ok value => exact congrArg Except.ok (String.append_empty)

theorem value_call_plain (s : Scope) (name text : String) :
    Node.value s (.call name [[.plain text]]) = callValue s name [text] := by
  rw [Node.value, argValues, valueOf_singleton, Node.value, argValues]
  rfl

end VersionTrail.Template

namespace VersionTrail.Output

open VersionTrail.Text
open VersionTrail.Template (Scope Space marks)

/-- A template of one piece fails where the piece does. -/
theorem evaluateText_of_read_singleton {template : String} {n : Template.Node}
    (hread : Template.read template = .ok [n]) (output : String) (s : Scope) :
    evaluateText true output template s =
      ⟨[], (n.value s).mapError (valueFailure output template)⟩ := by
  rw [evaluateText, hread, ← Template.valueOf_singleton]
  rfl

/-- A reference into a space and a call of the space's function come to the value of
the key, or to none where there is none. So do the templates that are written that
way with a key of legal characters: they have the same value, or fail both. -/
theorem reference_agrees_with_call (s : Scope) {name : String} {space : Space}
    (hname : Space.ofName? name = some space) :
    (∀ key, (s.resolve ⟨some name, key⟩).toOption = s.lookup? space key ∧
      (Template.call s name [key]).toOption = s.lookup? space key) ∧
    ∀ output key, key ≠ "" → (∀ c ∈ key.toList, isBlank c = false ∧ c ∉ marks) →
      let reference := "<" ++ name ++ ":" ++ key ++ ">"
      let call := "$" ++ name ++ "(" ++ key ++ ")"
      (∃ value, s.lookup? space key = some value ∧
        evaluateText true output reference s = ⟨[], .ok value⟩ ∧
        evaluateText true output call s = ⟨[], .ok value⟩) ∨
      s.lookup? space key = none ∧ ∃ fault fault',
        evaluateText true output reference s = ⟨[], .error (.template output reference fault)⟩ ∧
        evaluateText true output call s = ⟨[], .error (.template output call fault')⟩ := by
  have hresolve := Template.resolve_of_ofName? s hname
  obtain ⟨b, hcall⟩ := Template.exists_call_of_ofName? s hname
  refine ⟨fun key => ?_, fun output key hkey hlegal => ?_⟩
  · rw [hresolve, hcall]
    cases s.lookup? space key <;> exact ⟨rfl, rfl⟩
  · intro reference call
    have hlegal : ∀ c ∈ key.toList, Template.isReferenceChar c = true := fun c hc => by
      simp [Template.isReferenceChar, hlegal c hc]
    rw [evaluateText_of_read_singleton (Template.read_reference hname hkey hlegal),
      evaluateText_of_read_singleton (Template.read_call hname hkey hlegal), Template.Node.value,
      Template.value_call_plain, Template.Reference.value, Template.callValue, hresolve, hcall]
    cases s.lookup? space key with
    | some value => exact Or.inl ⟨value, rfl, rfl, rfl⟩
    | none => exact Or.inr ⟨rfl, _, _, rfl, rfl⟩

/-- The second name of a space, in any case, with a colon in the key and two keys that
differ in the case of letters only. -/
theorem reference_agrees_with_call_common :
    let s : Scope := { gitInfo := .ofList [("remote:Name", "1"), ("REMOTE:name", "2")] }
    Space.ofName? "cOMMON" = some .gitInfo ∧
      (∀ c ∈ "remote:name".toList, isBlank c = false ∧ c ∉ marks) ∧
      evaluateText true "Out" "<cOMMON:remote:name>" s = ⟨[], .ok "1"⟩ ∧
      evaluateText true "Out" "$cOMMON(remote:name)" s = ⟨[], .ok "1"⟩ := by
  intro s
  have hname : Space.ofName? "cOMMON" = some .gitInfo := by decide
  have hlegal : ∀ c ∈ "remote:name".toList, isBlank c = false ∧ c ∉ marks := by
    have hall : "remote:name".toList.all Template.isReferenceChar = true := by decide
    intro c hc
    simpa [Template.isReferenceChar] using List.all_eq_true.mp hall c hc
  have hfound : s.lookup? .gitInfo "remote:name" = some "1" := by decide
  refine ⟨hname, hlegal, ?_⟩
  rcases (reference_agrees_with_call s hname).2 "Out" "remote:name" (by decide) hlegal with
    ⟨value, hvalue, hreference, hcall⟩ | ⟨hnone, -⟩
  · obtain rfl := Option.some.inj (hfound.symm.trans hvalue)
    exact ⟨hreference, hcall⟩
  · exact absurd (hfound.symm.trans hnone) (Option.some_ne_none _)

end VersionTrail.Output
