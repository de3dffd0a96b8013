/-
# Steps on the way

An argument of a call can be made an output of its own in front of the output
whose template has the call, and be referred to there. If the new output is a
step on the way, has a name that nothing else goes by and is not cleaned, then
the outputs that are shown are the same, and they exist in the same cases.

Two renderings run side by side, one of them with one output more. What the
other templates refer to has the same value for both, since a name that differs
from the new one in more than the case of letters never finds it.
-/
import VersionTrail.Proofs.Output.Staging
import VersionTrail.Proofs.Template.Factoring

namespace VersionTrail.Template

open VersionTrail.Text

theorem ne_of_not_sameLetters {key other : String} (hletters : sameLetters key other = false) :
    key ≠ other := by
  rintro rfl
  simp [sameLetters] at hletters

/-- One output more changes nothing for keys that differ from its name in more than
the case of letters. -/
theorem findValue?_of_extends {key other value : String} {m n : OrderedMap String}
    (h : m.Extends key value n) (hother : sameLetters key other = false) :
    findValue? n other = findValue? m other := by
  rw [findValue?, findValue?, h.get?_of_ne (ne_of_not_sameLetters hother), h.find?_of_not hother]

theorem findValue?_self {key value : String} {m n : OrderedMap String}
    (h : m.Extends key value n) : findValue? n key = some value := by
  rw [findValue?, h.get?_self]
  rfl

end VersionTrail.Template

namespace VersionTrail.Output

open VersionTrail.Text
open VersionTrail.Template (Scope Node Factored bare bareKeys marks printAll valueOf)

/-- Whether an output neither has a name nor refers to it, in any case of letters. -/
structure Unaware (key : String) (e : String × String) : Prop where
  name : sameLetters key e.1 = false
  references : ∀ nodes, Template.read e.2 = .ok nodes →
    ∀ other ∈ bareKeys nodes, sameLetters key other = false

/-- Whether a name is one for a step on the way that nothing else goes by. -/
structure FreshStep (cleaners : List Cleaner) (templates : OrderedMap String) (key : String) :
    Prop where
  temporary : key.toList.head? = some '_'
  legal : ∀ c ∈ key.toList, isBlank c = false ∧ c ∉ ':' :: marks
  unaware : ∀ e ∈ templates.entries, Unaware key e
  uncleaned : ∀ c ∈ cleaners, c.select.isMatch key = false

namespace FreshStep

variable {cleaners : List Cleaner} {templates : OrderedMap String} {key : String}

theorem wellFormed (h : FreshStep cleaners templates key) :
    Template.Reference.WellFormed ⟨none, key⟩ where
  key_nonempty := by
    rintro rfl
    simpa using h.temporary
  key_legal := by
    intro c hc
    obtain ⟨hblank, hmarks⟩ := h.legal c hc
    have hmarks : c ∉ marks := fun hmem => hmarks (List.mem_cons_of_mem _ hmem)
    simp [Template.isReferenceChar, hblank, hmarks]
  bare := fun _ hcolon => (h.legal ':' hcolon).2 List.mem_cons_self
  spaced := by simp

theorem clean_eq (h : FreshStep cleaners templates key) (strict : Bool) (value : String) :
    Renderer.clean ⟨strict, cleaners⟩ key value = value := by
  have hnone : cleaners.filter (fun c => c.select.isMatch key) = [] :=
    List.filter_eq_nil_iff.mpr fun c hc => by simp [h.uncleaned c hc]
  rw [Renderer.clean_eq_foldl_filter]
  dsimp only
  rw [hnone, List.foldl_nil]

end FreshStep

/-- Outputs with the same values for what a template refers to give it the same
value, and the same is stood in for. -/
theorem evaluateText_congr (strict : Bool) (s : Scope) {done done' : OrderedMap String}
    {name template : String}
    (hsame : ∀ nodes, Template.read template = .ok nodes → ∀ key ∈ bareKeys nodes,
      Template.findValue? done' key = Template.findValue? done key) :
    evaluateText strict name template { s with outputs := done' } =
      evaluateText strict name template { s with outputs := done } := by
  unfold evaluateText
  cases hread : Template.read template with
  | error u => rfl
  | ok nodes =>
      have hkeys := hsame nodes hread
      dsimp only
      rw [evaluate, evaluate, Template.valueOf_congr nodes hkeys,
        Template.lenientValueOf_congr nodes hkeys]

namespace Renderer

variable {cleaners : List Cleaner} {s : Scope} {done done' : OrderedMap String}
variable {key name template value : String}

theorem stage_congr (r : Renderer) (s : Scope)
    (hsame : ∀ nodes, Template.read template = .ok nodes → ∀ key ∈ bareKeys nodes,
      Template.findValue? done' key = Template.findValue? done key) :
    r.stage s done' name template = r.stage s done name template := by
  rw [stage, stage, evaluateText_congr r.strict s hsame]

/-- A strict stage reads the template, evaluates it and cleans the value. -/
theorem stage_strict_eq_ok_iff :
    stage ⟨true, cleaners⟩ s done name template = .ok value ↔
      ∃ nodes plain, Template.read template = .ok nodes ∧
        valueOf { s with outputs := done } nodes = .ok plain ∧
        clean ⟨true, cleaners⟩ name plain = value := by
  rw [stage_eq_ok_iff]
  unfold evaluateText
  cases Template.read template with
  | error u => simp [Run.ofExcept]
  | ok nodes =>
      cases hvalue : valueOf { s with outputs := done } nodes <;>
        simp [evaluate, Run.ofExcept, hvalue]

theorem stage_of_extends (r : Renderer) (s : Scope) (h : done.Extends key value done')
    (hunaware : Unaware key (name, template)) :
    r.stage s done' name template = r.stage s done name template :=
  stage_congr r s fun nodes hread other hother =>
    Template.findValue?_of_extends h (hunaware.references nodes hread other hother)

/-- Templates that do not refer to the output that is more are rendered alike. -/
theorem renderFrom_of_extends (r : Renderer) (s : Scope) {templates : List (String × String)}
    (hunaware : ∀ e ∈ templates, Unaware key e) (h : done.Extends key value done') :
    (r.renderFrom s done' templates).failure = (r.renderFrom s done templates).failure ∧
      (r.renderFrom s done templates).outputs.Extends key value
        (r.renderFrom s done' templates).outputs := by
  induction templates generalizing done done' with
  | nil => exact ⟨rfl, h⟩
  | cons e rest ih =>
      obtain ⟨name, template⟩ := e
      have hfirst := hunaware _ List.mem_cons_self
      have hrest : ∀ e ∈ rest, Unaware key e := fun e he => hunaware e (List.mem_cons_of_mem _ he)
      have hstage' := stage_of_extends r s h hfirst
      cases hstage : r.stage s done name template with
      | error f =>
          obtain ⟨heq, hf⟩ := renderFrom_cons_of_error hstage rest
          obtain ⟨heq', hf'⟩ := renderFrom_cons_of_error (hstage'.trans hstage) rest
          rw [heq, heq', hf, hf']
          exact ⟨rfl, h⟩
      | ok written =>
          obtain ⟨heq, hf⟩ := renderFrom_cons_of_ok hstage rest
          obtain ⟨heq', hf'⟩ := renderFrom_cons_of_ok (hstage'.trans hstage) rest
          rw [heq, heq', hf, hf']
          exact ih hrest (h.insert (Template.ne_of_not_sameLetters hfirst.name) written)

section Factored

variable {templates : OrderedMap String} {arg ns ns' : List Node}

/-- The stage of a template is the one of the argument followed by the one of the
template without it. -/
theorem stage_factored (hfresh : FreshStep cleaners templates key) (hkey : key ∉ done.keys)
    (hread : Template.read template = .ok ns) (hunaware : Unaware key (name, template))
    (hfactored : Factored arg key ns ns') :
    stage ⟨true, cleaners⟩ s done name template = .ok value ↔
      ∃ inner, stage ⟨true, cleaners⟩ s done key (printAll arg) = .ok inner ∧
        stage ⟨true, cleaners⟩ s (done.insert key inner) name (printAll ns') = .ok value := by
  have hns := Template.wellFormed_of_read hread
  have harg := Template.read_of_wellFormed (hfactored.wellFormed_arg hns)
  have hns' := Template.read_of_wellFormed (hfactored.wellFormed hfresh.wellFormed hns)
  -- Behind the new output, the reference and the argument have the same value.
  have hvalue (inner : String) (hinner : valueOf { s with outputs := done } arg = .ok inner) :
      valueOf { s with outputs := done.insert key inner } ns' =
        valueOf { s with outputs := done } ns := by
    have hextends := OrderedMap.extends_insert hkey inner
    have hsame : ∀ other ∈ bareKeys ns, Template.findValue? (done.insert key inner) other =
        Template.findValue? done other := fun other hother =>
      Template.findValue?_of_extends hextends (hunaware.references ns hread other hother)
    have hargSame := Template.valueOf_congr (s := s) arg fun other hother =>
      hsame other (hfactored.mem_bareKeys hother)
    rw [hfactored.valueOf_eq ?_, Template.valueOf_congr ns hsame]
    rw [hargSame, hinner]
    exact Template.valueOf_bare (Template.findValue?_self hextends)
  simp only [stage_strict_eq_ok_iff, hread, harg, hns', hfresh.clean_eq]
  constructor
  · rintro ⟨_, plain, ⟨⟩, hplain, rfl⟩
    obtain ⟨inner, hinner⟩ := hfactored.exists_value_arg hplain
    exact ⟨inner, ⟨arg, inner, rfl, hinner, rfl⟩, ns', plain, rfl,
      (hvalue inner hinner).trans hplain, rfl⟩
  · rintro ⟨inner, ⟨_, _, ⟨⟩, hinner, rfl⟩, _, plain, ⟨⟩, hplain, rfl⟩
    exact ⟨ns, plain, rfl, (hvalue _ hinner).symm.trans hplain, rfl⟩

end Factored

/-- Whether all templates of a row have a value, and which outputs are shown. -/
def Shows (r : Renderer) (s : Scope) (done : OrderedMap String) (row : List (String × String))
    (outputs : OrderedMap String) : Prop :=
  ∃ all, r.Renders s done row all ∧ shown false all = outputs

section Shows

variable {r : Renderer} {row front back : List (String × String)} {outputs : OrderedMap String}

theorem shows_iff {templates : OrderedMap String} :
    ((r.render templates s).toRun false).outcome = .ok outputs ↔
      r.Shows s ∅ templates.entries outputs := by
  rw [Rendering.outcome_toRun_eq_ok_iff]
  constructor
  · rintro ⟨hcomplete, hshown⟩
    exact ⟨_, ⟨hcomplete, rfl⟩, hshown⟩
  · rintro ⟨all, ⟨hcomplete, rfl⟩, hshown⟩
    exact ⟨hcomplete, hshown⟩

theorem shows_append_iff :
    r.Shows s done (front ++ back) outputs ↔
      ∃ middle, r.Renders s done front middle ∧ r.Shows s middle back outputs := by
  constructor
  · rintro ⟨all, hall, hshown⟩
    obtain ⟨middle, hfront, hback⟩ := renders_append_iff.mp hall
    exact ⟨middle, hfront, all, hback, hshown⟩
  · rintro ⟨middle, hfront, all, hback, hshown⟩
    exact ⟨all, renders_append_iff.mpr ⟨middle, hfront, hback⟩, hshown⟩

theorem shows_cons_iff :
    r.Shows s done ((name, template) :: row) outputs ↔
      ∃ value, r.stage s done name template = .ok value ∧
        r.Shows s (done.insert name value) row outputs := by
  constructor
  · rintro ⟨all, hall, hshown⟩
    obtain ⟨value, hvalue, hrow⟩ := renders_cons_iff.mp hall
    exact ⟨value, hvalue, all, hrow, hshown⟩
  · rintro ⟨value, hvalue, all, hrow, hshown⟩
    exact ⟨all, renders_cons_iff.mpr ⟨value, hvalue, hrow⟩, hshown⟩

/-- A step on the way that nothing refers to is not seen in what is shown. -/
theorem shows_of_extends (hunaware : ∀ e ∈ row, Unaware key e)
    (htemporary : key.toList.head? = some '_') (h : done.Extends key value done') :
    Shows ⟨true, cleaners⟩ s done' row outputs ↔ Shows ⟨true, cleaners⟩ s done row outputs := by
  obtain ⟨hfailure, houtputs⟩ := renderFrom_of_extends ⟨true, cleaners⟩ s hunaware h
  have hshown : shown false (renderFrom ⟨true, cleaners⟩ s done' row).outputs =
      shown false (renderFrom ⟨true, cleaners⟩ s done row).outputs :=
    houtputs.filter_of_not (by simp [isTemporary, htemporary])
  constructor
  · rintro ⟨all, ⟨hcomplete, rfl⟩, rfl⟩
    exact ⟨_, ⟨hfailure.symm.trans hcomplete, rfl⟩, hshown.symm⟩
  · rintro ⟨all, ⟨hcomplete, rfl⟩, rfl⟩
    exact ⟨_, ⟨hfailure.trans hcomplete, rfl⟩, hshown⟩

end Shows

/-- An argument anywhere in a template can be factored out into a step on the way.
With a name that nothing else goes by, strict rendering then succeeds in the same
cases and shows the same outputs in the same order. -/
theorem render_factored {templates templates' : OrderedMap String}
    {front back : List (String × String)} {arg ns ns' : List Node}
    (hfresh : FreshStep cleaners templates key)
    (hsplit : templates.entries = front ++ (name, template) :: back)
    (hread : Template.read template = .ok ns) (hfactored : Factored arg key ns ns')
    (hsplit' : templates'.entries =
      front ++ (key, printAll arg) :: (name, printAll ns') :: back)
    (s : Scope) (outputs : OrderedMap String) :
    ((render ⟨true, cleaners⟩ templates' s).toRun false).outcome = .ok outputs ↔
      ((render ⟨true, cleaners⟩ templates s).toRun false).outcome = .ok outputs := by
  have hunaware : ∀ e ∈ (name, template) :: back, Unaware key e := fun e he =>
    hfresh.unaware e (hsplit ▸ List.mem_append_right front he)
  have hname : key ≠ name := by
    rintro rfl
    simpa [sameLetters] using (hunaware _ List.mem_cons_self).name
  rw [shows_iff, shows_iff, hsplit, hsplit', shows_append_iff, shows_append_iff]
  refine exists_congr fun middle => and_congr_right fun hfront => ?_
  -- What the front has come to does not have the new name.
  have hkey : key ∉ middle.keys := by
    rw [(hfront.stands_in_front hsplit').1]
    have hnodup := templates'.nodup
    rw [hsplit', List.map_append] at hnodup
    exact fun hmem => (List.nodup_append.mp hnodup).2.2 _ hmem _ List.mem_cons_self rfl
  have hstage (value : String) : stage ⟨true, cleaners⟩ s middle name template = .ok value ↔
      ∃ inner, stage ⟨true, cleaners⟩ s middle key (printAll arg) = .ok inner ∧
        stage ⟨true, cleaners⟩ s (middle.insert key inner) name (printAll ns') = .ok value :=
    stage_factored hfresh hkey hread (hunaware _ List.mem_cons_self) hfactored
  have hback (inner value : String) :
      Shows ⟨true, cleaners⟩ s ((middle.insert key inner).insert name value) back outputs ↔
        Shows ⟨true, cleaners⟩ s (middle.insert name value) back outputs :=
    shows_of_extends (fun e he => hunaware e (List.mem_cons_of_mem _ he)) hfresh.temporary
      ((OrderedMap.extends_insert hkey inner).insert hname value)
  simp only [shows_cons_iff]
  constructor
  · rintro ⟨inner, hinner, value, hvalue, hrest⟩
    exact ⟨value, (hstage value).mpr ⟨inner, hinner, hvalue⟩, (hback inner value).mp hrest⟩
  · rintro ⟨value, hvalue, hrest⟩
    obtain ⟨inner, hinner, hvalue⟩ := (hstage value).mp hvalue
    exact ⟨inner, hinner, value, hvalue, (hback inner value).mpr hrest⟩

/-- A text that two calls surround, with a rule that cleans the output behind it. -/
theorem render_factored_nested :
    let arg : List Node := [.plain " 7 "]
    let templates : OrderedMap String := .ofList [("Name", "v$PadLeft($Trim( 7 ),3,0)")]
    let templates' : OrderedMap String :=
      .ofList [("_inner", printAll arg), ("Name", "v$PadLeft($Trim(<_inner>),3,0)")]
    ∃ c, Cleaner.ofRule ⟨"^Name$", "0", "."⟩ = .ok c ∧ FreshStep [c] templates "_inner" ∧
      ((render ⟨true, [c]⟩ templates {}).toRun false).outcome = .ok (.ofList [("Name", "v..7")]) ∧
      ((render ⟨true, [c]⟩ templates' {}).toRun false).outcome =
        .ok (.ofList [("Name", "v..7")]) := by
  intro arg templates templates'
  have hcleaner : ((Cleaner.ofRule ⟨"^Name$", "0", "."⟩).toOption.any fun c =>
      !c.select.isMatch "_inner" &&
        decide (((render ⟨true, [c]⟩ templates {}).toRun false).outcome =
          .ok (.ofList [("Name", "v..7")]))) = true := by
    decide +kernel
  obtain ⟨c, hc, hboth⟩ := exists_ok_of_any hcleaner
  obtain ⟨hselect, hshown⟩ := Bool.and_eq_true_iff.mp hboth
  have hread : Template.read "v$PadLeft($Trim( 7 ),3,0)" = .ok
      [.plain "v", .call "PadLeft" [[.call "Trim" [arg]], [.plain "3"], [.plain "0"]]] := by
    rfl
  have hfactored : Factored arg "_inner"
      [.plain "v", .call "PadLeft" [[.call "Trim" [arg]], [.plain "3"], [.plain "0"]]]
      [.plain "v",
        .call "PadLeft" [[.call "Trim" [[bare "_inner"]]], [.plain "3"], [.plain "0"]]] :=
    .inside [.plain "v"] [] "PadLeft" [] [[.plain "3"], [.plain "0"]] (.here [] [] "Trim" [] [])
  have hfresh : FreshStep [c] templates "_inner" :=
    { temporary := by decide
      legal := by
        have hlegal : ("_inner".toList.all fun c => !isBlank c && !(':' :: marks).contains c) =
            true := by
          decide
        intro c hc
        simpa using List.all_eq_true.mp hlegal c hc
      unaware := by
        intro e he
        obtain rfl := List.mem_singleton.mp he
        refine ⟨by decide, fun nodes hnodes other hother => ?_⟩
        obtain rfl := Except.ok.inj (hread.symm.trans hnodes)
        simp [bareKeys, Template.Node.bareKeys, Template.argKeys, arg] at hother
      uncleaned := by
        intro d hd
        obtain rfl := List.mem_singleton.mp hd
        simpa using hselect }
  refine ⟨c, hc, hfresh, of_decide_eq_true hshown, ?_⟩
  have hsplit : templates.entries = [] ++ ("Name", "v$PadLeft($Trim( 7 ),3,0)") :: [] := rfl
  exact (render_factored hfresh hsplit hread hfactored rfl {} _).mpr (of_decide_eq_true hshown)

end Renderer

end VersionTrail.Output
