/-
# Rendering in stages

A row of templates is rendered one output after the other, and a template sees
the outputs in front of it and nothing else. So a row is rendered like its
front, followed by the rest behind what the front gave; and a row that fails
has come to the same outputs as the templates in front of the failure.

The inductions are over the row of templates. What they carry along is the map
of the outputs so far, whose names stay apart from those still to come.
-/
import Mathlib.Data.List.Forall2
import VersionTrail.Proofs.OrderedMap
import VersionTrail.Proofs.Output.Strictness
import VersionTrail.Proofs.Run

namespace VersionTrail.Output

open VersionTrail.Template (Scope)

/-- Whether the patterns of a rule for cleaning are the ones of a cleaner. -/
structure Cleaner.Reads (rule : CleanRule) (c : Cleaner) : Prop where
  select_read : PatternUse.outputSelector.compile rule.select = .ok c.select
  invalid_read : PatternUse.invalidCharacter.compile rule.invalidPattern = .ok c.invalid
  replacement_eq : c.replacement = rule.replacement

theorem Cleaner.reads_of_ofRule {rule : CleanRule} {c : Cleaner}
    (hread : Cleaner.ofRule rule = .ok c) : Cleaner.Reads rule c := by
  rw [ofRule, bind_eq_ok_iff] at hread
  obtain ⟨select, hselect, hread⟩ := hread
  obtain ⟨invalid, hinvalid, hread⟩ := bind_eq_ok_iff.mp hread
  obtain rfl := Except.ok.inj hread
  exact ⟨hselect, hinvalid, rfl⟩

theorem Cleaner.forall₂_reads_of_mapM {rules : List CleanRule} {cleaners : List Cleaner}
    (hread : rules.mapM Cleaner.ofRule = .ok cleaners) :
    List.Forall₂ Cleaner.Reads rules cleaners := by
  induction rules generalizing cleaners with
  | nil =>
      obtain rfl := Except.ok.inj hread
      exact .nil
  | cons rule rules ih =>
      rw [List.mapM_cons, bind_eq_ok_iff] at hread
      obtain ⟨c, hc, hread⟩ := hread
      obtain ⟨rest, hrest, hread⟩ := bind_eq_ok_iff.mp hread
      obtain rfl := Except.ok.inj hread
      exact .cons (reads_of_ofRule hc) (ih hrest)

namespace Renderer

/-- A renderer has the cleaners of its settings, in their order. -/
theorem reads_of_ofSettings {settings : OutputSettings} {r : Renderer}
    (hread : ofSettings settings = .ok r) :
    r.strict = settings.strict ∧ List.Forall₂ Cleaner.Reads settings.clean r.cleaners := by
  rw [ofSettings, bind_eq_ok_iff] at hread
  obtain ⟨cleaners, hcleaners, hread⟩ := hread
  obtain rfl := Except.ok.inj hread
  exact ⟨rfl, Cleaner.forall₂_reads_of_mapM hcleaners⟩

/-- Cleaning applies the rules that select the output, one after the other. -/
theorem clean_eq_foldl_filter (r : Renderer) (name value : String) :
    r.clean name value =
      (r.cleaners.filter fun c => c.select.isMatch name).foldl
        (fun v c => c.invalid.replaceAll v c.replacement) value := by
  rw [List.foldl_filter]
  rfl

/-- The value that a template gives its output behind the given outputs. -/
def stage (r : Renderer) (s : Scope) (done : OrderedMap String) (name template : String) :
    Except Failure String :=
  (evaluateText r.strict name template { s with outputs := done }).outcome.map (r.clean name)

variable {r : Renderer} {s : Scope} {done : OrderedMap String} {name template : String}

theorem stage_eq_ok_iff {cleaned : String} :
    r.stage s done name template = .ok cleaned ↔
      ∃ value,
        (evaluateText r.strict name template { s with outputs := done }).outcome = .ok value ∧
        r.clean name value = cleaned := by
  unfold stage
  cases (evaluateText r.strict name template { s with outputs := done }).outcome <;>
    simp

theorem stage_eq_error_iff {f : Failure} :
    r.stage s done name template = .error f ↔
      (evaluateText r.strict name template { s with outputs := done }).outcome = .error f := by
  unfold stage
  cases (evaluateText r.strict name template { s with outputs := done }).outcome <;>
    simp

theorem renderFrom_cons_of_ok {value : String} (hvalue : r.stage s done name template = .ok value)
    (rest : List (String × String)) :
    (r.renderFrom s done ((name, template) :: rest)).outputs =
        (r.renderFrom s (done.insert name value) rest).outputs ∧
      (r.renderFrom s done ((name, template) :: rest)).failure =
        (r.renderFrom s (done.insert name value) rest).failure := by
  obtain ⟨plain, hplain, rfl⟩ := stage_eq_ok_iff.mp hvalue
  rw [renderFrom]
  dsimp only
  rw [hplain]
  exact ⟨rfl, rfl⟩

theorem renderFrom_cons_of_error {f : Failure} (hf : r.stage s done name template = .error f)
    (rest : List (String × String)) :
    (r.renderFrom s done ((name, template) :: rest)).outputs = done ∧
      (r.renderFrom s done ((name, template) :: rest)).failure = some f := by
  rw [renderFrom]
  dsimp only
  rw [stage_eq_error_iff.mp hf]
  exact ⟨rfl, rfl⟩

/-! ## Rows of templates -/

/-- Whether all templates of a row have a value, and what the row comes to. -/
structure Renders (r : Renderer) (s : Scope) (done : OrderedMap String)
    (templates : List (String × String)) (outputs : OrderedMap String) : Prop where
  complete : (r.renderFrom s done templates).failure = none
  outputs_eq : (r.renderFrom s done templates).outputs = outputs

variable {front back templates : List (String × String)} {outputs : OrderedMap String}

@[simp]
theorem renders_nil_iff : r.Renders s done [] outputs ↔ done = outputs :=
  ⟨fun h => h.outputs_eq, fun h => ⟨rfl, h⟩⟩

/-- A row is complete when its first template has a value and the others have
theirs behind it. -/
theorem renders_cons_iff :
    r.Renders s done ((name, template) :: templates) outputs ↔
      ∃ value, r.stage s done name template = .ok value ∧
        r.Renders s (done.insert name value) templates outputs := by
  constructor
  · rintro ⟨hcomplete, houtputs⟩
    cases hstage : r.stage s done name template with
    | error f =>
        rw [(renderFrom_cons_of_error hstage templates).2] at hcomplete
        contradiction
    | ok value =>
        obtain ⟨heq, hfailure⟩ := renderFrom_cons_of_ok hstage templates
        exact ⟨value, rfl, hfailure.symm.trans hcomplete, heq.symm.trans houtputs⟩
  · rintro ⟨value, hvalue, hcomplete, houtputs⟩
    obtain ⟨heq, hfailure⟩ := renderFrom_cons_of_ok hvalue templates
    exact ⟨hfailure.trans hcomplete, heq.trans houtputs⟩

/-- Behind a complete row, others are rendered as behind what it came to. -/
theorem Renders.append {middle : OrderedMap String} (h : r.Renders s done front middle)
    (back : List (String × String)) :
    (r.renderFrom s done (front ++ back)).outputs = (r.renderFrom s middle back).outputs ∧
      (r.renderFrom s done (front ++ back)).failure = (r.renderFrom s middle back).failure := by
  induction front generalizing done with
  | nil =>
      obtain rfl := renders_nil_iff.mp h
      exact ⟨rfl, rfl⟩
  | cons e front ih =>
      obtain ⟨name, template⟩ := e
      obtain ⟨value, hvalue, hrest⟩ := renders_cons_iff.mp h
      obtain ⟨heq, hfailure⟩ := renderFrom_cons_of_ok hvalue (front ++ back)
      exact ⟨heq.trans (ih hrest).1, hfailure.trans (ih hrest).2⟩

theorem renders_append_iff :
    r.Renders s done (front ++ back) outputs ↔
      ∃ middle, r.Renders s done front middle ∧ r.Renders s middle back outputs := by
  constructor
  · intro h
    induction front generalizing done with
    | nil => exact ⟨done, renders_nil_iff.mpr rfl, h⟩
    | cons e front ih =>
        obtain ⟨value, hvalue, hrest⟩ := renders_cons_iff.mp h
        obtain ⟨middle, hfront, hback⟩ := ih hrest
        exact ⟨middle, renders_cons_iff.mpr ⟨value, hvalue, hfront⟩, hback⟩
  · rintro ⟨middle, hfront, hback⟩
    obtain ⟨heq, hfailure⟩ := hfront.append back
    exact ⟨hfailure.trans hback.complete, heq.trans hback.outputs_eq⟩

/-- A row that fails is complete in front of the template that fails, and has
come to the same outputs there. -/
theorem exists_stop_of_failure {f : Failure}
    (hfailure : (r.renderFrom s done templates).failure = some f) :
    ∃ front name template back, templates = front ++ (name, template) :: back ∧
      r.Renders s done front (r.renderFrom s done templates).outputs ∧
      r.stage s (r.renderFrom s done templates).outputs name template = .error f := by
  induction templates generalizing done with
  | nil => contradiction
  | cons e rest ih =>
      obtain ⟨name, template⟩ := e
      cases hstage : r.stage s done name template with
      | error g =>
          obtain ⟨heq, hg⟩ := renderFrom_cons_of_error hstage rest
          obtain rfl := Option.some.inj (hg.symm.trans hfailure)
          rw [heq]
          exact ⟨[], name, template, rest, rfl, renders_nil_iff.mpr rfl, hstage⟩
      | ok value =>
          obtain ⟨heq, hrest⟩ := renderFrom_cons_of_ok hstage rest
          obtain ⟨front, name', template', back, rfl, hfront, hstop⟩ :=
            ih (hrest.symm.trans hfailure)
          rw [heq]
          exact ⟨(name, template) :: front, name', template', back, rfl,
            renders_cons_iff.mpr ⟨value, hstage, hfront⟩, hstop⟩

/-- A row that fails in front fails there, whatever follows. -/
theorem renderFrom_append_of_failure {f : Failure}
    (hfailure : (r.renderFrom s done front).failure = some f) (back : List (String × String)) :
    (r.renderFrom s done (front ++ back)).outputs = (r.renderFrom s done front).outputs ∧
      (r.renderFrom s done (front ++ back)).failure = some f := by
  obtain ⟨before, name, template, behind, hfront, hbefore, hstop⟩ := exists_stop_of_failure hfailure
  obtain ⟨heq, hfailure⟩ := hbefore.append ((name, template) :: behind ++ back)
  obtain ⟨hsame, hf⟩ := renderFrom_cons_of_error hstop (behind ++ back)
  rw [hfront, List.append_assoc]
  rw [hfront] at heq hfailure hsame hf
  exact ⟨heq.trans hsame, hfailure.trans hf⟩

/-- New outputs stand behind those that were there. They are named like the
templates, up to the one that fails. -/
theorem exists_entries_renderFrom
    (hnodup : (done.keys ++ templates.map Prod.fst).Nodup) :
    ∃ new, (r.renderFrom s done templates).outputs.entries = done.entries ++ new ∧
      new.map Prod.fst = (templates.take new.length).map Prod.fst ∧
      ((r.renderFrom s done templates).failure = none → new.length = templates.length) := by
  induction templates generalizing done with
  | nil => exact ⟨[], (List.append_nil _).symm, rfl, fun _ => rfl⟩
  | cons e rest ih =>
      obtain ⟨name, template⟩ := e
      cases hstage : r.stage s done name template with
      | error f =>
          obtain ⟨heq, hf⟩ := renderFrom_cons_of_error hstage rest
          refine ⟨[], ?_, rfl, fun hnone => ?_⟩
          · rw [heq, List.append_nil]
          · rw [hf] at hnone
            contradiction
      | ok value =>
          obtain ⟨hname, hrestNodup⟩ := OrderedMap.nodup_insert hnodup value
          have hinsert := OrderedMap.entries_insert_of_notMem value hname
          obtain ⟨heq, hrest⟩ := renderFrom_cons_of_ok hstage rest
          obtain ⟨new, hentries, hnames, hlength⟩ := ih hrestNodup
          refine ⟨(name, value) :: new, ?_, ?_, fun hnone => ?_⟩
          · rw [heq, hentries, hinsert, List.append_assoc]
            rfl
          · rw [List.map_cons, hnames]
            rfl
          · rw [List.length_cons, hlength (hrest.symm.trans hnone), List.length_cons]

/-! ## Maps of templates -/

/-- What rendering templates with a scope gives, output by output. -/
structure Stages (r : Renderer) (templates : OrderedMap String) (s : Scope) : Prop where
  /-- The outputs that the scope holds do not count. -/
  fresh : ∀ stale, r.render templates { s with outputs := stale } = r.render templates s
  /-- The failure does not depend on which outputs are shown. -/
  failed : ∀ keep f, ((r.render templates s).toRun keep).outcome = .error f ↔
    (r.render templates s).failure = some f
  names : (r.render templates s).failure = none →
    (r.render templates s).outputs.keys = templates.keys
  /-- A value is the one of its template behind the outputs in front of it,
  cleaned by the rules that select its name. -/
  value : (r.render templates s).failure = none →
    ∀ (k : Nat) name template, templates.entries[k]? = some (name, template) →
      ∃ plain, (evaluateText r.strict name template
          { s with outputs := (r.render templates s).outputs.take k }).outcome = .ok plain ∧
        (r.render templates s).outputs.entries[k]? = some (name,
          (r.cleaners.filter fun c => c.select.isMatch name).foldl
            (fun v c => c.invalid.replaceAll v c.replacement) plain)
  returned : ∀ keep outputs, ((r.render templates s).toRun keep).outcome = .ok outputs ↔
    (r.render templates s).failure = none ∧
      outputs.entries = (r.render templates s).outputs.entries.filter fun e =>
        keep || e.1.toList.head? != some '_'
  /-- Nothing behind a template has a part in its value. -/
  split : ∀ front back : OrderedMap String, templates.entries = front.entries ++ back.entries →
    ((r.render front s).failure = none →
      (r.render front s).outputs = (r.render templates s).outputs.take front.size) ∧
    ∀ f, (r.render front s).failure = some f →
      (r.render templates s).failure = some f ∧
        (r.render templates s).outputs = (r.render front s).outputs
  /-- The templates in front of the one that fails come to the same outputs. -/
  stopped : ∀ f, (r.render templates s).failure = some f →
    ∃ k name template, templates.entries[k]? = some (name, template) ∧
      (evaluateText r.strict name template
        { s with outputs := (r.render templates s).outputs }).outcome = .error f ∧
      (r.render templates s).outputs.keys = (templates.take k).keys ∧
      (r.render (templates.take k) s).failure = none ∧
      (r.render (templates.take k) s).outputs = (r.render templates s).outputs

/-- What a front of the templates comes to has its names, and stands in front of
all other outputs. -/
theorem Renders.stands_in_front {templates : OrderedMap String}
    (hsplit : templates.entries = front ++ back) (h : r.Renders s ∅ front outputs) :
    outputs.keys = front.map Prod.fst ∧
      ∃ new, (r.render templates s).outputs.entries = outputs.entries ++ new := by
  have hnodup := templates.nodup
  rw [hsplit, List.map_append] at hnodup
  have hfrontNodup : ((∅ : OrderedMap String).keys ++ front.map Prod.fst).Nodup :=
    (List.nodup_append.mp hnodup).1
  obtain ⟨shown, hshown, hnames, hlength⟩ :=
    exists_entries_renderFrom (r := r) (s := s) hfrontNodup
  have hkeys : outputs.keys = front.map Prod.fst := by
    rw [← h.outputs_eq, OrderedMap.keys, hshown]
    exact hnames.trans (by rw [hlength h.complete, List.take_length])
  have hbackNodup : (outputs.keys ++ back.map Prod.fst).Nodup := by
    rw [hkeys]
    exact hnodup
  obtain ⟨new, hentries, -, -⟩ := exists_entries_renderFrom (r := r) (s := s) hbackNodup
  refine ⟨hkeys, new, ?_⟩
  rw [render, hsplit, (h.append back).1, hentries]

/-- The names still to come are distinct from those of the outputs. -/
theorem Renders.nodup_keys {templates : OrderedMap String}
    (hsplit : templates.entries = front ++ back) (h : r.Renders s ∅ front outputs) :
    (outputs.keys ++ back.map Prod.fst).Nodup := by
  have hnodup := templates.nodup
  rwa [hsplit, List.map_append, ← (h.stands_in_front hsplit).1] at hnodup

theorem Renders.length_entries {templates : OrderedMap String}
    (hsplit : templates.entries = front ++ back) (h : r.Renders s ∅ front outputs) :
    outputs.entries.length = front.length := by
  have hkeys := congrArg List.length (h.stands_in_front hsplit).1
  rwa [OrderedMap.keys, List.length_map, List.length_map] at hkeys

/-- What a front of the templates comes to are the first outputs. -/
theorem Renders.eq_take {templates : OrderedMap String}
    (hsplit : templates.entries = front ++ back) (h : r.Renders s ∅ front outputs) :
    outputs = (r.render templates s).outputs.take front.length := by
  obtain ⟨new, hentries⟩ := (h.stands_in_front hsplit).2
  refine OrderedMap.ext_entries ?_
  rw [← h.length_entries hsplit]
  exact (OrderedMap.take_of_append hentries).symm

/-- Where all templates have a value, each has one behind the outputs in front of
it, and this value stands in its place. -/
theorem exists_stage_of_complete {templates : OrderedMap String}
    (hcomplete : (r.render templates s).failure = none)
    (hsplit : templates.entries = front ++ (name, template) :: back) :
    ∃ value, r.stage s ((r.render templates s).outputs.take front.length) name template =
        .ok value ∧
      (r.render templates s).outputs.entries[front.length]? = some (name, value) := by
  have hwhole : r.Renders s ∅ templates.entries (r.render templates s).outputs := ⟨hcomplete, rfl⟩
  rw [hsplit] at hwhole
  obtain ⟨middle, hfront, hback⟩ := renders_append_iff.mp hwhole
  obtain ⟨value, hvalue, -⟩ := renders_cons_iff.mp hback
  have hnext : r.Renders s ∅ (front ++ [(name, template)]) (middle.insert name value) :=
    renders_append_iff.mpr
      ⟨middle, hfront, renders_cons_iff.mpr ⟨value, hvalue, renders_nil_iff.mpr rfl⟩⟩
  have hsplitNext : templates.entries = (front ++ [(name, template)]) ++ back := by
    rw [hsplit, List.append_assoc]
    rfl
  obtain ⟨new, hentries⟩ := (hnext.stands_in_front hsplitNext).2
  have hname := (OrderedMap.nodup_insert (hfront.nodup_keys hsplit) value).1
  refine ⟨value, (hfront.eq_take hsplit) ▸ hvalue, ?_⟩
  rw [hentries, OrderedMap.entries_insert_of_notMem value hname, List.append_assoc,
    ← hfront.length_entries hsplit]
  simp

theorem render_fresh (r : Renderer) (templates : OrderedMap String) (s : Scope)
    (stale : OrderedMap String) :
    r.render templates { s with outputs := stale } = r.render templates s := by
  have hrow (es : List (String × String)) (done : OrderedMap String) :
      r.renderFrom { s with outputs := stale } done es = r.renderFrom s done es := by
    induction es generalizing done with
    | nil => rfl
    | cons e es ih =>
        obtain ⟨name, template⟩ := e
        rw [renderFrom, renderFrom]
        simp only [ih]
  exact hrow templates.entries ∅

/-- Templates are rendered in stages. A value is the one of its template behind
the outputs in front of it, and is then cleaned by the rules that select its
name, in the order of the settings. Neither the outputs that the scope held
before nor the choice of what is shown has a part in the values or in the
failure, and neither has anything behind a template. -/
theorem render_stages {settings : OutputSettings} {r : Renderer}
    (hread : ofSettings settings = .ok r) (templates : OrderedMap String) (s : Scope) :
    r.strict = settings.strict ∧ List.Forall₂ Cleaner.Reads settings.clean r.cleaners ∧
      r.Stages templates s := by
  refine ⟨(reads_of_ofSettings hread).1, (reads_of_ofSettings hread).2, ?_⟩
  refine ⟨render_fresh r templates s, fun keep f => Rendering.outcome_toRun_eq_error_iff,
    fun hnone => ?names, fun hnone k name template hentry => ?value, fun keep outputs => ?returned,
    fun front back hsplit => ⟨fun hnone => ?front, fun f hf => ?back⟩, fun f hf => ?stopped⟩
  case names =>
    have hwhole : r.Renders s ∅ templates.entries (r.render templates s).outputs := ⟨hnone, rfl⟩
    exact (hwhole.stands_in_front (List.append_nil _).symm).1
  case value =>
    obtain ⟨hk, hentry⟩ := List.getElem?_eq_some_iff.mp hentry
    have hsplit : templates.entries =
        templates.entries.take k ++ (name, template) :: templates.entries.drop (k + 1) := by
      rw [← hentry, ← List.drop_eq_getElem_cons hk, List.take_append_drop]
    obtain ⟨value, hvalue, hat⟩ := exists_stage_of_complete hnone hsplit
    rw [List.length_take_of_le (Nat.le_of_lt hk)] at hvalue hat
    obtain ⟨plain, hplain, rfl⟩ := stage_eq_ok_iff.mp hvalue
    rw [clean_eq_foldl_filter] at hat
    exact ⟨plain, hplain, hat⟩
  case returned =>
    rw [Rendering.outcome_toRun_eq_ok_iff]
    refine and_congr_right fun _ => ⟨fun h => ?_, fun h => OrderedMap.ext_entries ?_⟩
    · rw [← h]
      rfl
    · rw [h]
      rfl
  case front => exact Renders.eq_take hsplit ⟨hnone, rfl⟩
  case back =>
    obtain ⟨heq, hfailure⟩ := renderFrom_append_of_failure hf back.entries
    rw [render, hsplit]
    exact ⟨hfailure, heq⟩
  case stopped =>
    obtain ⟨front, name, template, back, hsplit, hfront, hstop⟩ := exists_stop_of_failure hf
    have htake : (templates.take front.length).entries = front := OrderedMap.take_of_append hsplit
    have hagain : r.Renders s ∅ (templates.take front.length).entries
        (r.render templates s).outputs := by
      rw [htake]
      exact hfront
    refine ⟨front.length, name, template, ?_, stage_eq_error_iff.mp hstop, ?_, hagain.complete,
      hagain.outputs_eq⟩
    · rw [hsplit]
      simp
    · exact (hfront.stands_in_front hsplit).1.trans (by rw [OrderedMap.keys, htake])

/-- A rule that takes dots out of one output leaves the step on the way alone. -/
theorem render_stages_clean :
    let settings : OutputSettings := { clean := [⟨"^Plain$", "\\.", "-"⟩] }
    let templates : OrderedMap String := .ofList [("_core", "1.2"), ("Plain", "<_core>.3")]
    ∃ r, ofSettings settings = .ok r ∧ r.Stages templates {} ∧
      (r.render templates {}).outputs.entries = [("_core", "1.2"), ("Plain", "1-2-3")] := by
  intro settings templates
  have hread : ((ofSettings settings).toOption.any fun r =>
      (r.render templates {}).outputs.entries = [("_core", "1.2"), ("Plain", "1-2-3")]) = true := by
    decide +kernel
  obtain ⟨r, hr, hcleaned⟩ := exists_ok_of_any hread
  exact ⟨r, hr, (render_stages hr templates {}).2.2, of_decide_eq_true hcleaned⟩

end Renderer

end VersionTrail.Output
