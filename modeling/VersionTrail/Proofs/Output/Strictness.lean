/-
# Strict and lenient evaluation

Lenient evaluation takes the same steps as strict evaluation and notes a
stand-in where strict evaluation would stop. Up to the first stand-in both are
in the same state, so strict evaluation is what remains of lenient evaluation
when the first stand-in is taken for a fault.

The strict and the lenient rendering of the same templates run side by side.
They agree on every template as long as the lenient one gives no warning, since
then no value holds a stand-in that a later template could read. At the first
warning the strict rendering stops, with the failure that this warning is a
stand-in for. What happens behind it in the lenient rendering plays no part.
-/
import VersionTrail.Output.Rendering
import VersionTrail.Proofs.Run
import VersionTrail.Template.Evaluation

namespace VersionTrail.Template

/-- What a value with stand-ins is where nothing may be stood in for: the first
stand-in's fault, or the value if there is none. -/
def settle {α : Type} : α × List StandIn → Except Fault α
  | (value, []) => .ok value
  | (_, first :: _) => .error first.fault

/-- A stand-in keeps the fault that it stands in for. -/
@[simp]
theorem settle_orStandIn (text : String) (x : Except Fault String) :
    settle (orStandIn text x) = x := by
  cases x <;> rfl

mutual

/-- A piece has the value that settles its lenient value. -/
theorem Node.value_eq_settle (s : Scope) : ∀ n : Node, n.value s = settle (n.lenientValue s)
  | .plain _ => by
      rw [Node.value, Node.lenientValue]
      rfl
  | .reference r => by rw [Node.value, Node.lenientValue, settle_orStandIn]
  | .call name args => by
      rw [Node.value, Node.lenientValue, argValues_eq_settle s args]
      obtain ⟨values, inner⟩ := lenientArgs s args
      cases inner with
      | nil => exact (settle_orStandIn _ _).symm
      | cons first rest => rfl

/-- Pieces have the value that settles their lenient value. -/
theorem valueOf_eq_settle (s : Scope) :
    ∀ ns : List Node, valueOf s ns = settle (lenientValueOf s ns)
  | [] => by
      rw [valueOf, lenientValueOf]
      rfl
  | n :: ns => by
      rw [valueOf, lenientValueOf, Node.value_eq_settle s n, valueOf_eq_settle s ns]
      obtain ⟨front, first⟩ := n.lenientValue s
      obtain ⟨back, others⟩ := lenientValueOf s ns
      cases first <;> cases others <;> rfl

/-- Arguments have the values that settle their lenient values. -/
theorem argValues_eq_settle (s : Scope) :
    ∀ args : List (List Node), argValues s args = settle (lenientArgs s args)
  | [] => by
      rw [argValues, lenientArgs]
      rfl
  | arg :: args => by
      rw [argValues, lenientArgs, valueOf_eq_settle s arg, argValues_eq_settle s args]
      obtain ⟨value, first⟩ := lenientValueOf s arg
      obtain ⟨values, others⟩ := lenientArgs s args
      cases first <;> cases others <;> rfl

end

end VersionTrail.Template

namespace VersionTrail.Output

open VersionTrail.Template (Scope StandIn Unclosed)

/-- A fault of a value fails the output either as a template without a value or,
where a number was expected, as a number. Either way the text of the fault is
kept. -/
theorem valueFailure_message (output template : String) (fault : Template.Fault) :
    (∃ f, valueFailure output template fault = .template output template f ∧
        f.message = fault.message) ∨
      ∃ f, valueFailure output template fault = .numeric f ∧
        f.message = fault.message ++ " (output '" ++ output ++ "', template '" ++ template ++ "')"
    := by
  cases fault with
  | lookup f => exact Or.inl ⟨.noValue (.lookup f), rfl, rfl⟩
  | call f =>
      by_cases hnumeric : f.isNumeric = true
      · exact Or.inr ⟨.call output template f, by rw [valueFailure, if_pos hnumeric], rfl⟩
      · exact Or.inl ⟨.noValue (.call f), by rw [valueFailure, if_neg hnumeric], rfl⟩

/-- The failure of a template that cannot be read. -/
def unreadable (output template : String) (u : Unclosed) : Failure :=
  .template output template (.unclosed u)

/-- How the strict run of a template follows from the lenient one. -/
inductive Follows (output template : String) (strict lenient : Run String) : Prop
  /-- The template has no reading, and both runs fail alike. -/
  | unread (u : Unclosed) (hread : Template.read template = .error u)
      (hstrict : strict = ⟨[], .error (unreadable output template u)⟩)
      (hlenient : lenient = ⟨[], .error (unreadable output template u)⟩)
  /-- Nothing is stood in for, and both runs have the same value. -/
  | settled (value : String) (hstrict : strict = ⟨[], .ok value⟩)
      (hlenient : lenient = ⟨[], .ok value⟩)
  /-- The strict run stops at the first stand-in of the lenient one. -/
  | stopped (value : String) (first : StandIn) (rest : List Warning)
      (hstrict : strict = ⟨[], .error (valueFailure output template first.fault)⟩)
      (hlenient : lenient = ⟨.standIn output template first :: rest, .ok value⟩)

/-- The two runs of a template follow each other. -/
theorem follows_evaluateText (output template : String) (s : Scope) :
    Follows output template (evaluateText true output template s)
      (evaluateText false output template s) := by
  unfold evaluateText
  cases hread : Template.read template with
  | error u => exact .unread u hread rfl rfl
  | ok nodes =>
      have hvalue := Template.valueOf_eq_settle s nodes
      cases hlenient : Template.lenientValueOf s nodes with
      | mk value standIns =>
          rw [hlenient] at hvalue
          cases standIns with
          | nil =>
              refine .settled value ?_ ?_
              · show Run.ofExcept ((Template.valueOf s nodes).mapError _) = _
                rw [hvalue]
                rfl
              · simp [evaluate, hlenient]
          | cons first rest =>
              refine .stopped value first (rest.map (.standIn output template)) ?_ ?_
              · show Run.ofExcept ((Template.valueOf s nodes).mapError _) = _
                rw [hvalue]
                rfl
              · simp [evaluate, hlenient]

namespace Renderer

/-- How the strict rendering of a row of templates follows from the lenient one. -/
inductive Follows (templates : List (String × String)) (strict lenient : Rendering) : Prop
  /-- Without a warning, both come to the same. -/
  | settled (hwarnings : lenient.warnings = []) (heq : strict = lenient)
  /-- The strict rendering stops at the first warning of the lenient one. -/
  | stopped (output template : String) (first : StandIn) (rest : List Warning)
      (hmem : (output, template) ∈ templates)
      (hwarnings : lenient.warnings = .standIn output template first :: rest)
      (hquiet : strict.warnings = [])
      (hfailure : strict.failure = some (valueFailure output template first.fault))

/-- Templates that follow one without a warning keep the two renderings
together. -/
theorem Follows.cons {e : String × String} {templates : List (String × String)}
    {strict lenient : Rendering} (h : Follows templates strict lenient) :
    Follows (e :: templates) { strict with warnings := [] ++ strict.warnings }
      { lenient with warnings := [] ++ lenient.warnings } := by
  cases h with
  | settled hwarnings heq =>
      subst heq
      exact .settled hwarnings rfl
  | stopped output template first rest hmem hwarnings hquiet hfailure =>
      exact .stopped output template first rest (List.mem_cons_of_mem _ hmem) hwarnings hquiet
        hfailure

/-- Behind the same outputs, the two renderings of a row of templates follow
each other. -/
theorem follows_renderFrom (cleaners : List Cleaner) (s : Scope)
    (templates : List (String × String)) (done : OrderedMap String) :
    Follows templates (renderFrom ⟨true, cleaners⟩ s done templates)
      (renderFrom ⟨false, cleaners⟩ s done templates) := by
  induction templates generalizing done with
  | nil => exact .settled rfl rfl
  | cons e templates ih =>
      obtain ⟨output, template⟩ := e
      rw [renderFrom, renderFrom]
      cases follows_evaluateText output template { s with outputs := done } with
      | unread u hread hstrict hlenient =>
          rw [hstrict, hlenient]
          exact .settled rfl rfl
      | settled value hstrict hlenient =>
          rw [hstrict, hlenient]
          exact (ih _).cons
      | stopped value first rest hstrict hlenient =>
          rw [hstrict, hlenient]
          exact .stopped output template first _ List.mem_cons_self rfl rfl rfl

namespace Follows

variable {templates : List (String × String)} {strict lenient : Rendering}

/-- Without a warning of the lenient rendering the two are the same. -/
theorem eq_of_quiet (h : Follows templates strict lenient) (hquiet : lenient.warnings = []) :
    strict = lenient := by
  cases h with
  | settled hwarnings heq => exact heq
  | stopped output template first rest hmem hwarnings hsilent hfailure =>
      rw [hwarnings] at hquiet
      contradiction

/-- Where the strict rendering does not fail, the lenient one does not warn. -/
theorem quiet_of_success (h : Follows templates strict lenient) (hsuccess : strict.failure = none) :
    lenient.warnings = [] := by
  cases h with
  | settled hwarnings heq => exact hwarnings
  | stopped output template first rest hmem hwarnings hsilent hfailure =>
      rw [hfailure] at hsuccess
      contradiction

/-- A first warning is a stand-in of the template at which the strict rendering
stops. -/
theorem stopped_of_warning (h : Follows templates strict lenient) {w : Warning}
    {rest : List Warning} (hw : lenient.warnings = w :: rest) :
    ∃ output template first, (output, template) ∈ templates ∧
      w = .standIn output template first ∧
      strict.failure = some (valueFailure output template first.fault) := by
  cases h with
  | settled hwarnings heq =>
      rw [hwarnings] at hw
      contradiction
  | stopped output template first others hmem hwarnings hsilent hfailure =>
      rw [hwarnings] at hw
      exact ⟨output, template, first, hmem, (List.cons.inj hw).1.symm, hfailure⟩

end Follows

/-- Lenient rendering fails only at a template that cannot be read. -/
theorem exists_unread_of_failure {cleaners : List Cleaner} {s : Scope}
    {templates : List (String × String)} {done : OrderedMap String} {f : Failure}
    (hfailure : (renderFrom ⟨false, cleaners⟩ s done templates).failure = some f) :
    ∃ output template u, (output, template) ∈ templates ∧ Template.read template = .error u ∧
      f = unreadable output template u := by
  induction templates generalizing done with
  | nil => simp [renderFrom] at hfailure
  | cons e templates ih =>
      obtain ⟨output, template⟩ := e
      have later (value : String) (hrest : (renderFrom ⟨false, cleaners⟩ s
          (done.insert output (clean ⟨false, cleaners⟩ output value)) templates).failure = some f) :
          ∃ output' template' u, (output', template') ∈ (output, template) :: templates ∧
            Template.read template' = .error u ∧ f = unreadable output' template' u := by
        obtain ⟨output', template', u, hmem, hread, hf⟩ := ih hrest
        exact ⟨output', template', u, List.mem_cons_of_mem _ hmem, hread, hf⟩
      rw [renderFrom] at hfailure
      cases follows_evaluateText output template { s with outputs := done } with
      | unread u hread hstrict hlenient =>
          rw [hlenient] at hfailure
          exact ⟨output, template, u, List.mem_cons_self, hread, (Option.some.inj hfailure).symm⟩
      | settled value hstrict hlenient =>
          rw [hlenient] at hfailure
          exact later value hfailure
      | stopped value first rest hstrict hlenient =>
          rw [hlenient] at hfailure
          exact later value hfailure

end Renderer

namespace Rendering

@[simp]
theorem outcome_toRun_eq_error_iff {keep : Bool} {r : Rendering} {f : Failure} :
    (r.toRun keep).outcome = .error f ↔ r.failure = some f := by
  unfold toRun
  cases r.failure <;> simp

@[simp]
theorem outcome_toRun_eq_ok_iff {keep : Bool} {r : Rendering} {outputs : OrderedMap String} :
    (r.toRun keep).outcome = .ok outputs ↔ r.failure = none ∧ shown keep r.outputs = outputs := by
  unfold toRun
  cases r.failure <;> simp

@[simp]
theorem warnings_toRun (keep : Bool) (r : Rendering) : (r.toRun keep).warnings = r.warnings := by
  unfold toRun
  cases r.failure <;> rfl

end Rendering

/-- Strict and lenient rendering agree. The strict run succeeds exactly where
the lenient one succeeds without a warning, and with the same outputs. Where it
fails and the lenient run warns, its failure is the one that the first warning
stands in for, and has its text. Where it fails and the lenient run does not
warn, both fail alike at a template that cannot be read; and nothing else makes
a lenient run fail. -/
theorem strict_agrees_with_lenient (cleaners : List Cleaner) (templates : OrderedMap String)
    (s : Scope) (keep : Bool) :
    let strict := (Renderer.render ⟨true, cleaners⟩ templates s).toRun keep
    let lenient := (Renderer.render ⟨false, cleaners⟩ templates s).toRun keep
    (∀ outputs, strict.outcome = .ok outputs ↔
      lenient.outcome = .ok outputs ∧ lenient.warnings = []) ∧
    (∀ f w rest, strict.outcome = .error f → lenient.warnings = w :: rest →
      ∃ output template first, (output, template) ∈ templates.entries ∧
        w = .standIn output template first ∧ f = valueFailure output template first.fault ∧
        ((∃ fault, f = .template output template fault ∧ fault.message = w.message) ∨
          ∃ fault, f = .numeric fault ∧ fault.message =
            w.message ++ " (output '" ++ output ++ "', template '" ++ template ++ "')")) ∧
    (∀ f, strict.outcome = .error f → lenient.warnings = [] →
      lenient.outcome = .error f ∧
        ∃ output template u, (output, template) ∈ templates.entries ∧
          Template.read template = .error u ∧ f = .template output template (.unclosed u)) ∧
    ((∀ e ∈ templates.entries, ∃ nodes, Template.read e.2 = .ok nodes) →
      ∃ outputs, lenient.outcome = .ok outputs) := by
  intro strict lenient
  have hfollows : Renderer.Follows templates.entries
      (Renderer.render ⟨true, cleaners⟩ templates s)
      (Renderer.render ⟨false, cleaners⟩ templates s) :=
    Renderer.follows_renderFrom cleaners s templates.entries ∅
  have hunread := @Renderer.exists_unread_of_failure cleaners s templates.entries ∅
  simp only [strict, lenient, Rendering.outcome_toRun_eq_ok_iff,
    Rendering.outcome_toRun_eq_error_iff, Rendering.warnings_toRun]
  refine ⟨fun outputs => ?_, fun f w rest hf hw => ?_, fun f hf hw => ?_, fun hread => ?_⟩
  · constructor
    · intro hok
      have hquiet := hfollows.quiet_of_success hok.1
      rw [hfollows.eq_of_quiet hquiet] at hok
      exact ⟨hok, hquiet⟩
    · intro hok
      rw [hfollows.eq_of_quiet hok.2]
      exact hok.1
  · obtain ⟨output, template, first, hmem, hfirst, hfailure⟩ := hfollows.stopped_of_warning hw
    obtain rfl := Option.some.inj (hf.symm.trans hfailure)
    rw [hfirst]
    exact ⟨output, template, first, hmem, rfl, rfl,
      valueFailure_message output template first.fault⟩
  · rw [hfollows.eq_of_quiet hw] at hf
    exact ⟨hf, hunread hf⟩
  · cases hfailure : (Renderer.render ⟨false, cleaners⟩ templates s).failure with
    | none => exact ⟨_, rfl, rfl⟩
    | some f =>
        obtain ⟨output, template, u, hmem, hu, -⟩ := hunread hfailure
        obtain ⟨nodes, hnodes⟩ := hread _ hmem
        rw [hu] at hnodes
        contradiction

end VersionTrail.Output
