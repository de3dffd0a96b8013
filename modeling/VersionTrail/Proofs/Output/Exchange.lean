/-
# Neighbours that change places

A reference finds the output of exactly its name, or else the first one whose
name differs from it in the case of letters only. So the order of the outputs is
seen only through names that differ in nothing but that. Two outputs next to each
other may then change places if their names differ in more, and if neither refers
to the other: every output keeps its value.

Two renderings run side by side. Behind the two neighbours they have the same
outputs in another order, in which every reference finds the same value, and each
further output is put at the end of both.
-/
import VersionTrail.Proofs.Output.Factoring

namespace VersionTrail.Template

open VersionTrail.Text

/-- Whether two maps have the same entries, and the same one of them is found
first when the case of letters does not count. -/
structure Alike (m n : OrderedMap String) : Prop where
  perm : m.entries.Perm n.entries
  find?_eq : ∀ key, (n.find? fun k => sameLetters k key) = m.find? fun k => sameLetters k key

variable {m n : OrderedMap String} {key key' : String}

theorem Alike.findValue?_eq (h : Alike m n) (key : String) :
    findValue? n key = findValue? m key := by
  rw [findValue?, findValue?, OrderedMap.get?_of_perm h.perm, h.find?_eq]

theorem Alike.insert (h : Alike m n) (hkey : key ∉ m.keys) (value : String) :
    Alike (m.insert key value) (n.insert key value) := by
  have hkey' : key ∉ n.keys := fun hmem => hkey ((h.perm.map Prod.fst).mem_iff.mpr hmem)
  have hm := OrderedMap.entries_insert_of_notMem value hkey
  have hn := OrderedMap.entries_insert_of_notMem value hkey'
  refine ⟨?_, fun other => ?_⟩
  · rw [hm, hn]
    exact h.perm.append_right _
  · have hfind := h.find?_eq other
    unfold OrderedMap.find? at hfind ⊢
    rw [hm, hn, List.find?_append, List.find?_append, hfind]

/-- Two new outputs can be put in either order if their names differ in more than
the case of letters. -/
theorem alike_insert_insert (hletters : sameLetters key key' = false) (hkey : key ∉ m.keys)
    (hkey' : key' ∉ m.keys) (value value' : String) :
    Alike ((m.insert key value).insert key' value') ((m.insert key' value').insert key value) := by
  have hne : key ≠ key' := ne_of_not_sameLetters hletters
  have hentries := OrderedMap.entries_insert_insert hkey hkey' hne value value'
  have hentries' := OrderedMap.entries_insert_insert hkey' hkey hne.symm value' value
  refine ⟨?_, fun other => ?_⟩
  · rw [hentries, hentries']
    exact (List.Perm.swap _ _ _).append_left _
  · have hone : sameLetters key other = false ∨ sameLetters key' other = false := by
      simp only [sameLetters, beq_eq_false_iff_ne] at hletters ⊢
      by_contra hboth
      rw [not_or, not_not, not_not] at hboth
      exact hletters (hboth.1.trans hboth.2.symm)
    unfold OrderedMap.find?
    rw [hentries, hentries', List.find?_append, List.find?_append]
    congr 1
    rcases hone with hfirst | hsecond
    · simp [List.find?_cons, hfirst]
    · simp [List.find?_cons, hsecond]

end VersionTrail.Template

namespace VersionTrail.Output

open VersionTrail.Text
open VersionTrail.Template (Scope Alike)

namespace Renderer

variable {r : Renderer} {s : Scope} {done done' all : OrderedMap String}
variable {front back row : List (String × String)} {a b : String × String}

variable (r s) in
/-- Behind outputs that are alike, a row of templates is rendered alike. -/
theorem renderFrom_of_alike (h : Alike done done')
    (hnodup : (done.keys ++ row.map Prod.fst).Nodup) :
    (r.renderFrom s done' row).failure = (r.renderFrom s done row).failure ∧
      Alike (r.renderFrom s done row).outputs (r.renderFrom s done' row).outputs := by
  induction row generalizing done done' with
  | nil => exact ⟨rfl, h⟩
  | cons e rest ih =>
      obtain ⟨name, template⟩ := e
      have hstage' : r.stage s done' name template = r.stage s done name template :=
        stage_congr r s fun _ _ key _ => h.findValue?_eq key
      cases hstage : r.stage s done name template with
      | error f =>
          obtain ⟨heq, hf⟩ := renderFrom_cons_of_error hstage rest
          obtain ⟨heq', hf'⟩ := renderFrom_cons_of_error (hstage'.trans hstage) rest
          rw [heq, heq', hf, hf']
          exact ⟨rfl, h⟩
      | ok value =>
          obtain ⟨heq, hf⟩ := renderFrom_cons_of_ok hstage rest
          obtain ⟨heq', hf'⟩ := renderFrom_cons_of_ok (hstage'.trans hstage) rest
          obtain ⟨hname, hrest⟩ := OrderedMap.nodup_insert hnodup value
          rw [heq, heq', hf, hf']
          exact ih (h.insert hname value) hrest

/-- Where all templates have a value, they still have one when two neighbours have
changed places, and what they come to is alike. -/
theorem Renders.exists_exchanged {templates : OrderedMap String}
    (hsplit : templates.entries = front ++ a :: b :: back) (ha : Unaware b.1 a)
    (hb : Unaware a.1 b) (h : r.Renders s ∅ (front ++ a :: b :: back) all) :
    ∃ all', r.Renders s ∅ (front ++ b :: a :: back) all' ∧ Alike all all' := by
  obtain ⟨middle, hfront, hrest⟩ := renders_append_iff.mp h
  obtain ⟨x, hx, hrest⟩ := renders_cons_iff.mp hrest
  obtain ⟨y, hy, hback⟩ := renders_cons_iff.mp hrest
  have hnodup : (middle.keys ++ a.1 :: b.1 :: back.map Prod.fst).Nodup := hfront.nodup_keys hsplit
  obtain ⟨hkey, hrest⟩ := OrderedMap.nodup_insert hnodup x
  obtain ⟨-, hlater⟩ := OrderedMap.nodup_insert hrest y
  have hkey' : b.1 ∉ middle.keys := fun hmem =>
    (List.nodup_append.mp hnodup).2.2 _ hmem b.1 (by simp) rfl
  have hy' : r.stage s middle b.1 b.2 = .ok y :=
    (stage_of_extends r s (OrderedMap.extends_insert hkey x) hb).symm.trans hy
  have hx' : r.stage s (middle.insert b.1 y) a.1 a.2 = .ok x :=
    (stage_of_extends r s (OrderedMap.extends_insert hkey' y) ha).trans hx
  obtain ⟨hfailure, halike⟩ :=
    renderFrom_of_alike r s (Template.alike_insert_insert hb.name hkey hkey' x y) hlater
  refine ⟨_, renders_append_iff.mpr ⟨middle, hfront, renders_cons_iff.mpr
    ⟨y, hy', renders_cons_iff.mpr ⟨x, hx', hfailure.trans hback.complete, rfl⟩⟩⟩, ?_⟩
  rwa [hback.outputs_eq] at halike

theorem render_alike {templates templates' : OrderedMap String}
    (hsplit : templates.entries = front ++ a :: b :: back)
    (hsplit' : templates'.entries = front ++ b :: a :: back) (ha : Unaware b.1 a)
    (hb : Unaware a.1 b) (hcomplete : (r.render templates s).failure = none) :
    (r.render templates' s).failure = none ∧
      Alike (r.render templates s).outputs (r.render templates' s).outputs := by
  have hwhole : r.Renders s ∅ (front ++ a :: b :: back) (r.render templates s).outputs :=
    hsplit ▸ ⟨hcomplete, rfl⟩
  obtain ⟨all', hall', halike⟩ := hwhole.exists_exchanged hsplit ha hb
  rw [← hsplit'] at hall'
  exact ⟨hall'.complete, hall'.outputs_eq ▸ halike⟩

/-- Two neighbours can change places if their names differ in more than the case of
letters and neither template refers to the other output. Rendering then succeeds in
the same cases, and every output has the same value. -/
theorem render_exchanged {templates templates' : OrderedMap String}
    (hsplit : templates.entries = front ++ a :: b :: back)
    (hsplit' : templates'.entries = front ++ b :: a :: back) (ha : Unaware b.1 a)
    (hb : Unaware a.1 b) (r : Renderer) (s : Scope) (keep : Bool) :
    ((∃ outputs, ((r.render templates s).toRun keep).outcome = .ok outputs) ↔
      ∃ outputs, ((r.render templates' s).toRun keep).outcome = .ok outputs) ∧
    ∀ outputs outputs', ((r.render templates s).toRun keep).outcome = .ok outputs →
      ((r.render templates' s).toRun keep).outcome = .ok outputs' →
        ∀ name, outputs'.get? name = outputs.get? name := by
  simp only [Rendering.outcome_toRun_eq_ok_iff]
  refine ⟨⟨?_, ?_⟩, ?_⟩
  · rintro ⟨-, hcomplete, -⟩
    exact ⟨_, (render_alike hsplit hsplit' ha hb hcomplete).1, rfl⟩
  · rintro ⟨-, hcomplete, -⟩
    exact ⟨_, (render_alike hsplit' hsplit hb ha hcomplete).1, rfl⟩
  · rintro _ _ ⟨hcomplete, rfl⟩ ⟨-, rfl⟩ name
    have halike := (render_alike hsplit hsplit' ha hb hcomplete).2
    exact OrderedMap.get?_of_perm (halike.perm.filter _) name

/-- A later output refers to both neighbours, and one of them has a stand-in. -/
theorem render_exchanged_later :
    let core := ("Core", "<base>.2")
    let label := ("Label", "<gone>")
    let full := ("Full", "<CORE>-<label>")
    let templates : OrderedMap String := .ofList [("Base", "7"), core, label, full]
    let templates' : OrderedMap String := .ofList [("Base", "7"), label, core, full]
    Unaware "Label" core ∧ Unaware "Core" label ∧
      ∃ outputs outputs', ((render ⟨false, []⟩ templates {}).toRun false).outcome = .ok outputs ∧
        ((render ⟨false, []⟩ templates' {}).toRun false).outcome = .ok outputs' ∧
        outputs.get? "Full" = some "7.2-<gone>" ∧ outputs'.get? "Full" = some "7.2-<gone>" := by
  intro core label full templates templates'
  have hcore : Template.read "<base>.2" = .ok [Template.bare "base", .plain ".2"] := by rfl
  have hlabel : Template.read "<gone>" = .ok [Template.bare "gone"] := by rfl
  have ha : Unaware "Label" core := by
    refine ⟨by decide, fun nodes hnodes key hkey => ?_⟩
    obtain rfl := Except.ok.inj (hcore.symm.trans hnodes)
    obtain rfl : key = "base" := List.mem_singleton.mp hkey
    decide
  have hb : Unaware "Core" label := by
    refine ⟨by decide, fun nodes hnodes key hkey => ?_⟩
    obtain rfl := Except.ok.inj (hlabel.symm.trans hnodes)
    obtain rfl : key = "gone" := List.mem_singleton.mp hkey
    decide
  have hrun : ((render ⟨false, []⟩ templates {}).toRun false).outcome = .ok (.ofList
      [("Base", "7"), ("Core", "7.2"), ("Label", "<gone>"), ("Full", "7.2-<gone>")]) := by
    decide +kernel
  have hsplit : templates.entries = [("Base", "7")] ++ core :: label :: [full] := rfl
  have hsplit' : templates'.entries = [("Base", "7")] ++ label :: core :: [full] := rfl
  obtain ⟨hsuccess, hvalues⟩ := render_exchanged hsplit hsplit' ha hb ⟨false, []⟩ {} false
  obtain ⟨outputs', houtputs'⟩ := hsuccess.mp ⟨_, hrun⟩
  exact ⟨ha, hb, _, outputs', hrun, houtputs', rfl, hvalues _ _ hrun houtputs' "Full"⟩

end Renderer

end VersionTrail.Output
