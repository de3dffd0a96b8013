/-
# Dates in what templates see

The dates of commits and the present time are shown in the configured format
before any template is rendered. A checked configuration has a valid format, and
that is enough for all of them with one exception: a format that asks for the
offset in any notation shows no date, so no analysis gets to its templates. A date
in the format that is set by default is one that templates can show in another.
-/
import VersionTrail.Analysis
import VersionTrail.Proofs.Calendar.ReadingBack
import VersionTrail.Proofs.Calendar.Showing
import VersionTrail.Proofs.Config.Validation
import VersionTrail.Proofs.Run

namespace VersionTrail

open VersionTrail.Calendar (Moment AsksForAnyOffset isValidFormat readMoment?)
open VersionTrail.Template (Scope)

theorem dateField_eq_error_iff {format : String} {m : Moment} {f : Failure} :
    dateField format m = .error f ↔
      ∃ fault, m.format format = .error fault ∧ f = .config (.dateFormat fault) := by
  unfold dateField
  cases m.format format <;> simp [eq_comm]

@[simp]
theorem dateField_eq_ok_iff {format text : String} {m : Moment} :
    dateField format m = .ok text ↔ m.format format = .ok text := by
  unfold dateField
  cases m.format format <;> simp

theorem commitFields_of_dateField {format text : String} {c : Commit}
    (htext : dateField format c.date = .ok text) :
    ∃ fields, commitFields format c = .ok fields ∧ ("Date", text) ∈ fields := by
  refine ⟨_, bind_ok_eq htext _, ?_⟩
  simp

/-- A text that is read as a date is shown like the date. -/
theorem call_dateTime_of_readMoment? {text : String} {m : Moment}
    (hread : readMoment? text = some m) (s : Scope) (format : String) :
    Template.call s "DateTime" [text, format] = (m.format format).mapError .format := by
  show Template.dateText text format = _
  rw [Template.dateText, hread]

/-- The date of a commit, in seconds and with an offset of whole minutes, is shown by
default in a notation that is read back as the same moment with the same offset, where
its year has at most four digits. So templates can show it as if they had the date
itself, and showing it in the default format changes nothing. -/
theorem dateTime_of_default_format {seconds minutes : Int}
    (hoffset : -1440 < minutes ∧ minutes < 1440)
    (hyear : 0 ≤ (Moment.mk seconds 0 (minutes * 60)).date.year ∧
      (Moment.mk seconds 0 (minutes * 60)).date.year ≤ 9999) :
    let m := Moment.mk seconds 0 (minutes * 60)
    let default := ({} : OutputSettings).dateFormat
    Moment.ofSeconds? seconds (minutes * 60) = some m ∧
    ∃ text, m.format default = .ok text ∧ readMoment? text = some m ∧
      (∀ c : Commit, c.date = m →
        ∃ fields, commitFields default c = .ok fields ∧ ("Date", text) ∈ fields) ∧
      ∀ s : Scope,
        (∀ format, Template.call s "DateTime" [text, format] =
          (m.format format).mapError .format) ∧
        Template.call s "DateTime" [text, default] = .ok text := by
  intro m default
  have hseconds : Moment.ofSeconds? seconds (minutes * 60) = some m :=
    Moment.ofSeconds?_eq_some (m := m) rfl (by dsimp only [m]; omega)
      ⟨Int.lt_of_lt_of_le (by decide) hyear.1, Int.lt_of_le_of_lt hyear.2 (by decide)⟩
  have hshown : m.format default = .ok (Calendar.text3339 m) :=
    Moment.format_rfc3339 rfl hyear
  have hread : readMoment? (Calendar.text3339 m) = some m :=
    Moment.readMoment?_text3339 rfl hyear hoffset rfl
  refine ⟨hseconds, _, hshown, hread, fun c hc => ?_, fun s => ?_⟩
  · exact commitFields_of_dateField (dateField_eq_ok_iff.mpr (hc ▸ hshown))
  · have hcall := call_dateTime_of_readMoment? hread s
    refine ⟨hcall, ?_⟩
    rw [hcall, hshown]
    rfl

/-- The year one starts at universal time, two and a half hours before it starts at the
offset. -/
theorem dateTime_of_default_format_lastDay :
    let m := Moment.mk (-62135593200) 0 (-150 * 60)
    (-1440 < (-150 : Int) ∧ (-150 : Int) < 1440) ∧ (0 ≤ m.date.year ∧ m.date.year ≤ 9999) ∧
      readMoment? "0000-12-31T22:30:00-02:30" = some m ∧
      ∀ s, Template.call s "DateTime" ["0000-12-31T22:30:00-02:30", "%j: %A"] =
        .ok "366: Sunday" := by
  intro m
  have hoffset : -1440 < (-150 : Int) ∧ (-150 : Int) < 1440 := by decide
  have hyear : 0 ≤ m.date.year ∧ m.date.year ≤ 9999 := by decide
  obtain ⟨-, text, htext, hread, -, hcall⟩ := dateTime_of_default_format hoffset hyear
  have hshown : m.format ({} : OutputSettings).dateFormat = .ok "0000-12-31T22:30:00-02:30" := by
    decide +kernel
  obtain rfl := Except.ok.inj (hshown.symm.trans htext)
  have hformat : m.format "%j: %A" = .ok "366: Sunday" := by decide +kernel
  refine ⟨hoffset, hyear, hread, fun s => ?_⟩
  rw [(hcall s).1, hformat]
  rfl

namespace Analyzer

variable {a : Analyzer}

/-- Where every date can be shown, everything that templates see is there. -/
theorem exists_scope_of_dates
    (hdates : ∀ m, ∃ text, dateField a.config.output.dateFormat m = .ok text) (r : Resolved) :
    ∃ s : Scope, a.scope r = .ok s ∧ s.parameters = r.parameters := by
  have hfields (c : Commit) :
      ∃ fields, commitFields a.config.output.dateFormat c = .ok fields := by
    obtain ⟨text, htext⟩ := hdates c.date
    exact ⟨_, bind_ok_eq htext _⟩
  have hhead : ∃ fields,
      headFields a.config.output.dateFormat r.resolution.visits = .ok fields := by
    unfold headFields
    cases r.resolution.visits.head? with
    | none => exact ⟨_, rfl⟩
    | some v => exact hfields v.commit
  obtain ⟨now, hnow⟩ := hdates a.now
  obtain ⟨head, hhead⟩ := hhead
  obtain ⟨source, hsource⟩ := hfields r.resolution.source.visit.commit
  simp [scope, hnow, hhead, hsource]

/-- The present time is shown first. -/
theorem scope_eq_error_of_now {f : Failure}
    (hnow : dateField a.config.output.dateFormat a.now = .error f) (r : Resolved) :
    a.scope r = .error f := by
  simp [scope, hnow]

/-- A valid format shows every moment, unless it asks for the offset in any
notation. With a checked configuration the format for dates is valid, so templates
get to see every repository, with that exception: then no moment is shown, and no
repository. -/
theorem scope_of_validate (hvalid : a.config.validate = .ok ()) :
    (∀ format, isValidFormat format = true → ∀ m : Moment,
      (∃ text, m.format format = .ok text) ↔ ¬ AsksForAnyOffset format) ∧
    isValidFormat a.config.output.dateFormat = true ∧
    ∀ r, ((∃ s, a.scope r = .ok s) ↔ ¬ AsksForAnyOffset a.config.output.dateFormat) ∧
      (AsksForAnyOffset a.config.output.dateFormat → a.scope r =
        .error (.config (.dateFormat (.inapplicable a.config.output.dateFormat a.now)))) := by
  have hformat := (Config.validate_eq_ok_iff.mp hvalid).2.1
  have hshows (m : Moment) := Calendar.format_of_isValidFormat hformat m
  have hfails (hasks : AsksForAnyOffset a.config.output.dateFormat) (r : Resolved) :
      a.scope r = .error (.config (.dateFormat (.inapplicable _ a.now))) :=
    scope_eq_error_of_now (dateField_eq_error_iff.mpr ⟨_, (hshows a.now).2 hasks, rfl⟩) r
  refine ⟨fun format hvalid m => (Calendar.format_of_isValidFormat hvalid m).1, hformat,
    fun r => ⟨⟨?_, fun hplain => ?_⟩, fun hasks => hfails hasks r⟩⟩
  · rintro ⟨s, hs⟩ hasks
    rw [hfails hasks r] at hs
    contradiction
  · have hdates (m : Moment) : ∃ text, dateField a.config.output.dateFormat m = .ok text := by
      obtain ⟨text, htext⟩ := (hshows m).1.mpr hplain
      exact ⟨text, dateField_eq_ok_iff.mpr htext⟩
    obtain ⟨s, hs, -⟩ := exists_scope_of_dates hdates r
    exact ⟨s, hs⟩

/-- A percent sign that is shown does not start a directive. -/
theorem scope_of_validate_percent :
    let rule : BranchRule :=
      { source := { tagMatch := { pattern := "v" }, mergeMatch := { endsPattern := "x" } } }
    let config : Config :=
      { output := { dateFormat := "%%#z" }, branches := .ofList [(fallbackRule, rule)] }
    config.validate = .ok () ∧ ¬ AsksForAnyOffset "%%#z" ∧
      ∀ r, ∃ s, Analyzer.scope { config } r = .ok s := by
  intro rule config
  obtain ⟨⟨⟩, hvalid⟩ := exists_ok_of_isOk (by decide +kernel : config.validate.isOk = true)
  obtain ⟨hshows, hformat, hscope⟩ := scope_of_validate (a := { config }) hvalid
  have hplain : ¬ AsksForAnyOffset "%%#z" := (hshows _ hformat default).mp ⟨"%#z", by decide⟩
  exact ⟨hvalid, hplain, fun r => (hscope r).1.mpr hplain⟩

/-- A configuration passes with a format in which no repository can be shown. -/
theorem not_scope_of_anyOffset :
    let rule : BranchRule :=
      { source := { tagMatch := { pattern := "v" }, mergeMatch := { endsPattern := "x" } } }
    let config : Config :=
      { output := { dateFormat := "%#z" }, branches := .ofList [(fallbackRule, rule)] }
    config.validate = .ok () ∧ ∀ r, ¬ ∃ s, Analyzer.scope { config } r = .ok s := by
  intro rule config
  obtain ⟨⟨⟩, hvalid⟩ := exists_ok_of_isOk (by decide +kernel : config.validate.isOk = true)
  refine ⟨hvalid, fun r => ?_⟩
  have hnow : dateField "%#z" default =
      .error (.config (.dateFormat (.inapplicable "%#z" default))) := by decide
  rw [scope_eq_error_of_now (a := { config }) hnow r]
  rintro ⟨s, hs⟩
  contradiction

end Analyzer

end VersionTrail
