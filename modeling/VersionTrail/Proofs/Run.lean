/-
# Steps of a run

A step that succeeds hands its result on, and its warnings stand in front of
those that follow. A step that fails ends the run. Steps that cannot warn take
part as results.
-/
import VersionTrail.Failure

namespace VersionTrail

variable {ε α β : Type}

@[simp]
theorem ok_bind (a : α) (next : α → Except ε β) : (Except.ok a >>= next) = next a :=
  rfl

@[simp]
theorem error_bind (f : ε) (next : α → Except ε β) : (Except.error f >>= next) = .error f :=
  rfl

@[simp]
theorem map_ok (g : α → β) (a : α) : (Except.ok a : Except ε α).map g = .ok (g a) :=
  rfl

@[simp]
theorem map_error (g : α → β) (f : ε) : (Except.error f : Except ε α).map g = .error f :=
  rfl

@[simp]
theorem mapError_ok (g : ε → β) (a : α) : (Except.ok a : Except ε α).mapError g = .ok a :=
  rfl

@[simp]
theorem mapError_error (g : ε → β) (f : ε) :
    (Except.error f : Except ε α).mapError g = .error (g f) :=
  rfl

theorem bind_error_eq {x : Except ε α} {f : ε} (hx : x = .error f) (next : α → Except ε β) :
    (x >>= next) = .error f := by
  rw [hx]
  rfl

theorem bind_ok_eq {x : Except ε α} {a : α} (hx : x = .ok a) (next : α → Except ε β) :
    (x >>= next) = next a := by
  rw [hx]
  rfl

/-- A computation succeeds when its first step does and the others do with its
result. -/
theorem bind_eq_ok_iff {x : Except ε α} {next : α → Except ε β} {b : β} :
    (x >>= next) = .ok b ↔ ∃ a, x = .ok a ∧ next a = .ok b := by
  constructor
  · intro h
    cases hx : x with
    | error f => rw [bind_error_eq hx] at h; contradiction
    | ok a => exact ⟨a, rfl, (bind_ok_eq hx next).symm.trans h⟩
  · rintro ⟨a, hx, h⟩
    rw [bind_ok_eq hx, h]

/-- A computation fails in its first step or in the others. -/
theorem bind_eq_error_iff {x : Except ε α} {next : α → Except ε β} {f : ε} :
    (x >>= next) = .error f ↔ x = .error f ∨ ∃ a, x = .ok a ∧ next a = .error f := by
  constructor
  · intro h
    cases hx : x with
    | error g =>
        rw [bind_error_eq hx] at h
        exact Or.inl (congrArg Except.error (Except.error.inj h))
    | ok a => exact Or.inr ⟨a, rfl, (bind_ok_eq hx next).symm.trans h⟩
  · rintro (hx | ⟨a, hx, h⟩)
    · exact bind_error_eq hx next
    · rw [bind_ok_eq hx, h]

theorem exists_ok_of_isOk {x : Except ε α} (hx : x.isOk = true) : ∃ a, x = .ok a := by
  cases x with
  | error f => contradiction
  | ok a => exact ⟨a, rfl⟩

/-- A test that a result passes is passed by one that is there. -/
theorem exists_ok_of_any {x : Except ε α} {test : α → Bool} (hx : x.toOption.any test = true) :
    ∃ a, x = .ok a ∧ test a = true := by
  cases x with
  | error f => contradiction
  | ok a => exact ⟨a, rfl, hx⟩

/-- Two outcomes with the same first parts are the same if their second parts are. -/
theorem eq_of_map_fst_eq {x y : Except ε (α × β)}
    (hfst : x.map Prod.fst = y.map Prod.fst)
    (hsnd : ∀ p q, x = .ok p → y = .ok q → p.2 = q.2) : x = y := by
  cases x with
  | error f =>
      cases y with
      | error g => exact congrArg Except.error (Except.error.inj hfst)
      | ok q => contradiction
  | ok p =>
      cases y with
      | error g => contradiction
      | ok q => rw [Prod.ext (Except.ok.inj hfst) (hsnd p q rfl rfl)]

namespace Run

/-- A run goes on with the result of its first part. -/
theorem bind_of_ok {r : Run α} {a : α} (hr : r.outcome = .ok a) (next : α → Run β) :
    (r >>= next) = ⟨r.warnings ++ (next a).warnings, (next a).outcome⟩ := by
  show r.andThen next = _
  rw [andThen, hr]

theorem bind_of_error {r : Run α} {f : Failure} (hr : r.outcome = .error f) (next : α → Run β) :
    (r >>= next) = ⟨r.warnings, .error f⟩ := by
  show r.andThen next = _
  rw [andThen, hr]

@[simp]
theorem mk_ok_bind (warnings : List Warning) (a : α) (next : α → Run β) :
    ((⟨warnings, .ok a⟩ : Run α) >>= next) =
      ⟨warnings ++ (next a).warnings, (next a).outcome⟩ :=
  rfl

@[simp]
theorem mk_error_bind (warnings : List Warning) (f : Failure) (next : α → Run β) :
    ((⟨warnings, .error f⟩ : Run α) >>= next) = ⟨warnings, .error f⟩ :=
  rfl

@[simp]
theorem liftM_ok_bind (a : α) (next : α → Run β) :
    ((liftM (Except.ok a : Except Failure α) : Run α) >>= next) = next a :=
  rfl

@[simp]
theorem liftM_error_bind (f : Failure) (next : α → Run β) :
    ((liftM (Except.error f : Except Failure α) : Run α) >>= next) = ⟨[], .error f⟩ :=
  rfl

/-- A result takes part in a run without a trace. -/
theorem liftM_bind_of_ok {x : Except Failure α} {a : α} (hx : x = .ok a) (next : α → Run β) :
    ((liftM x : Run α) >>= next) = next a := by
  subst hx
  rfl

@[simp]
theorem outcome_liftM (x : Except Failure α) : (liftM x : Run α).outcome = x :=
  rfl

/-- A run succeeds when its first part does and what goes on with its result. -/
theorem outcome_bind_eq_ok_iff {r : Run α} {next : α → Run β} {b : β} :
    (r >>= next).outcome = .ok b ↔ ∃ a, r.outcome = .ok a ∧ (next a).outcome = .ok b := by
  cases hr : r.outcome with
  | error g => simp [bind_of_error hr]
  | ok a => simp [bind_of_ok hr]

/-- A run fails in its first part or in what goes on with its result. -/
theorem outcome_bind_eq_error_iff {r : Run α} {next : α → Run β} {f : Failure} :
    (r >>= next).outcome = .error f ↔
      r.outcome = .error f ∨ ∃ a, r.outcome = .ok a ∧ (next a).outcome = .error f := by
  cases hr : r.outcome with
  | error g => simp [bind_of_error hr]
  | ok a => simp [bind_of_ok hr]

end Run

end VersionTrail
