/-
# Exact arithmetic in templates

The four operations take integers of 64 bits, as their texts spell them, and have
a value exactly where the exact result has 64 bits too. The value is the decimal
text of the result, so it is an argument for the next operation with nothing lost
on the way. All that goes wrong is a fault of numbers: an argument that spells no
integer, a division by zero, or a result that does not fit.
-/
import VersionTrail.Template.Call
import VersionTrail.Proofs.Run
import VersionTrail.Proofs.Text.Numeral

namespace VersionTrail.Template

open VersionTrail.Text

section Arguments

variable (b : Builtin) (place : Place) {arg : String} {n : Int}

theorem intArg_eq_ok_iff : intArg b place arg = .ok n ↔ Spells arg n := by
  rw [← readInt?_trim_eq_some_iff, intArg]
  cases readInt? (trim arg) <;> simp

theorem intArg_eq_error_iff {fault : CallFault} :
    intArg b place arg = .error fault ↔
      (∀ n, ¬ Spells arg n) ∧ fault = .notInteger b place arg := by
  simp only [← readInt?_trim_eq_some_iff, intArg]
  cases readInt? (trim arg) <;> simp [eq_comm]

end Arguments

namespace Arithmetic

variable {op : Arithmetic} {m n k : Int}

/-- The exact results. A quotient is rounded toward zero, and no quotient by zero
exists. -/
inductive Computes (m n : Int) : Arithmetic → Int → Prop where
  | add : Computes m n .add (m + n)
  | sub : Computes m n .sub (m - n)
  | mul : Computes m n .mul (m * n)
  | div (hn : n ≠ 0) : Computes m n .div (m.tdiv n)

theorem computes_iff : Computes m n op k ↔ ¬ (op = .div ∧ n = 0) ∧ op.exact m n = k := by
  constructor
  · intro h
    cases h with
    | add | sub | mul => exact ⟨by simp, rfl⟩
    | div hn => exact ⟨fun h => hn h.2, rfl⟩
  · rintro ⟨hdivides, rfl⟩
    cases op with
    | add => exact .add
    | sub => exact .sub
    | mul => exact .mul
    | div => exact .div fun hn => hdivides ⟨rfl, hn⟩

/-- An operation applies where its exact result fits. -/
theorem apply_eq_ok_iff {value : String} :
    op.apply m n = .ok value ↔ ∃ k, Computes m n op k ∧ fits k = true ∧ toString k = value := by
  simp only [computes_iff, apply]
  split
  next hdivides => simp [hdivides]
  next hdivides =>
    split
    next hfits => simp [hdivides, hfits]
    next hfits => simp [hdivides, hfits]

theorem isNumeric_of_apply {fault : CallFault} (hfault : op.apply m n = .error fault) :
    fault.isNumeric = true := by
  rw [apply] at hfault
  split at hfault
  · obtain rfl := Except.error.inj hfault
    rfl
  · split at hfault
    · contradiction
    · obtain rfl := Except.error.inj hfault
      rfl

/-- Whether an operation on two texts comes to an integer: both spell integers of
64 bits, and their exact result is one as well. -/
def Yields (op : Arithmetic) (x y : String) (k : Int) : Prop :=
  ∃ m n, Spells x m ∧ Spells y n ∧ Computes m n op k ∧ -2 ^ 63 ≤ k ∧ k ≤ 2 ^ 63 - 1

variable {x y : String}

theorem call_arithmetic (s : Scope) (op : Arithmetic) (x y : String) :
    call s (Builtin.arithmetic op).title [x, y] =
      intArg (.arithmetic op) .first x >>= fun m =>
        intArg (.arithmetic op) .second y >>= fun n => op.apply m n :=
  call_title s (.arithmetic op) [x, y]

/-- A call has the decimal text of the exact result as its value. -/
theorem call_eq_ok_iff (s : Scope) (op : Arithmetic) {value : String} :
    call s (Builtin.arithmetic op).title [x, y] = .ok value ↔
      ∃ k, op.Yields x y k ∧ value = toString k := by
  simp only [call_arithmetic, bind_eq_ok_iff, intArg_eq_ok_iff, apply_eq_ok_iff]
  constructor
  · rintro ⟨m, hx, n, hy, k, hk, hfits, rfl⟩
    exact ⟨k, ⟨m, n, hx, hy, hk, fits_iff.mp hfits⟩, rfl⟩
  · rintro ⟨k, ⟨m, n, hx, hy, hk, hfits⟩, rfl⟩
    exact ⟨m, hx, n, hy, k, hk, fits_iff.mpr hfits, rfl⟩

theorem isNumeric_of_call {s : Scope} {fault : CallFault}
    (hfault : call s (Builtin.arithmetic op).title [x, y] = .error fault) :
    fault.isNumeric = true := by
  rw [call_arithmetic, bind_eq_error_iff] at hfault
  rcases hfault with hx | ⟨m, -, hrest⟩
  · rw [((intArg_eq_error_iff _ _).mp hx).2]
    rfl
  · rcases bind_eq_error_iff.mp hrest with hy | ⟨n, -, happly⟩
    · rw [((intArg_eq_error_iff _ _).mp hy).2]
      rfl
    · exact isNumeric_of_apply happly

/-- A call without a result has a fault of numbers. -/
theorem exists_fault_of_not_yields (s : Scope) (hnone : ¬ ∃ k, op.Yields x y k) :
    ∃ fault, call s (Builtin.arithmetic op).title [x, y] = .error fault ∧
      fault.isNumeric = true := by
  cases hcall : call s (Builtin.arithmetic op).title [x, y] with
  | ok value =>
      obtain ⟨k, hyields, -⟩ := (call_eq_ok_iff s op).mp hcall
      exact absurd ⟨k, hyields⟩ hnone
  | error fault => exact ⟨fault, rfl, isNumeric_of_call hcall⟩

/-- A value spells the integer that it stands for, and no other one. -/
theorem Yields.spells_iff (h : op.Yields x y k) {n : Int} : Spells (toString k) n ↔ n = k := by
  obtain ⟨-, -, -, -, -, hfits⟩ := h
  have hspells : Spells (toString k) k := spells_toString (fits_iff.mpr hfits)
  constructor
  · intro hn
    exact hn.unique hspells
  · rintro rfl
    exact hspells

/-- What was taken away and is added again comes back. -/
theorem Yields.add_sub (h : Yields .sub x y k) :
    ∃ m, Spells x m ∧ Yields .add (toString k) y m := by
  obtain ⟨m, n, hx, hy, ⟨⟩, hfits⟩ := id h
  refine ⟨m, hx, m - n, n, h.spells_iff.mpr rfl, hy, ?_, hx.2⟩
  have hsum : Computes (m - n) n .add (m - n + n) := .add
  rwa [Int.sub_add_cancel] at hsum

end Arithmetic

/-- An operation on two texts has a value exactly where both spell integers of 64
bits and the exact result is one; the value is the decimal text of the result, and
spells it. Elsewhere there is a fault of numbers. So a difference to which the
subtrahend is added again is the decimal text of the minuend. -/
theorem arithmetic_exact (s : Scope) (x y : String) :
    (∀ op : Arithmetic,
      (∀ value, call s (Builtin.arithmetic op).title [x, y] = .ok value ↔
        ∃ k, op.Yields x y k ∧ value = toString k) ∧
      ((¬ ∃ k, op.Yields x y k) →
        ∃ fault, call s (Builtin.arithmetic op).title [x, y] = .error fault ∧
          fault.isNumeric = true) ∧
      ∀ k, op.Yields x y k → ∀ n, Spells (toString k) n ↔ n = k) ∧
    ∀ value, call s "Sub" [x, y] = .ok value →
      ∃ m, Spells x m ∧ call s "Add" [value, y] = .ok (toString m) := by
  constructor
  · intro op
    exact ⟨fun _ => Arithmetic.call_eq_ok_iff s op, Arithmetic.exists_fault_of_not_yields s,
      fun _ hyields _ => hyields.spells_iff⟩
  · intro value hvalue
    obtain ⟨k, hyields, rfl⟩ := (Arithmetic.call_eq_ok_iff s .sub).mp hvalue
    obtain ⟨m, hx, hsum⟩ := hyields.add_sub
    exact ⟨m, hx, (Arithmetic.call_eq_ok_iff s .add).mpr ⟨m, hsum, rfl⟩⟩

/-- The least integer of 64 bits, and minus one with a leading zero: their difference
has 64 bits and comes back, but their quotient has not. -/
theorem arithmetic_exact_least :
    let x := " -9223372036854775808"
    let y := "-01 "
    call {} "Sub" [x, y] = .ok "-9223372036854775807" ∧
      call {} "Add" ["-9223372036854775807", y] = .ok "-9223372036854775808" ∧
      ∃ fault, call {} "Div" [x, y] = .error fault ∧ fault.isNumeric = true := by
  intro x y
  obtain ⟨hcalls, hadd⟩ := arithmetic_exact {} x y
  have hx : Spells x (-2 ^ 63) := readInt?_trim_eq_some_iff.mp (by decide)
  have hy : Spells y (-1) := readInt?_trim_eq_some_iff.mp (by decide)
  have hsub : call {} "Sub" [x, y] = .ok "-9223372036854775807" :=
    ((hcalls .sub).1 _).mpr ⟨-2 ^ 63 - -1, ⟨_, _, hx, hy, .sub, by decide⟩, by decide⟩
  refine ⟨hsub, ?_, (hcalls .div).2.1 ?_⟩
  · obtain ⟨m, hm, hsum⟩ := hadd _ hsub
    obtain rfl := hm.unique hx
    exact hsum
  · rintro ⟨k, m, n, hm, hn, hk, hfits⟩
    obtain rfl := hm.unique hx
    obtain rfl := hn.unique hy
    cases hk
    exact absurd hfits (by decide)

end VersionTrail.Template
