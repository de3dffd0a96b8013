/-
# Changes one after the other

Parameters are changed in four ways: a name is given a value, whether it is there or
not; a new name is added; captures are added; an action is applied. A change that
fails may have done a part of its work, and others go on from there. In whatever
order this is done, no parameter is removed or moved, so each of them stays where it
was first added.

One step: the names that are there stay in front. The run follows by induction over
the changes.
-/
import VersionTrail.Proofs.Bump.Exactness
import VersionTrail.Proofs.Bump.Replay

namespace VersionTrail

open VersionTrail.Text

/-- The number in an action. -/
def Action.amount : Action → Int
  | .set n => n
  | .add n => n

/-- A change of the parameters. The number in an action has 64 bits. -/
inductive Change where
  | set (name value : String)
  | insertNew (name value : String)
  | extendNew (captures : List (String × String))
  | bump (name : String) (a : Action) (hfits : fits a.amount = true)

namespace Parameters

/-- What a step leaves that either gives new parameters or fails before it has written
any. -/
def orUnchanged (ps : Parameters) : Except Failure Parameters → Parameters × Option Failure
  | .ok next => (next, none)
  | .error f => (ps, some f)

/-- Carries out a change, as far as it goes. -/
def change (ps : Parameters) : Change → Parameters × Option Failure
  | .set name value => (ps.insert name value, none)
  | .insertNew name value => ps.orUnchanged (insertNew ps name value)
  | .extendNew captures => extendNew ps captures
  | .bump name a _ => ps.orUnchanged (a.apply ps name)

/-- The parameters behind changes, successful or not. -/
def after (ps : Parameters) (changes : List Change) : Parameters :=
  changes.foldl (fun now c => (change now c).1) ps

/-- All values that are there stay. -/
def Keeps (ps next : Parameters) : Prop :=
  ∀ name value, ps.get? name = some value → next.get? name = some value

/-- One name has a value and all others are as they were. A new name is last. -/
structure Writes (name value : String) (ps next : Parameters) : Prop where
  keys : next.keys = if name ∈ ps.keys then ps.keys else ps.keys ++ [name]
  get? : ∀ other, next.get? other = if name = other then some value else ps.get? other

/-- What adding captures comes to: all of them are added, or those in front of the
first one whose name is taken. -/
structure AddsCaptures (captures : List (String × String)) (ps next : Parameters)
    (failure : Option Failure) : Prop where
  keeps : Keeps ps next
  succeeds : failure = none ↔
    (captures.map Prod.fst).Nodup ∧ ∀ e ∈ captures, e.1 ∉ ps.keys
  all : failure = none → next.entries = ps.entries ++ captures
  stopped : ∀ f, failure = some f → ∃ front name value back,
    captures = front ++ (name, value) :: back ∧
    (front.map Prod.fst).Nodup ∧ (∀ e ∈ front, e.1 ∉ ps.keys) ∧
    (name ∈ ps.keys ∨ name ∈ front.map Prod.fst) ∧
    f = .config (.capturedTwice name) ∧ next.entries = ps.entries ++ front

end Parameters

open VersionTrail.Parameters (Keeps Writes AddsCaptures)

/-- The parameters and the failure that a change comes to. -/
def Change.ComesTo (ps : Parameters) : Change → Parameters → Option Failure → Prop
  | .set name value, next, failure => failure = none ∧ Writes name value ps next
  | .insertNew name value, next, failure =>
    Keeps ps next ∧
      ((name ∉ ps.keys ∧ failure = none ∧ next.entries = ps.entries ++ [(name, value)]) ∨
        name ∈ ps.keys ∧ failure = some (.config (.capturedTwice name)) ∧ next = ps)
  | .extendNew captures, next, failure => AddsCaptures captures ps next failure
  | .bump name a _, next, failure =>
    (∃ n, a.next (ps.number? name) = some n ∧ fits n = true ∧ failure = none ∧
      Writes name (toString n) ps next ∧ next.int? name = .ok (some n)) ∨
    (∀ n, a.next (ps.number? name) = some n → fits n = false) ∧
      (∃ fault, failure = some (.numeric fault)) ∧ next = ps

namespace Parameters

variable {ps : Parameters} {name value : String}

theorem writes_insert (ps : Parameters) (name value : String) :
    Writes name value ps (ps.insert name value) where
  keys := by simp
  get? := by simp

theorem keeps_of_append {next : Parameters} {more : List (String × String)}
    (hentries : next.entries = ps.entries ++ more) : Keeps ps next := by
  intro name value hget
  rw [OrderedMap.get?_eq_some_iff] at hget ⊢
  rw [hentries]
  exact List.mem_append_left more hget

theorem int?_insert {n : Int} (hfits : fits n = true) (ps : Parameters) (name : String) :
    int? (ps.insert name (toString n)) name = .ok (some n) := by
  simp only [int?, OrderedMap.get?_insert, if_true, isEmpty_trim, isBlankText_toString hfits,
    Bool.false_eq_true, if_false]
  rw [trim_toString, readInt?_toString hfits]

theorem comesTo_insertNew (ps : Parameters) (name value : String) :
    (Change.insertNew name value).ComesTo ps (ps.orUnchanged (insertNew ps name value)).1
      (ps.orUnchanged (insertNew ps name value)).2 := by
  rcases insertNew_cases ps name value with ⟨hname, hinsert⟩ | ⟨hname, hinsert⟩
  · have hentries := OrderedMap.entries_insert_of_notMem value hname
    rw [hinsert]
    exact ⟨keeps_of_append hentries, Or.inl ⟨hname, rfl, hentries⟩⟩
  · rw [hinsert]
    exact ⟨fun _ _ hget => hget, Or.inr ⟨hname, rfl, rfl⟩⟩

/-- Parameters with entries behind them have distinct names where the new names are
distinct and new. -/
theorem nodup_append_iff (ps : Parameters) (more : List (String × String)) :
    ((ps.entries ++ more).map Prod.fst).Nodup ↔
      (more.map Prod.fst).Nodup ∧ ∀ e ∈ more, e.1 ∉ ps.keys := by
  rw [List.map_append, List.nodup_append]
  constructor
  · rintro ⟨-, hmore, hdisjoint⟩
    exact ⟨hmore, fun e he hkey => hdisjoint e.1 hkey e.1 (List.mem_map_of_mem he) rfl⟩
  · rintro ⟨hmore, hnew⟩
    refine ⟨ps.nodup, hmore, fun key hkey other hother => ?_⟩
    obtain ⟨e, he, rfl⟩ := List.mem_map.mp hother
    rintro rfl
    exact hnew e he hkey

theorem comesTo_extendNew (ps : Parameters) (captures : List (String × String)) :
    (Change.extendNew captures).ComesTo ps (extendNew ps captures).1
      (extendNew ps captures).2 := by
  rcases extendNew_cases ps captures with ⟨all, hall, hentries⟩ |
    ⟨front, name, value, back, stopped, rfl, hstopped, hentries, hname⟩
  · have hnodup := all.nodup
    rw [hentries, nodup_append_iff] at hnodup
    rw [hall]
    refine ⟨keeps_of_append hentries, iff_of_true rfl hnodup, fun _ => hentries, ?_⟩
    intro f hf
    cases hf
  · have hnodup := stopped.nodup
    rw [hentries, nodup_append_iff] at hnodup
    rw [OrderedMap.keys, hentries, List.map_append, List.mem_append] at hname
    rw [hstopped]
    refine ⟨keeps_of_append hentries, iff_of_false (Option.some_ne_none _) ?_,
      fun hnone => absurd hnone (Option.some_ne_none _), ?_⟩
    · rintro ⟨hdistinct, hnew⟩
      rcases hname with htaken | hearlier
      · exact hnew (name, value) (by simp) htaken
      · rw [List.map_append, List.nodup_append] at hdistinct
        exact hdistinct.2.2 name hearlier name (by simp) rfl
    · rintro f ⟨⟩
      exact ⟨front, name, value, back, rfl, hnodup.1, hnodup.2, hname, rfl, hentries⟩

theorem comesTo_bump (ps : Parameters) (name : String) {a : Action}
    (hfits : fits a.amount = true) :
    (Change.bump name a hfits).ComesTo ps (ps.orUnchanged (a.apply ps name)).1
      (ps.orUnchanged (a.apply ps name)).2 := by
  have hset : ∀ n, a = .set n → fits n = true := by
    rintro n rfl
    exact hfits
  cases happly : a.apply ps name with
  | ok next =>
      obtain ⟨n, hn, hnfits, rfl⟩ := (Action.apply_eq_ok_iff_of_fits hset).mp happly
      exact Or.inl ⟨n, hn, hnfits, rfl, writes_insert ps name _, int?_insert hnfits ps name⟩
  | error f =>
      obtain ⟨fault, rfl⟩ := Action.numeric_of_apply happly
      refine Or.inr ⟨fun n hn => ?_, ⟨fault, rfl⟩, rfl⟩
      by_contra hnfits
      rw [Bool.not_eq_false] at hnfits
      have hok := (Action.apply_eq_ok_iff_of_fits hset).mpr ⟨n, hn, hnfits, rfl⟩
      rw [happly] at hok
      contradiction

theorem comesTo_change (ps : Parameters) (c : Change) :
    c.ComesTo ps (ps.change c).1 (ps.change c).2 := by
  cases c with
  | set name value => exact ⟨rfl, writes_insert ps name value⟩
  | insertNew name value => exact comesTo_insertNew ps name value
  | extendNew captures => exact comesTo_extendNew ps captures
  | bump name a hfits => exact comesTo_bump ps name hfits

theorem keys_prefix_of_writes {next : Parameters} (h : Writes name value ps next) :
    ps.keys <+: next.keys := by
  rw [h.keys]
  split
  · exact List.prefix_rfl
  · exact List.prefix_append ps.keys [name]

theorem keys_prefix_of_append {next : Parameters} {more : List (String × String)}
    (hentries : next.entries = ps.entries ++ more) : ps.keys <+: next.keys := by
  rw [OrderedMap.keys, OrderedMap.keys, hentries, List.map_append]
  exact List.prefix_append _ _

/-- A change leaves the names in front that are there. -/
theorem keys_prefix_of_comesTo {c : Change} {next : Parameters} {failure : Option Failure}
    (h : c.ComesTo ps next failure) : ps.keys <+: next.keys := by
  cases c with
  | set name value => exact keys_prefix_of_writes h.2
  | insertNew name value =>
      rcases h.2 with ⟨-, -, hentries⟩ | ⟨-, -, rfl⟩
      · exact keys_prefix_of_append hentries
      · exact List.prefix_rfl
  | extendNew captures =>
      cases failure with
      | none => exact keys_prefix_of_append (h.all rfl)
      | some f =>
          obtain ⟨front, -, -, -, -, -, -, -, -, hentries⟩ := h.stopped f rfl
          exact keys_prefix_of_append hentries
  | bump name a hfits =>
      rcases h with ⟨n, -, -, -, hwrites, -⟩ | ⟨-, -, rfl⟩
      · exact keys_prefix_of_writes hwrites
      · exact List.prefix_rfl

theorem keys_prefix_after (ps : Parameters) (changes : List Change) :
    ps.keys <+: (ps.after changes).keys := by
  induction changes generalizing ps with
  | nil => exact List.prefix_rfl
  | cons c changes ih =>
      exact (keys_prefix_of_comesTo (comesTo_change ps c)).trans (ih (ps.change c).1)

/-- Whatever changes were carried out and whichever follow, names are distinct and
each stays in its place, and the next change comes to what is said of it. -/
theorem after_keeps_places (ps : Parameters) (changes later : List Change) (c : Change) :
    (ps.after changes).keys.Nodup ∧
      (∀ (i : Nat) name, (ps.after changes).keys[i]? = some name →
        (ps.after (changes ++ later)).keys[i]? = some name) ∧
      c.ComesTo (ps.after changes) ((ps.after changes).change c).1
        ((ps.after changes).change c).2 := by
  refine ⟨(ps.after changes).nodup, fun i name hname => ?_, comesTo_change _ c⟩
  obtain ⟨more, hmore⟩ := keys_prefix_after (ps.after changes) later
  have hfollows : ps.after (changes ++ later) = (ps.after changes).after later :=
    List.foldl_append
  obtain ⟨hi, -⟩ := List.getElem?_eq_some_iff.mp hname
  rw [hfollows, ← hmore, List.getElem?_append_left hi, hname]

end Parameters

end VersionTrail
