/-
# Following a run

Where a pattern can match from the start of a text only, no thread that starts
inside a text gets anywhere, and a run inside a text is told by its threads
alone. Most steps are of one kind: a single thread takes the character, all
others refuse it, and the run goes on from where that thread leads. A loop that
takes characters of a class does so up to the last of them, and leaves at each of
them the threads that go on behind the loop.
-/
import VersionTrail.Pattern.Search

namespace VersionTrail.Pattern

/-- Whether a thread stands in front of a class without the character. -/
def Refuses (code : Code) (c : Char) (t : Thread) : Prop :=
  ∃ cls next, code.getD t.place .accept = .take cls next ∧ cls.holds c.toNat = false

namespace Program

variable (p : Program)

/-- The threads that a thread leads to where nothing was reached before, last
first. -/
def lead (at_ : Around) (position : Nat) (t : Thread) : List Thread :=
  ((Front.empty p.code.size).enter p.code at_ position t).threads

/-- Whether new threads get nowhere inside a text. -/
def Anchored : Prop :=
  ∀ (front : Front) (c : Char) (after : Option Char) (position : Nat) (slots : Slots),
    (front.enter p.code ⟨some c, after⟩ position ⟨p.entry, slots⟩).threads = front.threads

/-- The result of a run inside a text, where nothing has been accepted yet. -/
def run (position : Nat) (threads : List Thread) (cs : List Char) : Option Slots :=
  sweep p (some ' ') position ⟨Array.replicate p.code.size false, threads⟩ none cs

/-- The threads that start at the front of a text, last first. -/
def starts (c : Char) : List Thread :=
  ((Front.empty p.code.size).enter p.code ⟨none, some c⟩ 0
    ⟨p.entry, Array.replicate p.slots none⟩).threads

variable {p} {position : Nat} {c : Char} {cs : List Char} {t : Thread} {next : Nat}
variable {cls : CharClass}

/-- Neither the character in front nor what was reached before plays a part. -/
theorem Anchored.sweep_eq_run (hp : p.Anchored) (front : Front) (before : Char) :
    sweep p (some before) position front none cs = p.run position front.threads cs := by
  cases cs with
  | nil =>
      rw [run, sweep, sweep]
      simp only [Option.isNone_none, if_true, hp _ _ _ _ _]
  | cons c cs =>
      rw [run, sweep, sweep]
      simp only [Option.isNone_none, if_true, hp _ _ _ _ _]

theorem Anchored.search_cons (hp : p.Anchored) :
    p.search none 0 (c :: cs) = p.run 0 (p.starts c) (c :: cs) := by
  rw [search, run, sweep, sweep]
  simp only [Option.isNone_none, if_true, hp _ _ _ _ _]
  rfl

theorem advance_append_of_refuses {ts : List Thread} (hts : ∀ t ∈ ts, Refuses p.code c t)
    (at_ : Around) (rest : List Thread) (front : Front) (best : Option Slots) :
    advance p.code (some c) at_ position (ts ++ rest) front best =
      advance p.code (some c) at_ position rest front best := by
  induction ts with
  | nil => rfl
  | cons t ts ih =>
      obtain ⟨cls, next, htake, hrefuse⟩ := hts t List.mem_cons_self
      rw [List.cons_append, advance, htake]
      dsimp only
      rw [if_neg (by simp [hrefuse])]
      exact ih fun later hlater => hts later (List.mem_cons_of_mem _ hlater)

/-- Where one thread alone takes the character, a run goes on from where the
thread leads. -/
theorem Anchored.run_cons (hp : p.Anchored) {back others : List Thread}
    (htake : p.code.getD t.place .accept = .take cls next) (hc : cls.holds c.toNat = true)
    (hback : ∀ u ∈ back, Refuses p.code c u) (hothers : ∀ u ∈ others, Refuses p.code c u) :
    p.run position (back ++ t :: others) (c :: cs) =
      p.run (position + 1) (p.lead ⟨some c, cs.head?⟩ (position + 1) ⟨next, t.slots⟩) cs := by
  have hadvance : advance p.code (some c) ⟨some c, cs.head?⟩ (position + 1)
      (back ++ t :: others).reverse (.empty p.code.size) none =
        ((Front.empty p.code.size).enter p.code ⟨some c, cs.head?⟩ (position + 1)
          ⟨next, t.slots⟩, none) := by
    rw [List.reverse_append, List.reverse_cons, List.append_assoc,
      advance_append_of_refuses (fun u hu => hothers u (List.mem_reverse.mp hu)),
      List.singleton_append, advance, htake]
    dsimp only
    rw [if_pos hc, ← List.append_nil back.reverse,
      advance_append_of_refuses fun u hu => hback u (List.mem_reverse.mp hu)]
    rfl
  rw [run, sweep]
  simp only [Option.isNone_none, if_true, hp _ _ _ _ _, hadvance]
  exact hp.sweep_eq_run _ c

/-- At the end of a text the threads that would take a character give way to the
one that accepts. -/
theorem Anchored.run_nil (hp : p.Anchored) {others : List Thread}
    (haccept : p.code.getD t.place .accept = .accept)
    (hothers : ∀ u ∈ others, ∃ cls next, p.code.getD u.place .accept = .take cls next) :
    p.run position (t :: others) [] = some t.slots := by
  have hskip (ts : List Thread)
      (hts : ∀ u ∈ ts, ∃ cls next, p.code.getD u.place .accept = .take cls next) (front : Front) :
      (advance p.code none ⟨none, none⟩ position (ts ++ [t]) front none).2 = some t.slots := by
    induction ts with
    | nil => rw [List.nil_append, advance, haccept]
    | cons u ts ih =>
        obtain ⟨cls, next, htake⟩ := hts u List.mem_cons_self
        rw [List.cons_append, advance, htake]
        exact ih fun later hlater => hts later (List.mem_cons_of_mem _ hlater)
  rw [run, sweep]
  simp only [Option.isNone_none, if_true, hp _ _ _ _ _, List.reverse_cons]
  exact hskip _ (fun u hu => hothers u (List.mem_reverse.mp hu)) _

/-- A loop that takes characters of a class, with the threads that go on behind it
at a position. -/
structure Loop (p : Program) (cls : CharClass) (place next : Nat)
    (exits : Option Char → Nat → Slots → List Thread) : Prop where
  take : p.code.getD place .accept = .take cls next
  lead : ∀ c after position slots, p.lead ⟨some c, after⟩ position ⟨next, slots⟩ =
    exits after position slots ++ [⟨place, slots⟩]
  /-- A character that the loop takes is taken by the loop alone. -/
  refuse : ∀ c position slots, cls.holds c.toNat = true →
    ∀ t ∈ exits (some c) position slots, Refuses p.code c t

/-- A loop takes a run of characters of its class. -/
theorem Loop.run_append {place : Nat} {exits : Option Char → Nat → Slots → List Thread}
    (h : p.Loop cls place next exits) (hp : p.Anchored) {ds : List Char} (hne : ds ≠ [])
    (hds : ∀ d ∈ ds, cls.holds d.toNat = true) {slots : Slots} {back others : List Thread}
    (hback : ∀ u ∈ back, ∀ d ∈ ds.head?, Refuses p.code d u)
    (hothers : ∀ u ∈ others, ∀ d ∈ ds.head?, Refuses p.code d u) (rest : List Char) :
    p.run position (back ++ ⟨place, slots⟩ :: others) (ds ++ rest) =
      p.run (position + ds.length)
        (exits rest.head? (position + ds.length) slots ++ [⟨place, slots⟩]) rest := by
  induction ds generalizing position back others with
  | nil => contradiction
  | cons d ds ih =>
      have hd := hds d List.mem_cons_self
      rw [List.cons_append, hp.run_cons h.take hd (fun u hu => hback u hu d rfl)
        (fun u hu => hothers u hu d rfl), h.lead]
      cases ds with
      | nil => rfl
      | cons e ds =>
          have he := hds e (List.mem_cons_of_mem _ List.mem_cons_self)
          have hback : ∀ u ∈ exits (some e) (position + 1) slots,
              ∀ d ∈ (e :: ds).head?, Refuses p.code d u := by
            intro u hu f hf
            obtain rfl := Option.some.inj hf
            exact h.refuse e (position + 1) slots he u hu
          have hlength : position + (d :: e :: ds).length = position + 1 + (e :: ds).length := by
            simp only [List.length_cons]
            omega
          rw [hlength]
          exact ih (List.cons_ne_nil e ds)
            (fun later hlater => hds later (List.mem_cons_of_mem _ hlater)) hback
            fun _ hu => absurd hu List.not_mem_nil

end Program

end VersionTrail.Pattern
