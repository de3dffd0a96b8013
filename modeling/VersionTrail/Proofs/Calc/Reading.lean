/-
# Reading expressions

An expression is worked out while it is read, and has a value exactly where it spells
a sum whose value is finite and in which nothing is divided by zero. One direction
takes a spelled tree apart: a reader passes over the tokens of the tree and is left
with its outcome. The other direction puts a tree together from what was read, by
induction on the number of characters.
-/
import VersionTrail.Proofs.Calc.Levels

namespace VersionTrail.Calc

open VersionTrail.Text

/-- What becomes of a tree where its divisions are refused for a zero. -/
def Tree.outcome {l : Level} : Tree l → Except Fault Float
  | .literal n => .ok n.value
  | .signed link e => e.outcome >>= fun x => .ok (link.sign x)
  | .group e => e.outcome
  | .operand e => e.outcome
  | .more front link e =>
    front.outcome >>= fun x => e.outcome >>= fun y => link.operation.apply x y

theorem Operation.apply_eq_ok_iff {op : Operation} {x y z : Float} :
    op.apply x y = .ok z ↔ (op.divides = true → (y == 0) = false) ∧ op.result x y = z := by
  have hdef : op.apply x y =
      if op.divides && y == 0 then .error .divisionByZero else .ok (op.result x y) := rfl
  rw [hdef]
  cases op.divides <;> cases y == 0 <;> simp

/-- A tree has an outcome where it divides by no zero, and this is its value. -/
theorem Tree.outcome_eq_ok_iff {l : Level} {t : Tree l} {x : Float} :
    t.outcome = .ok x ↔ (∀ y ∈ t.divisors, (y == 0) = false) ∧ t.value = x := by
  induction t generalizing x with
  | literal n => simp [outcome, divisors, value]
  | signed link e ih => simp [outcome, divisors, value, bind_eq_ok_iff, ih]
  | group e ih => exact ih
  | operand e ih => exact ih
  | more front link e ihfront ihe =>
      simp only [outcome, divisors, value, bind_eq_ok_iff, ihfront, ihe, Operation.apply_eq_ok_iff,
        List.forall_mem_append]
      cases link.operation.divides <;> simp [and_assoc]

/-- What a reader does behind the first operand of its level. -/
def Level.goOn : Level → Float → List Char → Except Fault (Float × List Char)
  | .row r, x, cs => r.readTail x cs
  | .signed, x, cs => .ok (x, cs)

/-- An operand is over where no product goes on. -/
theorem Row.exists_goOn_operand (r : Row) {ts : List Token} {cs : List Char}
    (hts : Spelled ts cs) (hends : r = .sum → Row.product.EndsAt ts) :
    ∃ rest, Spelled ts rest ∧ ∀ x, r.operand.goOn x cs = .ok (x, rest) := by
  cases r with
  | sum =>
      exact ⟨dropBlanks cs, spelled_dropBlanks_iff.mpr hts,
        fun x => Row.readTail_of_endsAt hts (hends rfl) x⟩
  | product => exact ⟨cs, hts, fun _ => rfl⟩

/-- A literal is read to its end. -/
theorem read_of_literal {n : Literal} {cs rest : List Char}
    (hdrop : dropBlanks cs = n.text ++ rest) (hends : (Token.literal n).EndsBefore rest) :
    Level.signed.read cs = .ok (n.value, rest) := by
  obtain ⟨c, more, htext, -⟩ := (Token.literal n).exists_text_eq_cons
  have hc : isLiteralChar c = true :=
    n.legal c (by rw [show n.text = c :: more from htext]; exact List.mem_cons_self)
  have hcons : dropBlanks cs = c :: (more ++ rest) :=
    hdrop.trans (congrArg (· ++ rest) htext)
  rw [read_literal hcons hc, ← hcons, hdrop, takeWhile_append_of_head? n.legal hends,
    dropWhile_append_of_head? n.legal hends, n.literalValue?_text]

/-- Where a tree is spelled, its reader passes over it with its outcome. Behind a tree
its row may go on, but behind a sum no product may. -/
theorem Tree.exists_read_of_spelled {l : Level} (t : Tree l) {ts : List Token} {cs : List Char}
    (hends : l = .row .sum → Row.product.EndsAt ts) (hspelled : Spelled (t.tokens ++ ts) cs) :
    ∃ rest, Spelled ts rest ∧ l.read cs = t.outcome >>= fun x => l.goOn x rest := by
  induction t generalizing ts cs with
  | literal n =>
      obtain ⟨rest, hdrop, hliteral, hts⟩ := spelled_cons_iff.mp hspelled
      exact ⟨rest, hts, read_of_literal hdrop hliteral⟩
  | signed link e ih =>
      obtain ⟨after, (hdrop : dropBlanks cs = link.char :: after), -, hafter⟩ :=
        spelled_cons_iff.mp hspelled
      obtain ⟨rest, hts, hread⟩ := ih nofun hafter
      refine ⟨rest, hts, ?_⟩
      rw [read_sign hdrop, hread, outcome, bind_assoc, bind_assoc]
      rfl
  | group e ih =>
      rw [tokens, List.cons_append, List.append_assoc] at hspelled
      obtain ⟨after, (hdrop : dropBlanks cs = '(' :: after), -, hafter⟩ :=
        spelled_cons_iff.mp hspelled
      obtain ⟨inner, hinner, hread⟩ := ih (fun _ => Row.product.endsAt_closing ts) hafter
      obtain ⟨rest, hclose, -, hts⟩ := spelled_cons_iff.mp hinner
      refine ⟨rest, hts, ?_⟩
      rw [read_group hdrop, hread, outcome, bind_assoc]
      congr 1
      funext x
      rw [Level.goOn, Row.readTail_of_endsAt hinner (Row.sum.endsAt_closing ts)]
      exact closeGroup_eq_ok_iff.mpr ⟨rfl, by rw [dropBlanks_dropBlanks, hclose]; rfl⟩
  | @operand r e ih =>
      obtain ⟨inner, hinner, hread⟩ := ih (by cases r <;> nofun) hspelled
      obtain ⟨rest, hts, hgo⟩ := r.exists_goOn_operand hinner fun hr => hends (congrArg _ hr)
      refine ⟨rest, hts, ?_⟩
      rw [Level.read_row, hread, outcome, bind_assoc]
      simp only [hgo]
      rfl
  | @more r front link e ihfront ihe =>
      rw [tokens, List.append_assoc, List.cons_append] at hspelled
      have hlink : Level.row r = .row .sum →
          Row.product.EndsAt (.link link :: (e.tokens ++ ts)) := by
        rintro ⟨⟩
        exact Row.endsAt_link link _
      obtain ⟨mid, hmid, hfront⟩ := ihfront hlink hspelled
      obtain ⟨after, (hdrop : dropBlanks mid = link.char :: after), -, hafter⟩ :=
        spelled_cons_iff.mp hmid
      obtain ⟨inner, hinner, hread⟩ := ihe (by cases r <;> nofun) hafter
      obtain ⟨rest, hts, hgo⟩ := r.exists_goOn_operand hinner fun hr => hends (congrArg _ hr)
      have hop := operation?_eq_some_iff.mpr ⟨link, rfl, rfl⟩
      refine ⟨rest, hts, ?_⟩
      rw [hfront, outcome, bind_assoc]
      congr 1
      funext x
      rw [Level.goOn, Row.readTail_of_operation? hdrop hop, hread, bind_assoc, bind_assoc]
      simp only [hgo]
      rfl

/-- Whether a text spells tokens up to a rest of it, whatever the rest spells. -/
def Spans (ts : List Token) (cs rest : List Char) : Prop :=
  ∀ more, Spelled more rest → Spelled (ts ++ more) cs

theorem Spans.append {ts us : List Token} {cs mid rest : List Char} (hts : Spans ts cs mid)
    (hus : Spans us mid rest) : Spans (ts ++ us) cs rest := by
  intro more hmore
  rw [List.append_assoc]
  exact hts _ (hus more hmore)

theorem spans_token {t : Token} {cs rest : List Char} (hdrop : dropBlanks cs = t.text ++ rest)
    (hends : t.EndsBefore rest) : Spans [t] cs rest := by
  intro more hmore
  exact spelled_cons_iff.mpr ⟨rest, hdrop, hends, hmore⟩

/-- Whether whatever the reader of a level takes from a text is spelled there as a tree
of the level with the outcome that was read. -/
def Level.Sound (l : Level) (cs : List Char) : Prop :=
  ∀ x rest, l.read cs = .ok (x, rest) →
    ∃ t : Tree l, t.outcome = .ok x ∧ Spans t.tokens cs rest

/-- The operands behind a row are added to its tree one by one. -/
theorem Row.exists_tree_of_readTail {r : Row} {n : Nat}
    (hoperand : ∀ ds : List Char, ds.length < n → r.operand.Sound ds)
    {start cs rest : List Char} (hlength : cs.length ≤ n) {front : Tree (.row r)} {x y : Float}
    (hfront : front.outcome = .ok x) (hspans : Spans front.tokens start cs)
    (hread : r.readTail x cs = .ok (y, rest)) :
    ∃ t : Tree (.row r), t.outcome = .ok y ∧ Spans t.tokens start rest := by
  induction hcs : cs.length using Nat.strong_induction_on generalizing cs front x with
  | _ k ih =>
      by_cases hends : ∀ c ∈ (dropBlanks cs).head?, r.operation? c = none
      · rw [Row.readTail_of_ends hends] at hread
        obtain ⟨rfl, rfl⟩ : x = y ∧ dropBlanks cs = rest := by simpa using hread
        refine ⟨front, hfront, fun more hmore => ?_⟩
        exact hspans more (spelled_dropBlanks_iff.mp hmore)
      · push Not at hends
        obtain ⟨c, hhead, hsome⟩ := hends
        obtain ⟨op, hop⟩ := Option.ne_none_iff_exists'.mp hsome
        obtain ⟨after, hdrop⟩ := List.head?_eq_some_iff.mp hhead
        obtain ⟨link, rfl, rfl⟩ := operation?_eq_some_iff.mp hop
        have hshorter := length_of_dropBlanks_eq_cons hdrop
        rw [Row.readTail_of_operation? hdrop hop] at hread
        obtain ⟨⟨z, mid⟩, hnext, hrest⟩ := bind_eq_ok_iff.mp hread
        obtain ⟨w, hw, htail⟩ := bind_eq_ok_iff.mp hrest
        obtain ⟨e, he, hmid⟩ := hoperand after (by omega) z mid hnext
        have hmidlength := Level.length_of_read hnext
        have houtcome : (Tree.more front link e).outcome = .ok w := by
          rw [Tree.outcome, bind_ok_eq hfront, bind_ok_eq he, hw]
        have hlink : Spans [.link link] cs after := spans_token hdrop trivial
        exact ih mid.length (by omega) (by omega) houtcome
          (hspans.append (hlink.append hmid)) htail rfl

/-- A row is spelled as a tree where its operands are. -/
theorem Level.sound_row {r : Row} {cs : List Char} (hfirst : r.operand.Sound cs)
    (hoperand : ∀ ds : List Char, ds.length < cs.length → r.operand.Sound ds) :
    (Level.row r).Sound cs := by
  intro x rest hread
  rw [Level.read_row] at hread
  obtain ⟨⟨y, mid⟩, hy, htail⟩ := bind_eq_ok_iff.mp hread
  obtain ⟨e, he, hspans⟩ := hfirst y mid hy
  have hfront : (Tree.operand e).outcome = .ok y := he
  exact Row.exists_tree_of_readTail hoperand (Level.length_of_read hy).le hfront hspans htail

/-- A signed number is spelled as a tree where what it holds is. -/
theorem Level.sound_signed {cs : List Char}
    (hinner : ∀ ds : List Char, ds.length < cs.length → ∀ l : Level, l.Sound ds) :
    Level.signed.Sound cs := by
  intro x rest hread
  obtain ⟨c, after, hdrop, hstart⟩ := exists_start_of_read_signed hread
  have hshorter := length_of_dropBlanks_eq_cons hdrop
  rcases hstart with ⟨link, rfl⟩ | rfl | hc
  · rw [read_sign hdrop] at hread
    obtain ⟨⟨y, inner⟩, hy, hsign⟩ := bind_eq_ok_iff.mp hread
    obtain ⟨rfl, rfl⟩ : link.sign y = x ∧ inner = rest := by simpa using hsign
    obtain ⟨e, he, hspans⟩ := hinner after hshorter .signed y inner hy
    have hlink : Spans [.link link] cs after := spans_token hdrop trivial
    exact ⟨.signed link e, bind_ok_eq he _, hlink.append hspans⟩
  · rw [read_group hdrop] at hread
    obtain ⟨⟨y, inner⟩, hy, hclose⟩ := bind_eq_ok_iff.mp hread
    obtain ⟨rfl, hbehind⟩ := closeGroup_eq_ok_iff.mp hclose
    obtain ⟨e, he, hspans⟩ := hinner after hshorter _ y inner hy
    have hopening : Spans [.opening] cs after := spans_token hdrop trivial
    have hclosing : Spans [.closing] inner rest := spans_token hbehind trivial
    exact ⟨.group e, he, hopening.append (hspans.append hclosing)⟩
  · rw [read_literal hdrop hc] at hread
    split at hread
    · next y hy =>
      obtain ⟨rfl, rfl⟩ : y = x ∧ (c :: after).dropWhile isLiteralChar = rest := by
        simpa using hread
      obtain ⟨n, htext, hvalue⟩ := exists_literal_of_literalValue? hy
      refine ⟨.literal n, congrArg Except.ok hvalue, spans_token ?_ ?_⟩
      · show dropBlanks cs = n.text ++ _
        rw [hdrop, htext, List.takeWhile_append_dropWhile]
      · intro d hd
        have hnot := List.head?_dropWhile_not isLiteralChar (c :: after)
        rw [Option.mem_def.mp hd] at hnot
        exact hnot
    · contradiction

/-- What is read is spelled, at all levels. The first operand of a row is read from the
text of the row itself, so signed numbers go first, and products before sums. -/
theorem Level.sound (l : Level) (cs : List Char) : l.Sound cs := by
  induction hcs : cs.length using Nat.strong_induction_on generalizing cs l with
  | _ k ih =>
      have hinner : ∀ ds : List Char, ds.length < cs.length → ∀ l : Level, l.Sound ds :=
        fun ds hds l => ih ds.length (hcs ▸ hds) l ds rfl
      have hsigned : Level.signed.Sound cs := Level.sound_signed hinner
      have hproduct : (Level.row .product).Sound cs :=
        Level.sound_row hsigned fun ds hds => hinner ds hds .signed
      cases l with
      | signed => exact hsigned
      | row r =>
          cases r with
          | product => exact hproduct
          | sum => exact Level.sound_row hproduct fun ds hds => hinner ds hds (.row .product)

/-- Nothing is read from a blank text. -/
theorem dropBlanks_ne_nil_of_read_sum {cs rest : List Char} {x : Float}
    (hread : (Level.row .sum).read cs = .ok (x, rest)) : dropBlanks cs ≠ [] := by
  rw [Level.read_row] at hread
  obtain ⟨p, hproduct, -⟩ := bind_eq_ok_iff.mp hread
  rw [Row.operand, Level.read_row] at hproduct
  obtain ⟨q, hsigned, -⟩ := bind_eq_ok_iff.mp hproduct
  obtain ⟨c, after, hdrop, -⟩ := exists_start_of_read_signed hsigned
  rw [hdrop]
  exact List.cons_ne_nil c after

/-- An expression has a value where a sum is read from it, nothing but blanks is left
and the sum is finite. -/
theorem evaluate_eq_ok_iff {expression text : String} :
    evaluate expression = .ok text ↔
      ∃ x rest, (Level.row .sum).read expression.toList = .ok (x, rest) ∧
        dropBlanks rest = [] ∧ x.isFinite = true ∧ numberText x = text := by
  have hsum : (Level.row .sum).read expression.toList = outline (readSum expression.toList) := rfl
  rw [evaluate]
  by_cases hempty : (dropBlanks expression.toList).isEmpty = true
  · rw [if_pos hempty]
    constructor
    · nofun
    · rintro ⟨x, rest, hread, -⟩
      exact absurd (List.isEmpty_iff.mp hempty) (dropBlanks_ne_nil_of_read_sum hread)
  · rw [if_neg hempty, hsum]
    cases readSum expression.toList with
    | error e =>
        constructor
        · nofun
        · rintro ⟨x, rest, hread, -⟩
          contradiction
    | ok p =>
        obtain ⟨x, rest⟩ := p
        have hread : outline (.ok (x, rest)) = .ok (x, rest.1) := rfl
        rw [hread]
        dsimp only
        cases hrest : dropBlanks rest.1 with
        | cons c more => simp [hrest]
        | nil => cases hfinite : x.isFinite <;> simp [hrest, hfinite]

/-- A sum that is spelled is read to the end. -/
theorem exists_read_of_spelled_sum {t : Tree (.row .sum)} {cs : List Char}
    (hspelled : Spelled t.tokens cs) :
    ∃ rest, dropBlanks rest = [] ∧
      (Level.row .sum).read cs = t.outcome >>= fun x => .ok (x, rest) := by
  rw [← List.append_nil t.tokens] at hspelled
  obtain ⟨inner, hinner, hread⟩ :=
    t.exists_read_of_spelled (fun _ => Row.product.endsAt_nil) hspelled
  have hblank := spelled_nil_iff.mp hinner
  refine ⟨dropBlanks inner, by rw [hblank]; rfl, ?_⟩
  rw [hread]
  congr 1
  funext x
  exact Row.readTail_of_endsAt hinner Row.sum.endsAt_nil x

/-- A text from which a sum is read to the end spells one. -/
theorem exists_spelled_of_read_sum {cs rest : List Char} {x : Float}
    (hread : (Level.row .sum).read cs = .ok (x, rest)) (hblank : dropBlanks rest = []) :
    ∃ t : Tree (.row .sum), Spelled t.tokens cs := by
  obtain ⟨t, -, hspans⟩ := Level.sound _ cs x rest hread
  have hspelled := hspans [] (spelled_nil_iff.mpr hblank)
  rw [List.append_nil] at hspelled
  exact ⟨t, hspelled⟩

/-- An expression that spells a sum has a value where the sum divides by no zero and
is finite, and the text of this value is the result. Other expressions have none. -/
theorem evaluate_spelled (expression : String) :
    (∀ t : Tree (.row .sum), Spelled t.tokens expression.toList → ∀ text,
      evaluate expression = .ok text ↔
        (∀ y ∈ t.divisors, (y == 0) = false) ∧ t.value.isFinite = true ∧
          text = numberText t.value) ∧
    ((¬ ∃ t : Tree (.row .sum), Spelled t.tokens expression.toList) →
      ∃ fault, evaluate expression = .error fault) := by
  constructor
  · intro t hspelled text
    obtain ⟨rest, hblank, hread⟩ := exists_read_of_spelled_sum hspelled
    constructor
    · intro heval
      obtain ⟨x, rest', hsum, -, hfinite, rfl⟩ := evaluate_eq_ok_iff.mp heval
      rw [hread] at hsum
      obtain ⟨y, houtcome, heq⟩ := bind_eq_ok_iff.mp hsum
      obtain ⟨rfl, -⟩ : y = x ∧ rest = rest' := by simpa using heq
      obtain ⟨hzero, rfl⟩ := Tree.outcome_eq_ok_iff.mp houtcome
      exact ⟨hzero, hfinite, rfl⟩
    · rintro ⟨hzero, hfinite, rfl⟩
      have houtcome := Tree.outcome_eq_ok_iff.mpr ⟨hzero, rfl⟩
      refine evaluate_eq_ok_iff.mpr ⟨t.value, rest, ?_, hblank, hfinite, rfl⟩
      rw [hread, bind_ok_eq houtcome]
  · intro hnot
    cases heval : evaluate expression with
    | error fault => exact ⟨fault, rfl⟩
    | ok text =>
        obtain ⟨x, rest, hread, hblank, -⟩ := evaluate_eq_ok_iff.mp heval
        exact absurd (exists_spelled_of_read_sum hread hblank) hnot

end VersionTrail.Calc
