/-
# The readers by their levels

Sums and products are read in the same way: an operand, and while an operation of the
row follows, another operand, to which it is applied at once. A signed number is read
by its first character. These are the equations of the readers, with what is left as
a plain text.
-/
import VersionTrail.Proofs.Calc.Grammar
import VersionTrail.Proofs.Run

namespace VersionTrail.Calc

open VersionTrail.Text

/-- What was read, and what is left without the bound on its length. -/
def outline {p : List Char → Prop} (x : Except Fault (Float × { rest : List Char // p rest })) :
    Except Fault (Float × List Char) :=
  x >>= fun (y, rest) => .ok (y, rest.1)

/-- Reads what belongs to a level. -/
def Level.read : Level → List Char → Except Fault (Float × List Char)
  | .row .sum, cs => outline (readSum cs)
  | .row .product, cs => outline (readProduct cs)
  | .signed, cs => outline (readSigned cs)

/-- Reads the operands behind the first one of a row. -/
def Row.readTail : Row → Float → List Char → Except Fault (Float × List Char)
  | .sum, x, cs => outline (readSumTail x cs)
  | .product, x, cs => outline (readProductTail x cs)

/-- The operation of a row that a character stands for. -/
def Row.operation? : Row → Char → Option Operation
  | .sum => sumOperation?
  | .product => productOperation?

/-- Less is left than there was. -/
theorem Level.length_of_read {l : Level} {cs rest : List Char} {x : Float}
    (hread : l.read cs = .ok (x, rest)) : rest.length < cs.length := by
  have hbound : ∀ {y : Except Fault (Float × Rest cs)},
      outline y = .ok (x, rest) → rest.length < cs.length := by
    intro y hy
    obtain ⟨⟨z, rest', hlength⟩, -, heq⟩ := bind_eq_ok_iff.mp hy
    obtain ⟨-, rfl⟩ : z = x ∧ rest' = rest := by simpa using heq
    exact hlength
  cases l with
  | row r => cases r <;> exact hbound hread
  | signed => exact hbound hread

theorem length_of_dropBlanks_eq_cons {cs after : List Char} {c : Char}
    (hdrop : dropBlanks cs = c :: after) : after.length < cs.length := by
  have hle := length_dropBlanks_le cs
  rw [hdrop] at hle
  exact hle

/-- A row is its first operand and what stands behind it. -/
theorem Level.read_row (r : Row) (cs : List Char) :
    (Level.row r).read cs = r.operand.read cs >>= fun (x, rest) => r.readTail x rest := by
  cases r with
  | sum =>
      show outline (readSum cs) = outline (readProduct cs) >>= _
      rw [readSum]
      cases readProduct cs with
      | error e => rfl
      | ok p =>
          show outline _ = outline (readSumTail p.1 p.2.1)
          dsimp only
          cases readSumTail p.1 p.2.1 <;> rfl
  | product =>
      show outline (readProduct cs) = outline (readSigned cs) >>= _
      rw [readProduct]
      cases readSigned cs with
      | error e => rfl
      | ok p =>
          show outline _ = outline (readProductTail p.1 p.2.1)
          dsimp only
          cases readProductTail p.1 p.2.1 <;> rfl

/-- A row ends where no operation of it follows. -/
theorem Row.readTail_of_ends {r : Row} {cs : List Char}
    (hends : ∀ c ∈ (dropBlanks cs).head?, r.operation? c = none) (x : Float) :
    r.readTail x cs = .ok (x, dropBlanks cs) := by
  cases r with
  | sum =>
      show outline (readSumTail x cs) = _
      rw [readSumTail]
      split
      · next hdrop => rw [hdrop]; rfl
      · next c after hdrop =>
        have hc : sumOperation? c = none := hends c (by rw [hdrop]; rfl)
        simp only [hc, hdrop]
        rfl
  | product =>
      show outline (readProductTail x cs) = _
      rw [readProductTail]
      split
      · next hdrop => rw [hdrop]; rfl
      · next c after hdrop =>
        have hc : productOperation? c = none := hends c (by rw [hdrop]; rfl)
        simp only [hc, hdrop]
        rfl

/-- An operation is applied to what was read before it and to the next operand. -/
theorem Row.readTail_of_operation? {r : Row} {cs after : List Char} {c : Char} {op : Operation}
    (hdrop : dropBlanks cs = c :: after) (hop : r.operation? c = some op) (x : Float) :
    r.readTail x cs = r.operand.read after >>= fun (y, rest) =>
      op.apply x y >>= fun z => r.readTail z rest := by
  cases r with
  | sum =>
      show outline (readSumTail x cs) = outline (readProduct after) >>= _
      rw [readSumTail]
      split
      · next hnil => rw [hnil] at hdrop; contradiction
      · next c' after' hcons =>
        obtain ⟨rfl, rfl⟩ : c' = c ∧ after' = after := by simpa using hcons.symm.trans hdrop
        have hc : sumOperation? c' = some op := hop
        simp only [hc]
        cases readProduct after' with
        | error e => rfl
        | ok p =>
            show _ = op.apply x p.1 >>= fun z => outline (readSumTail z p.2.1)
            dsimp only
            cases op.apply x p.1 with
            | error e => rfl
            | ok z =>
                show _ = outline (readSumTail z p.2.1)
                dsimp only
                cases readSumTail z p.2.1 <;> rfl
  | product =>
      show outline (readProductTail x cs) = outline (readSigned after) >>= _
      rw [readProductTail]
      split
      · next hnil => rw [hnil] at hdrop; contradiction
      · next c' after' hcons =>
        obtain ⟨rfl, rfl⟩ : c' = c ∧ after' = after := by simpa using hcons.symm.trans hdrop
        have hc : productOperation? c' = some op := hop
        simp only [hc]
        cases readSigned after' with
        | error e => rfl
        | ok p =>
            show _ = op.apply x p.1 >>= fun z => outline (readProductTail z p.2.1)
            dsimp only
            cases op.apply x p.1 with
            | error e => rfl
            | ok z =>
                show _ = outline (readProductTail z p.2.1)
                dsimp only
                cases readProductTail z p.2.1 <;> rfl

/-- A sign is applied to the signed number behind it. -/
theorem read_sign {cs after : List Char} {link : Link .sum}
    (hdrop : dropBlanks cs = link.char :: after) :
    Level.signed.read cs = Level.signed.read after >>= fun (x, rest) =>
      .ok (link.sign x, rest) := by
  show outline (readSigned cs) = outline (readSigned after) >>= _
  rw [readSigned]
  split
  · next hnil => rw [hnil] at hdrop; contradiction
  · next c after' hcons =>
    obtain ⟨rfl, rfl⟩ : c = link.char ∧ after' = after := by simpa using hcons.symm.trans hdrop
    cases link with
    | plus =>
        rw [if_neg (by decide), if_pos (show Link.plus.char = '+' from rfl)]
        cases readSigned after' <;> rfl
    | minus =>
        rw [if_pos (show Link.minus.char = '-' from rfl)]
        cases readSigned after' <;> rfl

/-- Takes the parenthesis that closes a group. -/
def closeGroup (x : Float) (cs : List Char) : Except Fault (Float × List Char) :=
  match dropBlanks cs with
  | ')' :: behind => .ok (x, behind)
  | _ => .error .unclosed

theorem closeGroup_eq_ok_iff {x y : Float} {cs rest : List Char} :
    closeGroup x cs = .ok (y, rest) ↔ x = y ∧ dropBlanks cs = ')' :: rest := by
  unfold closeGroup
  split
  · next behind hbehind => simp [hbehind]
  · next hnone => simpa using fun _ => hnone rest

/-- A parenthesis is followed by a sum and by the parenthesis that closes it. -/
theorem read_group {cs after : List Char} (hdrop : dropBlanks cs = '(' :: after) :
    Level.signed.read cs = (Level.row .sum).read after >>= fun (x, rest) => closeGroup x rest := by
  show outline (readSigned cs) = outline (readSum after) >>= _
  rw [readSigned]
  split
  · next hnil => rw [hnil] at hdrop; contradiction
  · next c after' hcons =>
    obtain ⟨rfl, rfl⟩ : c = '(' ∧ after' = after := by simpa using hcons.symm.trans hdrop
    rw [if_neg (by decide), if_neg (by decide), if_pos rfl]
    cases readSum after' with
    | error e => rfl
    | ok p =>
        show outline _ = closeGroup p.1 p.2.1
        dsimp only
        split
        · next behind hbehind =>
          rw [closeGroup_eq_ok_iff.mpr ⟨rfl, hbehind⟩]
          rfl
        · next hnone =>
          rw [closeGroup]
          split
          · next behind hbehind => exact absurd hbehind (hnone behind)
          · rfl

/-- A digit or a point starts a literal, which takes all that can be part of one. -/
theorem read_literal {cs after : List Char} {c : Char} (hdrop : dropBlanks cs = c :: after)
    (hc : isLiteralChar c = true) :
    Level.signed.read cs =
      match literalValue? ((c :: after).takeWhile isLiteralChar) with
      | some x => .ok (x, (c :: after).dropWhile isLiteralChar)
      | none => .error (.badLiteral (String.ofList ((c :: after).takeWhile isLiteralChar))) := by
  have hne : ∀ d, isLiteralChar d = false → c ≠ d := by
    rintro d hd rfl
    rw [hc] at hd
    contradiction
  show outline (readSigned cs) = _
  rw [readSigned]
  split
  · next hnil => rw [hnil] at hdrop; contradiction
  · next c' after' hcons =>
    obtain ⟨rfl, rfl⟩ : c' = c ∧ after' = after := by simpa using hcons.symm.trans hdrop
    rw [if_neg (hne '-' (by decide)), if_neg (hne '+' (by decide)), if_neg (hne '(' (by decide)),
      if_pos hc, List.takeWhile_cons_of_pos hc, List.dropWhile_cons_of_pos hc, readLiteral]
    cases literalValue? (c' :: after'.takeWhile isLiteralChar) <;> rfl

/-- Nothing else starts a signed number. -/
theorem exists_start_of_read_signed {cs rest : List Char} {x : Float}
    (hread : Level.signed.read cs = .ok (x, rest)) :
    ∃ c after, dropBlanks cs = c :: after ∧
      ((∃ link : Link .sum, c = link.char) ∨ c = '(' ∨ isLiteralChar c = true) := by
  have hsigned : outline (readSigned cs) = .ok (x, rest) := hread
  rw [readSigned] at hsigned
  split at hsigned
  · contradiction
  · next c after hdrop =>
    refine ⟨c, after, hdrop, ?_⟩
    by_cases hminus : c = '-'
    · exact Or.inl ⟨.minus, hminus⟩
    by_cases hplus : c = '+'
    · exact Or.inl ⟨.plus, hplus⟩
    by_cases hgroup : c = '('
    · exact Or.inr (Or.inl hgroup)
    rw [if_neg hminus, if_neg hplus, if_neg hgroup] at hsigned
    by_cases hliteral : isLiteralChar c = true
    · exact Or.inr (Or.inr hliteral)
    · rw [if_neg hliteral] at hsigned
      contradiction

/-- The operations of a row are those of its links. -/
theorem operation?_eq_some_iff {r : Row} {c : Char} {op : Operation} :
    r.operation? c = some op ↔ ∃ link : Link r, link.char = c ∧ link.operation = op := by
  constructor
  · intro hop
    cases r with
    | sum =>
        have hsum : sumOperation? c = some op := hop
        unfold sumOperation? at hsum
        split at hsum
        · exact ⟨.plus, rfl, Option.some.inj hsum⟩
        · exact ⟨.minus, rfl, Option.some.inj hsum⟩
        · contradiction
    | product =>
        have hproduct : productOperation? c = some op := hop
        unfold productOperation? at hproduct
        split at hproduct
        · exact ⟨.times, rfl, Option.some.inj hproduct⟩
        · exact ⟨.over, rfl, Option.some.inj hproduct⟩
        · exact ⟨.modulo, rfl, Option.some.inj hproduct⟩
        · contradiction
  · rintro ⟨link, rfl, rfl⟩
    cases link <;> rfl

theorem not_isLiteralChar_char {r : Row} (link : Link r) : isLiteralChar link.char = false := by
  cases link <;> decide

/-- Only a link of a row starts with a character that goes on with the row. -/
theorem operation?_eq_none_of_text {r : Row} {t : Token} {c : Char} {cs : List Char}
    (htext : t.text = c :: cs) (hlink : ∀ link : Link r, t ≠ .link link) :
    r.operation? c = none := by
  rw [Option.eq_none_iff_forall_ne_some]
  intro op hop
  obtain ⟨link, rfl, -⟩ := operation?_eq_some_iff.mp hop
  cases t with
  | literal l =>
      have hc := l.legal link.char (by rw [show l.text = _ from htext]; exact List.mem_cons_self)
      rw [not_isLiteralChar_char] at hc
      contradiction
  | link l =>
      have hchar : l.char = link.char := (List.cons.inj htext).1
      cases l <;> cases link <;> first | exact absurd hchar (by decide) | exact hlink _ rfl
  | opening =>
      have hchar : '(' = link.char := (List.cons.inj htext).1
      cases link <;> exact absurd hchar (by decide)
  | closing =>
      have hchar : ')' = link.char := (List.cons.inj htext).1
      cases link <;> exact absurd hchar (by decide)

/-- Whether tokens do not go on with a row. -/
def Row.EndsAt (r : Row) (ts : List Token) : Prop :=
  ∀ link : Link r, ts.head? ≠ some (.link link)

theorem Row.endsAt_nil (r : Row) : r.EndsAt [] := by
  intro link heq
  contradiction

theorem Row.endsAt_closing (r : Row) (ts : List Token) : r.EndsAt (.closing :: ts) := by
  intro link heq
  injection heq with heq
  contradiction

/-- A product is over where a sum goes on. -/
theorem Row.endsAt_link (link : Link .sum) (ts : List Token) :
    Row.product.EndsAt (.link link :: ts) := by
  intro other heq
  injection heq with heq
  injection heq with hrow
  contradiction

theorem Row.readTail_of_endsAt {r : Row} {ts : List Token} {cs : List Char} (hts : Spelled ts cs)
    (hends : r.EndsAt ts) (x : Float) : r.readTail x cs = .ok (x, dropBlanks cs) := by
  refine Row.readTail_of_ends (fun c hc => ?_) x
  cases ts with
  | nil =>
      rw [spelled_nil_iff.mp hts] at hc
      contradiction
  | cons t ts =>
      obtain ⟨rest, hdrop, -⟩ := spelled_cons_iff.mp hts
      obtain ⟨d, ds, htext, -⟩ := t.exists_text_eq_cons
      rw [hdrop, htext] at hc
      obtain rfl : d = c := Option.some.inj hc
      exact operation?_eq_none_of_text htext fun link heq => hends link (congrArg some heq)

end VersionTrail.Calc
