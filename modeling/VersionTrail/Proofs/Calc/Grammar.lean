/-
# The grammar of expressions

A sum is a row of products with the signs `+` and `-` between them, a product a row
of signed numbers with `*`, `/` and `%` between them. A signed number is a literal or
a sum in parentheses, with any number of signs in front. Trees are made of these
alone: a row grows at its right end, so its operations group to the left, and a sign
belongs to the number behind it.

A tree is written as a row of tokens, and tokens are spelled with blanks anywhere
around them. A literal takes all the digits and points that follow each other.
-/
import VersionTrail.Calc
import VersionTrail.Proofs.Text.Numeral
import VersionTrail.Proofs.Text.Search

namespace VersionTrail.Calc

open VersionTrail.Text

/-- A run of digits with at most one point among them. -/
structure Literal where
  text : List Char
  legal : ∀ c ∈ text, isLiteralChar c = true
  digit : ∃ c ∈ text, c.isDigit = true
  point : text.count '.' ≤ 1

/-- The double that is nearest to the decimal number. -/
def Literal.value (l : Literal) : Float :=
  match splitFirst? '.' l.text with
  | none => Float.ofScientific (Nat.ofDigitChars 10 l.text 0) false 0
  | some (whole, fraction) =>
    Float.ofScientific (Nat.ofDigitChars 10 (whole ++ fraction) 0) true fraction.length

/-- The two kinds of rows. -/
inductive Row where
  | sum
  | product
  deriving DecidableEq

/-- The levels of the grammar: rows, and the signed numbers in a product. -/
inductive Level where
  | row (r : Row)
  | signed
  deriving DecidableEq

/-- What stands between the operations of a row. -/
def Row.operand : Row → Level
  | .sum => .row .product
  | .product => .signed

/-- What joins the operands of a row. -/
inductive Link : Row → Type where
  | plus : Link .sum
  | minus : Link .sum
  | times : Link .product
  | over : Link .product
  | modulo : Link .product

/-- The trees of the grammar. -/
inductive Tree : Level → Type where
  | literal (l : Literal) : Tree .signed
  | signed (link : Link .sum) (e : Tree .signed) : Tree .signed
  | group (e : Tree (.row .sum)) : Tree .signed
  | operand {r : Row} (e : Tree r.operand) : Tree (.row r)
  | more {r : Row} (front : Tree (.row r)) (link : Link r) (e : Tree r.operand) : Tree (.row r)

/-- The operation that a link stands for. -/
def Link.operation {r : Row} : Link r → Operation
  | .plus => .add
  | .minus => .subtract
  | .times => .multiply
  | .over => .divide
  | .modulo => .remainder

/-- What an operation makes of two doubles. -/
def Operation.result (op : Operation) (x y : Float) : Float :=
  match op with
  | .add => x + y
  | .subtract => x - y
  | .multiply => x * y
  | .divide => x / y
  | .remainder => leftover x y

/-- What a sign makes of a double. -/
def Link.sign : Link .sum → Float → Float
  | .plus, x => x
  | .minus, x => -x

namespace Tree

/-- The value of a tree. -/
def value {l : Level} : Tree l → Float
  | .literal n => n.value
  | .signed link e => link.sign e.value
  | .group e => e.value
  | .operand e => e.value
  | .more front link e => link.operation.result front.value e.value

example (front : Tree (.row .sum)) (d e : Tree (.row .product)) :
    (more (more front .minus d) .minus e).value = front.value - d.value - e.value := rfl

/-- The values on the right sides of divisions and remainders in a tree. -/
def divisors {l : Level} : Tree l → List Float
  | .literal _ => []
  | .signed _ e => e.divisors
  | .group e => e.divisors
  | .operand e => e.divisors
  | .more front link e =>
    front.divisors ++ e.divisors ++ if link.operation.divides then [e.value] else []

end Tree

/-- A token of an expression. -/
inductive Token where
  | literal (l : Literal)
  | link {r : Row} (l : Link r)
  | opening
  | closing

/-- The character of a link. -/
def Link.char {r : Row} : Link r → Char
  | .plus => '+'
  | .minus => '-'
  | .times => '*'
  | .over => '/'
  | .modulo => '%'

namespace Token

/-- The characters of a token. -/
def text : Token → List Char
  | .literal l => l.text
  | .link l => [l.char]
  | .opening => ['(']
  | .closing => [')']

/-- Whether a token can end where the given characters follow: behind a literal
there is no further digit or point. -/
def EndsBefore (rest : List Char) : Token → Prop
  | .literal _ => ∀ c ∈ rest.head?, isLiteralChar c = false
  | _ => True

end Token

/-- Whether characters spell tokens, with blanks around these. -/
inductive Spelled : List Token → List Char → Prop
  | nil {blanks : List Char} (hblanks : ∀ c ∈ blanks, isBlank c = true) : Spelled [] blanks
  | cons {blanks rest : List Char} {t : Token} {ts : List Token}
      (hblanks : ∀ c ∈ blanks, isBlank c = true) (hends : t.EndsBefore rest)
      (hrest : Spelled ts rest) : Spelled (t :: ts) (blanks ++ (t.text ++ rest))

/-- The tokens of a tree. -/
def Tree.tokens {l : Level} : Tree l → List Token
  | .literal n => [.literal n]
  | .signed link e => .link link :: e.tokens
  | .group e => .opening :: (e.tokens ++ [.closing])
  | .operand e => e.tokens
  | .more front link e => front.tokens ++ .link link :: e.tokens

theorem not_isBlank_of_isLiteralChar {c : Char} (hc : isLiteralChar c = true) :
    isBlank c = false := by
  rw [isLiteralChar, Bool.or_eq_true, beq_iff_eq] at hc
  rcases hc with hdigit | rfl
  · exact not_isBlank_of_isDigit hdigit
  · decide

/-- A token starts with a character that is not blank. -/
theorem Token.exists_text_eq_cons (t : Token) :
    ∃ c cs, t.text = c :: cs ∧ isBlank c = false := by
  cases t with
  | literal l =>
      obtain ⟨d, hd, -⟩ := l.digit
      obtain ⟨c, cs, hcs⟩ := List.exists_cons_of_ne_nil (List.ne_nil_of_mem hd)
      have hlegal := l.legal c (by rw [hcs]; exact List.mem_cons_self)
      exact ⟨c, cs, hcs, not_isBlank_of_isLiteralChar hlegal⟩
  | link l => exact ⟨l.char, [], rfl, by cases l <;> decide⟩
  | opening => exact ⟨'(', [], rfl, by decide⟩
  | closing => exact ⟨')', [], rfl, by decide⟩

/-- A numeral is a literal without a point. -/
theorem isNumeral_iff_isLiteralChar {ds : List Char} :
    isNumeral ds = true ↔
      (∀ d ∈ ds, isLiteralChar d = true) ∧ (∃ d ∈ ds, d.isDigit = true) ∧ '.' ∉ ds := by
  rw [isNumeral_iff]
  constructor
  · rintro ⟨hne, hdigits⟩
    obtain ⟨d, hd⟩ := List.exists_mem_of_ne_nil ds hne
    refine ⟨fun c hc => ?_, ⟨d, hd, hdigits d hd⟩, fun hpoint => ?_⟩
    · rw [isLiteralChar, hdigits c hc, Bool.true_or]
    · exact absurd (hdigits '.' hpoint) (by decide)
  · rintro ⟨hlegal, ⟨d, hd, -⟩, hpoint⟩
    refine ⟨List.ne_nil_of_mem hd, fun c hc => ?_⟩
    have hchar := hlegal c hc
    rw [isLiteralChar, Bool.or_eq_true, beq_iff_eq] at hchar
    exact hchar.resolve_right fun heq => hpoint (heq ▸ hc)

theorem isSome_literalValue?_iff {cs : List Char} :
    (literalValue? cs).isSome = true ↔
      (∀ c ∈ cs, isLiteralChar c = true) ∧ (∃ c ∈ cs, c.isDigit = true) ∧ cs.count '.' ≤ 1 := by
  unfold literalValue?
  cases hsplit : splitFirst? '.' cs with
  | none =>
      have hpoint := splitFirst?_eq_none_iff.mp hsplit
      simp [isNumeral_iff_isLiteralChar, hpoint, List.count_eq_zero_of_not_mem hpoint]
  | some parts =>
      obtain ⟨whole, fraction⟩ := parts
      obtain rfl := eq_append_of_splitFirst? hsplit
      have hwhole := notMem_of_splitFirst? hsplit
      have hdigit : Char.isDigit '.' = false := by decide
      have hchar : isLiteralChar '.' = true := by decide
      simp [isNumeral_iff_isLiteralChar, hwhole, hdigit, hchar, or_imp, forall_and, or_and_right,
        exists_or, List.count_eq_zero_of_not_mem hwhole, List.count_eq_zero]

theorem Literal.literalValue?_text (l : Literal) : literalValue? l.text = some l.value := by
  have hsome := isSome_literalValue?_iff.mpr ⟨l.legal, l.digit, l.point⟩
  unfold literalValue? at hsome ⊢
  unfold Literal.value
  cases hsplit : splitFirst? '.' l.text with
  | none =>
      simp only [hsplit, Option.isSome_ite] at hsome ⊢
      rw [if_pos hsome]
  | some parts =>
      simp only [hsplit, Option.isSome_ite] at hsome ⊢
      rw [if_pos hsome]

/-- What is read as a literal is one, with its value. -/
theorem exists_literal_of_literalValue? {cs : List Char} {x : Float}
    (hread : literalValue? cs = some x) : ∃ l : Literal, l.text = cs ∧ l.value = x := by
  obtain ⟨hlegal, hdigit, hpoint⟩ :=
    isSome_literalValue?_iff.mp (Option.isSome_of_eq_some hread)
  refine ⟨⟨cs, hlegal, hdigit, hpoint⟩, rfl, ?_⟩
  exact Option.some.inj ((Literal.literalValue?_text _).symm.trans hread)

theorem spelled_nil_iff {cs : List Char} : Spelled [] cs ↔ dropBlanks cs = [] := by
  rw [dropBlanks_eq_nil_iff]
  constructor
  · rintro ⟨hblanks⟩
    exact hblanks
  · exact .nil

theorem spelled_cons_iff {t : Token} {ts : List Token} {cs : List Char} :
    Spelled (t :: ts) cs ↔
      ∃ rest, dropBlanks cs = t.text ++ rest ∧ t.EndsBefore rest ∧ Spelled ts rest := by
  constructor
  · rintro (_ | ⟨hblanks, hends, hrest⟩)
    refine ⟨_, ?_, hends, hrest⟩
    obtain ⟨c, more, htext, hc⟩ := t.exists_text_eq_cons
    rw [dropBlanks_append hblanks, htext, List.cons_append, dropBlanks, List.dropWhile_cons, hc]
    rfl
  · rintro ⟨rest, hdrop, hends, hrest⟩
    have hsplit : cs.takeWhile isBlank ++ (t.text ++ rest) = cs := by
      rw [← hdrop, dropBlanks, List.takeWhile_append_dropWhile]
    rw [← hsplit]
    exact .cons (fun c hc => List.mem_takeWhile_imp hc) hends hrest

/-- Blanks in front do not count. -/
theorem spelled_dropBlanks_iff {ts : List Token} {cs : List Char} :
    Spelled ts (dropBlanks cs) ↔ Spelled ts cs := by
  cases ts with
  | nil => simp [spelled_nil_iff]
  | cons t ts => simp [spelled_cons_iff]

end VersionTrail.Calc
