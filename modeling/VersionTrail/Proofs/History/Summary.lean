/-
# Summaries and first lines

The summary of a message is not always its first line. A stored commit joins the
lines of the first paragraph and drops the blanks at the end, a scripted one takes
the first line as it stands. The two agree exactly where the first line is a
paragraph of its own and does not end in a blank.

What tells them apart are the characters that are not blank: joining lines keeps all
of them, so a summary of several lines has more than the first line.
-/
import Mathlib.Data.List.DropRight
import VersionTrail.History.Graph
import VersionTrail.History.Script

namespace VersionTrail.History

open VersionTrail.Text

variable {cs run : List Char}

/-- What stands behind the first line feed. -/
def behindLineFeed (cs : List Char) : List Char :=
  (cs.dropWhile (· != '\n')).drop 1

/-- The second line; it is empty where there is none. -/
def secondLine (cs : List Char) : List Char :=
  (behindLineFeed cs).takeWhile (· != '\n')

/-- Whether a text holds nothing but blanks. -/
def IsBlankLine (cs : List Char) : Prop :=
  ∀ c ∈ cs, isMessageBlank c = true

instance (cs : List Char) : Decidable (IsBlankLine cs) :=
  decidable_of_iff (cs.all isMessageBlank = true) List.all_eq_true

/-- Whether the first line is a paragraph of its own and has no blank at its end. -/
structure HasPlainSubject (cs : List Char) : Prop where
  last : ∀ c ∈ (firstLineOf cs).getLast?, isMessageBlank c = false
  second : IsBlankLine (secondLine cs)

instance (cs : List Char) : Decidable (HasPlainSubject cs) :=
  decidable_of_iff
    ((firstLineOf cs).getLast?.all (! isMessageBlank ·) = true ∧ IsBlankLine (secondLine cs))
    ⟨fun h => ⟨by simpa [Option.all_eq_true] using h.1, h.2⟩,
      fun h => ⟨by simpa [Option.all_eq_true] using h.last, h.second⟩⟩

@[simp]
theorem isBlankLine_nil : IsBlankLine [] :=
  List.forall_mem_nil _

@[simp]
theorem isBlankLine_cons_iff {c : Char} :
    IsBlankLine (c :: cs) ↔ isMessageBlank c = true ∧ IsBlankLine cs :=
  List.forall_mem_cons

theorem endsParagraph_iff : endsParagraph cs = true ↔ IsBlankLine (cs.takeWhile (· != '\n')) := by
  induction cs with
  | nil => exact iff_of_true rfl isBlankLine_nil
  | cons c cs ih =>
      by_cases hfeed : c = '\n'
      · rw [hfeed]
        exact iff_of_true rfl isBlankLine_nil
      · rw [List.takeWhile_cons_of_pos (by simpa using hfeed), isBlankLine_cons_iff, ← ih]
        cases hblank : isMessageBlank c <;> simp [endsParagraph, hfeed, hblank]

/-- The first paragraph is the first line alone, or it goes on behind the line feed. -/
theorem paragraph_eq (cs : List Char) :
    paragraph cs = cs.takeWhile (· != '\n') ++
      if endsParagraph (behindLineFeed cs) then [] else '\n' :: paragraph (behindLineFeed cs) := by
  induction cs with
  | nil => rfl
  | cons c cs ih =>
      by_cases hfeed : c = '\n'
      · rw [hfeed]
        rfl
      · have hbehind : behindLineFeed (c :: cs) = behindLineFeed cs := by
          rw [behindLineFeed, List.dropWhile_cons_of_pos (by simpa using hfeed), behindLineFeed]
        rw [List.takeWhile_cons_of_pos (by simpa using hfeed), hbehind, List.cons_append, ← ih]
        simp [paragraph, hfeed]

theorem takeWhile_prefix_paragraph (cs : List Char) :
    cs.takeWhile (· != '\n') <+: paragraph cs := by
  rw [paragraph_eq]
  exact List.prefix_append _ _

/-- The first line is what stands in front of the first line feed, but for a carriage
return. -/
theorem exists_takeWhile_eq_firstLineOf (cs : List Char) :
    ∃ back, cs.takeWhile (· != '\n') = firstLineOf cs ++ back ∧ IsBlankLine back := by
  fun_induction firstLineOf cs with
  | case1 => exact ⟨[], rfl, isBlankLine_nil⟩
  | case2 => exact ⟨[], rfl, isBlankLine_nil⟩
  | case3 =>
      refine ⟨['\r'], rfl, ?_⟩
      simp [IsBlankLine, isMessageBlank]
  | case4 c cs hfeed hreturn ih =>
      obtain ⟨back, hback, hblank⟩ := ih
      refine ⟨back, ?_, hblank⟩
      rw [List.takeWhile_cons_of_pos (by simpa using hfeed), hback]
      rfl

theorem isBlankLine_joinBlanks (hrun : IsBlankLine run) : IsBlankLine (joinBlanks run) := by
  rw [joinBlanks]
  split
  · exact List.forall_mem_singleton.mpr rfl
  · exact fun c hc => hrun c (List.mem_reverse.mp hc)

theorem filter_eq_nil_iff :
    cs.filter (! isMessageBlank ·) = [] ↔ IsBlankLine cs := by
  simp [List.filter_eq_nil_iff, IsBlankLine]

/-- Joining lines keeps the characters that are not blank. -/
theorem filter_oneLine (hrun : IsBlankLine run) (cs : List Char) :
    (oneLine run cs).filter (! isMessageBlank ·) = cs.filter (! isMessageBlank ·) := by
  induction cs generalizing run with
  | nil => rfl
  | cons c cs ih =>
      rw [oneLine]
      split
      case isTrue hblank =>
        rw [ih (isBlankLine_cons_iff.mpr ⟨hblank, hrun⟩),
          List.filter_cons_of_neg (by simpa using hblank)]
      case isFalse hblank =>
        rw [List.filter_append, filter_eq_nil_iff.mpr (isBlankLine_joinBlanks hrun),
          List.nil_append, List.filter_cons_of_pos (by simpa using hblank), ih isBlankLine_nil,
          List.filter_cons_of_pos (by simpa using hblank)]

/-- What is joined does not end in a blank. -/
theorem not_isMessageBlank_of_mem_getLast? (run cs : List Char) :
    ∀ c ∈ (oneLine run cs).getLast?, isMessageBlank c = false := by
  induction cs generalizing run with
  | nil => simp [oneLine]
  | cons c cs ih =>
      rw [oneLine]
      split
      case isTrue => exact ih _
      case isFalse hblank =>
        simp only [List.getLast?_append, List.getLast?_cons, Option.some_or, Option.mem_some_iff]
        rintro d rfl
        cases hlast : (oneLine [] cs).getLast? with
        | none => simpa using hblank
        | some d => exact ih [] d hlast

/-- Of a single line nothing is lost but blanks at its end. -/
theorem exists_eq_oneLine_append (hrun : IsBlankLine run) (hfeed : '\n' ∉ run)
    (hline : '\n' ∉ cs) :
    ∃ back, run.reverse ++ cs = oneLine run cs ++ back ∧ IsBlankLine back := by
  induction cs generalizing run with
  | nil => exact ⟨run.reverse, List.append_nil _, fun c hc => hrun c (List.mem_reverse.mp hc)⟩
  | cons c cs ih =>
      obtain ⟨hc, hline⟩ := not_or.mp (mt List.mem_cons.mpr hline)
      rw [oneLine]
      split
      case isTrue hblank =>
        obtain ⟨back, hback, hall⟩ := ih (isBlankLine_cons_iff.mpr ⟨hblank, hrun⟩)
          (mt List.mem_cons.mp (not_or.mpr ⟨hc, hfeed⟩)) hline
        refine ⟨back, ?_, hall⟩
        rw [← hback, List.reverse_cons, List.append_assoc, List.singleton_append]
      case isFalse hblank =>
        obtain ⟨back, hback, hall⟩ := ih isBlankLine_nil List.not_mem_nil hline
        have hrun : joinBlanks run = run.reverse := by simp [joinBlanks, hfeed]
        refine ⟨back, ?_, hall⟩
        rw [hrun, List.append_assoc, List.cons_append, ← hback]
        rfl

theorem rdropWhile_append {back : List Char} (hback : IsBlankLine back) (cs : List Char) :
    (cs ++ back).rdropWhile isMessageBlank = cs.rdropWhile isMessageBlank := by
  have hreverse : ∀ c ∈ back.reverse, isMessageBlank c = true := fun c hc =>
    hback c (List.mem_reverse.mp hc)
  rw [List.rdropWhile, List.reverse_append, List.dropWhile_append_of_pos hreverse, List.rdropWhile]

theorem rdropWhile_eq_iff :
    cs.rdropWhile isMessageBlank = cs ↔ ∀ c ∈ cs.getLast?, isMessageBlank c = false := by
  rw [List.rdropWhile_eq_self_iff]
  cases cs with
  | nil => simp
  | cons c cs => simp [List.getLast?_eq_some_getLast (List.cons_ne_nil c cs)]

theorem oneLine_eq_rdropWhile (hline : '\n' ∉ cs) :
    oneLine [] cs = cs.rdropWhile isMessageBlank := by
  obtain ⟨back, hback, hall⟩ := exists_eq_oneLine_append isBlankLine_nil List.not_mem_nil hline
  rw [List.reverse_nil, List.nil_append] at hback
  rw [hback, rdropWhile_append hall, ← hback]
  exact (rdropWhile_eq_iff.mpr (not_isMessageBlank_of_mem_getLast? [] cs)).symm

theorem not_isBlankLine_paragraph (hsecond : ¬ IsBlankLine (secondLine cs)) :
    ¬ IsBlankLine (paragraph (behindLineFeed cs)) := fun hblank =>
  hsecond fun c hc => hblank c ((takeWhile_prefix_paragraph _).mem hc)

theorem paragraph_of_isBlankLine (hsecond : IsBlankLine (secondLine cs)) :
    paragraph cs = cs.takeWhile (· != '\n') := by
  rw [paragraph_eq, if_pos (endsParagraph_iff.mpr hsecond), List.append_nil]

theorem paragraph_of_not_isBlankLine (hsecond : ¬ IsBlankLine (secondLine cs)) :
    paragraph cs = cs.takeWhile (· != '\n') ++ '\n' :: paragraph (behindLineFeed cs) := by
  rw [paragraph_eq, if_neg (mt endsParagraph_iff.mp hsecond)]

@[simp]
theorem isBlankLine_append_iff {front back : List Char} :
    IsBlankLine (front ++ back) ↔ IsBlankLine front ∧ IsBlankLine back :=
  List.forall_mem_append

/-- The first paragraph is blank where the first two lines are. -/
theorem isBlankLine_paragraph_iff :
    IsBlankLine (paragraph cs) ↔ IsBlankLine (firstLineOf cs) ∧ IsBlankLine (secondLine cs) := by
  obtain ⟨back, hback, hall⟩ := exists_takeWhile_eq_firstLineOf cs
  by_cases hsecond : IsBlankLine (secondLine cs)
  · simp [paragraph_of_isBlankLine hsecond, hback, hall, hsecond]
  · simp [paragraph_of_not_isBlankLine hsecond, not_isBlankLine_paragraph hsecond, hsecond]

theorem summaryOf_eq_nil_iff :
    summaryOf cs = [] ↔ IsBlankLine (firstLineOf cs) ∧ IsBlankLine (secondLine cs) := by
  rw [← isBlankLine_paragraph_iff, ← filter_eq_nil_iff, ← filter_oneLine isBlankLine_nil,
    filter_eq_nil_iff]
  constructor
  · intro hnil
    rw [← summaryOf, hnil]
    exact isBlankLine_nil
  · intro hblank
    rw [← List.getLast?_eq_none_iff, Option.eq_none_iff_forall_ne_some]
    intro c hlast
    have hc : isMessageBlank c = true := hblank c (List.mem_of_getLast? hlast)
    rw [not_isMessageBlank_of_mem_getLast? [] _ c hlast] at hc
    contradiction

/-- The summary is the first line where the first line is a paragraph of its own and has
no blank at its end. -/
theorem summaryOf_eq_firstLineOf_iff : summaryOf cs = firstLineOf cs ↔ HasPlainSubject cs := by
  obtain ⟨back, hback, hall⟩ := exists_takeWhile_eq_firstLineOf cs
  by_cases hsecond : IsBlankLine (secondLine cs)
  · have hline : '\n' ∉ cs.takeWhile (· != '\n') := fun hmem => by
      simpa using List.mem_takeWhile_imp hmem
    rw [summaryOf, paragraph_of_isBlankLine hsecond, oneLine_eq_rdropWhile hline, hback,
      rdropWhile_append hall, rdropWhile_eq_iff]
    exact ⟨fun hlast => ⟨hlast, hsecond⟩, fun h => h.last⟩
  · -- The summary has the characters of the second line that are not blank as well.
    refine iff_of_false (fun heq => ?_) fun h => hsecond h.second
    have hkept := filter_oneLine isBlankLine_nil (paragraph cs)
    rw [← summaryOf, heq, paragraph_of_not_isBlankLine hsecond, hback, List.append_assoc,
      List.filter_append, List.self_eq_append_right, filter_eq_nil_iff, isBlankLine_append_iff,
      isBlankLine_cons_iff] at hkept
    exact not_isBlankLine_paragraph hsecond hkept.2.2

theorem messageOf_of_head? (hfeed : cs.head? ≠ some '\n') : messageOf cs = cs := by
  cases cs with
  | nil => rfl
  | cons c cs =>
      have hc : c ≠ '\n' := by simpa using hfeed
      rw [messageOf, List.dropWhile_cons_of_neg (by simpa using hc)]

theorem fields_of_toCommit {c : CommitObject} {sha : String} {commit : Commit}
    (hcommit : c.toCommit sha = .ok commit) :
    commit.message = String.ofList (messageOf c.message.toList) ∧
      commit.summary = String.ofList (summaryOf commit.message.toList) := by
  rw [CommitObject.toCommit] at hcommit
  split at hcommit
  · contradiction
  · obtain rfl := Except.ok.inj hcommit
    exact ⟨rfl, congrArg (String.ofList <| summaryOf ·) (String.toList_ofList).symm⟩

/-- The summary of a stored commit is the first line of its message exactly where that
line is a paragraph of its own and has no blank at its end, and there it is what a
scripted commit with the message has. Line feeds at the front of a stored message are
not part of the commit's message, but a script keeps them and has an empty summary then;
so has the stored commit exactly where the first two lines that remain are blank. -/
theorem summary_eq_firstLine_iff {c : CommitObject} {sha : String} {commit : Commit}
    (hcommit : c.toCommit sha = .ok commit) (s : Script) (id : String) (parents : Nat) :
    let message := commit.message.toList
    (commit.summary = firstLine commit.message ↔ HasPlainSubject message) ∧
    (commit.summary = (s.nextCommit id commit.message parents).summary ↔
      HasPlainSubject message) ∧
    (commit.summary = (s.nextCommit id c.message parents).summary ↔
      if c.message.toList.head? = some '\n' then
        IsBlankLine (firstLineOf message) ∧ IsBlankLine (secondLine message)
      else HasPlainSubject message) := by
  intro message
  obtain ⟨hmessage, hsummary⟩ := fields_of_toCommit hcommit
  have hfirst : commit.summary = firstLine commit.message ↔ HasPlainSubject message := by
    rw [hsummary, firstLine, String.ofList_inj, summaryOf_eq_firstLineOf_iff]
  refine ⟨hfirst, hfirst, ?_⟩
  split
  case isTrue hfeed =>
    obtain ⟨rest, hraw⟩ := List.head?_eq_some_iff.mp hfeed
    have hscript : (s.nextCommit id c.message parents).summary = "" := by
      show firstLine c.message = ""
      rw [firstLine, hraw]
      rfl
    rw [hscript, hsummary, String.ofList_eq_empty_iff, summaryOf_eq_nil_iff]
  case isFalse hfeed =>
    have hraw : commit.message = c.message := by
      rw [hmessage, messageOf_of_head? hfeed, String.ofList_toList]
    rw [← hraw]
    exact hfirst

/-- A second line of blanks, and a carriage return in front of the line feed. -/
theorem summary_eq_firstLine_iff_subject :
    let c : CommitObject := { (default : CommitObject) with message := "\n  v1.2\r\n \nbody" }
    ∃ commit, c.toCommit "1" = .ok commit ∧ HasPlainSubject commit.message.toList ∧
      commit.summary = firstLine commit.message ∧ commit.summary = "  v1.2" ∧
      commit.summary ≠ (Script.nextCommit {} "1" c.message 1).summary := by
  intro c
  obtain ⟨commit, hcommit⟩ : ∃ commit, c.toCommit "1" = .ok commit := ⟨_, rfl⟩
  obtain ⟨hmessage, -⟩ := fields_of_toCommit hcommit
  have hlist : commit.message.toList = "  v1.2\r\n \nbody".toList := by
    rw [hmessage]
    decide
  obtain ⟨hfirst, -, hscript⟩ := summary_eq_firstLine_iff hcommit {} "1" 1
  have hplain : HasPlainSubject commit.message.toList := by
    rw [hlist]
    decide
  refine ⟨commit, hcommit, hplain, hfirst.mpr hplain, ?_, ?_⟩
  · rw [hfirst.mpr hplain, firstLine, hlist]
    decide
  · rw [ne_eq, hscript, if_pos (by decide)]
    rintro ⟨hblank, -⟩
    rw [hlist] at hblank
    exact absurd (hblank 'v' (by decide)) (by decide)

/-- Two lines of one paragraph are joined. -/
theorem summary_ne_firstLine :
    let c : CommitObject := { (default : CommitObject) with message := "a\nb" }
    ∃ commit, c.toCommit "1" = .ok commit ∧ commit.message = "a\nb" ∧ commit.summary = "a b" ∧
      firstLine commit.message = "a" ∧
      (Script.nextCommit {} "1" commit.message 1).summary = "a" := by
  refine ⟨_, rfl, ?_⟩
  decide

end VersionTrail.History
