/-
# Templates without calls

A template without calls is text with references in it. Its lenient value is that
text with each reference replaced by its value; a reference without a value stays as
it is written, and so does every other character. The strict value is the same, and
is missing where the first reference without a value stands.

What is replaced is said of the characters alone: going from left to right, a
character is kept where no reference is written, and else the whole reference is
replaced. So the text has one such reading, and no piece of a read template comes
into it.
-/
import VersionTrail.Output.Rendering
import VersionTrail.Proofs.Output.Strictness
import VersionTrail.Proofs.Template.Reading

namespace VersionTrail.Template

open VersionTrail.Text

/-- A text, what it becomes when its references are replaced, and these references
from left to right. -/
inductive Replaced (replacement : Reference → String) :
    List Char → List Char → List Reference → Prop
  | nil : Replaced replacement [] [] []
  /-- Where no reference is written, the character stays. -/
  | keep {c : Char} {text result : List Char} {refs : List Reference}
      (hstart : ∀ r : Reference, r.WellFormed → ¬ r.print.toList <+: c :: text)
      (h : Replaced replacement text result refs) :
      Replaced replacement (c :: text) (c :: result) refs
  | replace {r : Reference} {text rest result : List Char} {refs : List Reference}
      (hr : r.WellFormed) (hsplit : text = r.print.toList ++ rest)
      (h : Replaced replacement rest result refs) :
      Replaced replacement text ((replacement r).toList ++ result) (r :: refs)

variable {replacement : Reference → String} {r r' : Reference}
variable {text rest rest' result result' : List Char} {refs refs' : List Reference}

/-- A reference that is written at the start of a text is what the lookahead finds
there. -/
theorem Reference.WellFormed.exists_lookahead (hr : r.WellFormed) (rest : List Char) :
    ∃ cs, r.print.toList ++ rest = '<' :: cs ∧ referenceAfter? cs = some r := by
  obtain ⟨inner, hinner, hlegal⟩ := hr.exists_inner
  refine ⟨inner ++ '>' :: rest, ?_, ?_⟩
  · rw [print_of_referenceOf? hinner]
    simp
  · rw [referenceAfter?_append hlegal, hinner]

/-- At most one reference is written at the start of a text. -/
theorem Reference.WellFormed.eq_of_append (hr : r.WellFormed) (hr' : r'.WellFormed)
    (heq : r.print.toList ++ rest = r'.print.toList ++ rest') : r = r' ∧ rest = rest' := by
  obtain ⟨cs, hcs, hfound⟩ := hr.exists_lookahead rest
  obtain ⟨cs', hcs', hfound'⟩ := hr'.exists_lookahead rest'
  obtain rfl : cs = cs' := List.tail_eq_of_cons_eq (hcs.symm.trans (heq.trans hcs'))
  obtain rfl : r = r' := Option.some.inj (hfound.symm.trans hfound')
  exact ⟨rfl, List.append_cancel_left heq⟩

namespace Replaced

/-- A text becomes one text only. -/
theorem unique (h : Replaced replacement text result refs)
    (h' : Replaced replacement text result' refs') : result' = result ∧ refs' = refs := by
  induction h generalizing result' refs' with
  | nil =>
      cases h' with
      | nil => exact ⟨rfl, rfl⟩
      | @replace r _ _ _ _ hr hsplit h' =>
          obtain ⟨cs, hcs, -⟩ := hr.exists_lookahead _
          rw [← hsplit] at hcs
          contradiction
  | keep hstart h ih =>
      cases h' with
      | keep hstart' h' =>
          obtain ⟨rfl, rfl⟩ := ih h'
          exact ⟨rfl, rfl⟩
      | replace hr hsplit h' => exact absurd ⟨_, hsplit.symm⟩ (hstart _ hr)
  | replace hr hsplit h ih =>
      cases h' with
      | nil =>
          obtain ⟨cs, hcs, -⟩ := hr.exists_lookahead _
          rw [← hsplit] at hcs
          contradiction
      | keep hstart' h' => exact absurd ⟨_, hsplit.symm⟩ (hstart' _ hr)
      | replace hr' hsplit' h' =>
          obtain ⟨rfl, rfl⟩ := hr.eq_of_append hr' (hsplit.symm.trans hsplit')
          obtain ⟨rfl, rfl⟩ := ih h'
          exact ⟨rfl, rfl⟩

/-- Plain text stays, whatever is replaced behind it. -/
theorem plain {front : List Char} (hfront : IsPlain front) (hrest : EndsText rest)
    (h : Replaced replacement rest result refs) :
    Replaced replacement (front ++ rest) (front ++ result) refs := by
  induction front with
  | nil => exact h
  | cons c front ih =>
      refine .keep (fun r hr hprefix => ?_) (ih hfront.of_cons)
      obtain ⟨back, hback⟩ := hprefix
      obtain ⟨cs, hcs, hfound⟩ := hr.exists_lookahead back
      obtain ⟨rfl, rfl⟩ : c = '<' ∧ front ++ rest = cs := List.cons.inj (hback.symm.trans hcs)
      rw [referenceAfter?_of_isPlain hfront hrest] at hfound
      contradiction

end Replaced

/-- Whether a piece is a call. -/
def Node.IsCall : Node → Prop
  | .call _ _ => True
  | _ => False

/-- The references among the pieces, in order. -/
def references : List Node → List Reference
  | [] => []
  | .reference r :: ns => r :: references ns
  | _ :: ns => references ns

/-- What is shown for a reference: its value, or else the reference as it is
written. -/
def Reference.shown (s : Scope) (r : Reference) : String :=
  match s.resolve r with
  | .ok value => value
  | .error _ => r.print

/-- The stand-in for a reference without a value. -/
def Reference.standIn? (s : Scope) (r : Reference) : Option StandIn :=
  match s.resolve r with
  | .ok _ => none
  | .error fault => some ⟨r.print, .lookup fault⟩

theorem Reference.orStandIn_eq (s : Scope) (r : Reference) :
    orStandIn r.print (r.value s) = (r.shown s, (r.standIn? s).toList) := by
  unfold Reference.value Reference.shown Reference.standIn?
  cases s.resolve r <;> rfl

/-- Pieces without calls have as their lenient value the text with the references
replaced, and a stand-in for each reference without a value. -/
theorem lenientValueOf_of_callFree (s : Scope) {ns : List Node} (hns : WellFormed ns)
    (hcalls : ∀ n ∈ ns, ¬ n.IsCall) :
    Replaced (Reference.shown s) (printAll ns).toList (lenientValueOf s ns).1.toList
        (references ns) ∧
      (lenientValueOf s ns).2 = (references ns).filterMap (Reference.standIn? s) := by
  induction ns with
  | nil => exact ⟨.nil, rfl⟩
  | cons n ns ih =>
      obtain ⟨hn, hnext, hrest⟩ := hns
      obtain ⟨hcall, hcalls⟩ := List.forall_mem_cons.mp hcalls
      obtain ⟨hreplaced, hstandIns⟩ := ih hrest hcalls
      rw [printAll, lenientValueOf]
      cases n with
      | plain text =>
          have hends : EndsText (printAll ns).toList := by
            have hstart : ¬ StartsWithText ns := fun h => hnext ⟨trivial, h⟩
            have hnothing : EndsText [] := by simp
            simpa using endsText_printAll hstart hnothing
          rw [Node.print, Node.lenientValue, String.toList_append, String.toList_append]
          exact ⟨hreplaced.plain hn.2 hends, hstandIns⟩
      | reference r =>
          rw [Node.print, Node.lenientValue, Reference.orStandIn_eq, String.toList_append,
            String.toList_append]
          refine ⟨.replace hn rfl hreplaced, ?_⟩
          show (r.standIn? s).toList ++ (lenientValueOf s ns).2 =
            (r :: references ns).filterMap (Reference.standIn? s)
          rw [hstandIns, List.filterMap_cons]
          cases r.standIn? s <;> rfl
      | call name args => exact absurd trivial hcall

/-- Where no reference has a value, nothing changes. -/
theorem Replaced.eq_of_unresolved {s : Scope} (h : Replaced (Reference.shown s) text result refs)
    (hrefs : ∀ r ∈ refs, ∃ fault, s.resolve r = .error fault) : result = text := by
  induction h with
  | nil => rfl
  | keep hstart h ih => rw [ih hrefs]
  | replace hr hsplit h ih =>
      obtain ⟨⟨fault, hfault⟩, hrest⟩ := List.forall_mem_cons.mp hrefs
      rw [ih hrest, hsplit, Reference.shown, hfault]

theorem filterMap_standIn?_eq_nil {s : Scope}
    (hrefs : ∀ r ∈ refs, ∃ value, s.resolve r = .ok value) :
    refs.filterMap (Reference.standIn? s) = [] := by
  refine List.filterMap_eq_nil_iff.mpr fun r hr => ?_
  obtain ⟨value, hvalue⟩ := hrefs r hr
  rw [Reference.standIn?, hvalue]

/-- Without calls, the strict value is missing only for a reference. -/
theorem valueOf_of_callFree (s : Scope) {ns : List Node} (hns : WellFormed ns)
    (hcalls : ∀ n ∈ ns, ¬ n.IsCall) :
    valueOf s ns =
      settle ((lenientValueOf s ns).1, (references ns).filterMap (Reference.standIn? s)) := by
  rw [valueOf_eq_settle, ← (lenientValueOf_of_callFree s hns hcalls).2]

/-- A text without a reference and without a call is read as it is. -/
theorem read_of_isPlain {template : String} (hplain : IsPlain template.toList) :
    ∃ nodes, read template = .ok nodes ∧ (∀ n ∈ nodes, ¬ n.IsCall) ∧ references nodes = [] := by
  by_cases hempty : template = ""
  · refine ⟨[], read_eq_ok_iff.mpr ⟨trivial, hempty.symm⟩, by simp, rfl⟩
  · have hns : WellFormed [.plain template] :=
      ⟨⟨hempty, hplain⟩, fun h => h.2, trivial⟩
    refine ⟨[.plain template], read_eq_ok_iff.mpr ⟨hns, printAll_singleton _⟩, ?_, rfl⟩
    exact List.forall_mem_singleton.mpr id

end VersionTrail.Template

namespace VersionTrail.Output

open VersionTrail.Template (Scope Node Reference Replaced IsPlain)

/-- What a template without calls comes to: a text and the references that were
replaced in it. -/
structure Substitutes (output template : String) (s : Scope) (value : String)
    (refs : List Reference) : Prop where
  replaced : Replaced (Reference.shown s) template.toList value.toList refs
  /-- Lenient evaluation warns of each reference without a value, in order. -/
  lenient : evaluateText false output template s =
    ⟨(refs.filterMap (Reference.standIn? s)).map (.standIn output template), .ok value⟩
  strict : (∀ r ∈ refs, ∃ v, s.resolve r = .ok v) →
    evaluateText true output template s = ⟨[], .ok value⟩
  /-- Strict evaluation fails at the first reference without a value. -/
  stopped : ∀ before r after fault, refs = before ++ r :: after →
    (∀ earlier ∈ before, ∃ v, s.resolve earlier = .ok v) → s.resolve r = .error fault →
    evaluateText true output template s =
      ⟨[], .error (.template output template (.noValue (.lookup fault)))⟩
  /-- Where no reference has a value, the template stays as it is. -/
  unresolved : (∀ r ∈ refs, ∃ fault, s.resolve r = .error fault) → value = template

variable {output template : String} {s : Scope} {nodes : List Node}

theorem substitutes_of_read (hread : Template.read template = .ok nodes)
    (hcalls : ∀ n ∈ nodes, ¬ n.IsCall) (output : String) (s : Scope) :
    Substitutes output template s (Template.lenientValueOf s nodes).1
      (Template.references nodes) := by
  have hns := Template.wellFormed_of_read hread
  obtain ⟨hreplaced, hstandIns⟩ := Template.lenientValueOf_of_callFree s hns hcalls
  have hvalue := Template.valueOf_of_callFree s hns hcalls
  have hstrict : evaluateText true output template s =
      .ofExcept ((Template.valueOf s nodes).mapError (valueFailure output template)) := by
    rw [evaluateText, hread]
    rfl
  rw [Template.printAll_read hread] at hreplaced
  refine ⟨hreplaced, ?_, fun hall => ?_, fun before r after fault hsplit hbefore hfault => ?_,
    fun hnone => ?_⟩
  · rw [evaluateText, hread, ← hstandIns]
    rfl
  · rw [hstrict, hvalue, Template.filterMap_standIn?_eq_nil hall]
    rfl
  · have hquiet := Template.filterMap_standIn?_eq_nil hbefore
    have hfirst : r.standIn? s = some ⟨r.print, .lookup fault⟩ := by
      rw [Reference.standIn?, hfault]
    rw [hstrict, hvalue, hsplit, List.filterMap_append, hquiet, List.nil_append,
      List.filterMap_cons_some hfirst]
    rfl
  · exact String.toList_inj.mp (hreplaced.eq_of_unresolved hnone)

/-- A template without calls comes to one text, its own with the references replaced.
A text in which no reference and no call is written comes to itself. -/
theorem evaluateText_substitutes (output template : String) (s : Scope) :
    (∀ nodes, Template.read template = .ok nodes → (∀ n ∈ nodes, ¬ n.IsCall) →
      ∃ value refs, Substitutes output template s value refs ∧
        ∀ result refs', Replaced (Reference.shown s) template.toList result refs' →
          result = value.toList ∧ refs' = refs) ∧
    (IsPlain template.toList →
      ∀ strict, evaluateText strict output template s = ⟨[], .ok template⟩) := by
  refine ⟨fun nodes hread hcalls => ?_, fun hplain strict => ?_⟩
  · have h := substitutes_of_read hread hcalls output s
    exact ⟨_, _, h, fun result refs' h' => h.replaced.unique h'⟩
  · obtain ⟨nodes, hread, hcalls, hrefs⟩ := Template.read_of_isPlain hplain
    have h := substitutes_of_read hread hcalls output s
    have hvalue := h.unresolved (by simp [hrefs])
    have hstrict := h.strict (by simp [hrefs])
    have hlenient := h.lenient
    rw [hvalue] at hstrict hlenient
    rw [hrefs] at hlenient
    cases strict with
    | true => exact hstrict
    | false => exact hlenient

/-- Among marks that open nothing, one reference has a value and one has none. -/
theorem evaluateText_substitutes_mixed :
    let template := "1 < <Match:n>, <gone> $5)"
    let text := "(1 < 2, <> $5"
    let s : Scope := { parameters := .ofList [("n", "7")] }
    (∃ refs, Substitutes "Out" template s "1 < 7, <gone> $5)" refs) ∧
      ∀ strict, evaluateText strict "Out" text s = ⟨[], .ok text⟩ := by
  intro template text s
  have hread : Template.read "1 < <Match:n>, <gone> $5)" =
      .ok [.plain "1 < ", .reference ⟨some "Match", "n"⟩, .plain ", ",
        .reference ⟨none, "gone"⟩, .plain " $5)"] := by
    rfl
  have htext : Template.read "(1 < 2, <> $5" = .ok [.plain "(1 < 2, <> $5"] := by
    rfl
  have hplain : IsPlain text.toList := (Template.wellFormed_of_read htext).1.2
  obtain ⟨value, refs, h, -⟩ :=
    (evaluateText_substitutes "Out" template s).1 _ hread (by simp [Node.IsCall])
  have hvalue : (evaluateText false "Out" template s).outcome = .ok "1 < 7, <gone> $5)" := by
    decide +kernel
  rw [h.lenient] at hvalue
  obtain rfl := Except.ok.inj hvalue
  exact ⟨⟨refs, h⟩, (evaluateText_substitutes "Out" text s).2 hplain⟩

end VersionTrail.Output
