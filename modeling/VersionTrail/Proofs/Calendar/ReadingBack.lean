/-
# Dates read back

A moment of a whole second, with an offset of whole minutes and in a year of four
digits, is shown in the notation of RFC 3339, and reading that text gives the moment
back. Every number in the text has a fixed width, so a reader that takes as many
digits gets the number and what stands behind it. The names of days count the same
days, so the date and the time of the day lead back to the second.
-/
import VersionTrail.Calendar.Format
import VersionTrail.Calendar.Reader
import VersionTrail.Proofs.Calendar.Civil
import VersionTrail.Proofs.Text.Numeral

namespace VersionTrail.Text

variable {width n : Nat}

theorem length_paddedDigits (hwidth : 0 < width) (hn : n < 10 ^ width) :
    (paddedDigits width n).length = width := by
  rw [paddedDigits, List.length_leftpad, Nat.max_eq_left]
  exact (Nat.length_toDigits_le_iff (by decide) hwidth).mpr hn

theorem isDigit_of_mem_paddedDigits {c : Char} (hc : c ∈ paddedDigits width n) :
    c.isDigit = true := by
  rcases List.mem_append.mp hc with hzero | hdigit
  · rw [List.eq_of_mem_replicate hzero]
    decide
  · exact Nat.isDigit_of_mem_toDigits (by decide) (by decide) hdigit

/-- Zeros in front do not count. -/
@[simp]
theorem ofDigitChars_paddedDigits : Nat.ofDigitChars 10 (paddedDigits width n) 0 = n := by
  rw [paddedDigits, List.leftpad, Nat.ofDigitChars_append, Nat.ofDigitChars_replicate_zero,
    Nat.mul_zero, Nat.ofDigitChars_ten_toDigits]

end VersionTrail.Text

namespace VersionTrail.Calendar

open VersionTrail.Text

variable {width n : Nat}

theorem bind_eq_some {α β : Type} {o : Option α} {a : α} {f : α → Option β} {b : β}
    (ho : o = some a) (hf : f a = some b) : o >>= f = some b :=
  Option.bind_eq_some_iff.mpr ⟨a, ho, hf⟩

theorem digitRun?_append {ds : List Char} (hdigits : ∀ d ∈ ds, d.isDigit = true)
    (rest : List Char) :
    digitRun? ds.length ds.length (ds ++ rest) = some (Nat.ofDigitChars 10 ds 0, rest) := by
  have hrun : ((ds ++ rest).take ds.length).takeWhile Char.isDigit = ds := by
    rw [List.take_left, List.takeWhile_eq_self_iff.mpr hdigits]
  rw [digitRun?, hrun]
  simp

/-- A number of a width is read by taking as many digits. -/
theorem digitRun?_paddedDigits (hwidth : 0 < width) (hn : n < 10 ^ width) (rest : List Char) :
    digitRun? width width (paddedDigits width n ++ rest) = some (n, rest) := by
  have hdigits : ∀ d ∈ paddedDigits width n, d.isDigit = true := fun _ hd =>
    isDigit_of_mem_paddedDigits hd
  have hrun := digitRun?_append hdigits rest
  rwa [length_paddedDigits hwidth hn, ofDigitChars_paddedDigits] at hrun

theorem digitRun?_two (hn : n < 100) (rest : List Char) :
    digitRun? 2 2 (paddedDigits 2 n ++ rest) = some (n, rest) :=
  digitRun?_paddedDigits (by decide) hn rest

theorem twoDigits_zero (hn : n < 100) : twoDigits .zero n = paddedDigits 2 n := by
  have hdigit : ∀ tens < 10, Char.ofNat (48 + tens) = Nat.digitChar tens := by decide
  have htens : n / 10 < 10 := by omega
  have hshown : twoDigits .zero n = [Nat.digitChar (n / 10)] ++ [Nat.digitChar (n % 10)] := by
    rw [← hdigit _ htens, twoDigits] <;> simp
  rw [hshown, paddedDigits, List.leftpad]
  by_cases hone : n < 10
  · rw [Nat.div_eq_of_lt hone, Nat.mod_eq_of_lt hone, Nat.toDigits_of_lt_base hone]
    rfl
  · rw [Nat.toDigits_of_base_le (by decide) (Nat.le_of_not_lt hone), Nat.toDigits_of_lt_base htens]
    rfl

theorem yearDigits_zero {year : Int} (hyear : 0 ≤ year ∧ year ≤ 9999) :
    yearDigits .zero year = paddedDigits 4 year.toNat := by
  have hplain : year.natAbs = year.toNat := by omega
  have hsign : ¬ year < 0 := by omega
  by_cases hlong : 1000 ≤ year
  · have hlength : ¬ (Nat.toDigits 10 year.toNat).length ≤ 3 := by
      rw [Nat.length_toDigits_le_iff (by decide) (by decide)]
      omega
    rw [yearDigits, if_pos ⟨hlong, hyear.2⟩, padded, if_neg hsign, hplain, paddedDigits,
      List.leftpad, Nat.sub_eq_zero_of_le (by omega)]
    rfl
  · rw [yearDigits, if_neg (by omega), if_pos (by omega), padded, if_neg hsign, hplain]
    simp [paddedDigits, List.leftpad]

theorem offsetSign_eq (offset : Int) : offsetSign offset = '-' ∨ offsetSign offset = '+' := by
  rw [offsetSign]
  exact ite_eq_or_eq _ _ _

/-- The format of RFC 3339 has a date, the time of the day and the offset. -/
theorem formatItems?_rfc3339 : formatItems? "%Y-%m-%dT%H:%M:%S%:z" =
    some (joined '-' [zeroed .year, zeroed .month, zeroed .day] ++ .literal 'T' :: clock ++
      [.offset .minutes true]) := by
  decide

@[simp]
theorem mark?_cons_self (c : Char) (cs : List Char) : mark? c (c :: cs) = some cs :=
  if_pos rfl

/-- Behind its sign an offset is a number of hours and one of minutes. -/
theorem offset?_cons {sign : Char} (hsign : sign = '-' ∨ sign = '+') {hours minutes : Nat}
    (hhours : hours < 24) (hminutes : minutes < 60) :
    offset? (sign :: (paddedDigits 2 hours ++ ':' :: paddedDigits 2 minutes)) =
      some (if sign = '+' then ((hours * 60 + minutes : Nat) : Int) * 60
        else -(((hours * 60 + minutes : Nat) : Int) * 60), []) := by
  have hread (cs : List Char) : offset? (sign :: cs) =
      (digitRun? 2 2 cs).bind fun hours =>
        (mark? ':' hours.2).bind fun rest =>
          (digitRun? 2 2 rest).bind fun minutes =>
            if 59 < minutes.1 ∨ 23 < hours.1 then none
            else some (if sign = '+' then ((hours.1 * 60 + minutes.1 : Nat) : Int) * 60
              else -(((hours.1 * 60 + minutes.1 : Nat) : Int) * 60), minutes.2) := by
    rcases hsign with rfl | rfl <;> rfl
  have hlast := digitRun?_two (by omega : minutes < 100) []
  rw [List.append_nil] at hlast
  have hclock : ¬ (59 < minutes ∨ 23 < hours) := by omega
  rw [hread]
  simp only [digitRun?_two (by omega : hours < 100), Option.bind_some, mark?_cons_self, hlast,
    if_neg hclock]

theorem offset?_offsetText {minutes : Int} (hoffset : -1440 < minutes ∧ minutes < 1440) :
    offset? (offsetText .minutes true (minutes * 60)) = some (minutes * 60, []) := by
  have htotal : ((minutes * 60).natAbs + 30) / 60 = minutes.natAbs := by omega
  have htext : offsetText .minutes true (minutes * 60) =
      offsetSign (minutes * 60) ::
        (paddedDigits 2 (minutes.natAbs / 60) ++ ':' :: paddedDigits 2 (minutes.natAbs % 60)) := by
    rw [offsetText, htotal, if_pos rfl, List.append_assoc]
    rfl
  rw [htext, offset?_cons (offsetSign_eq _) (by omega) (by omega), offsetSign, Option.some.injEq,
    Prod.mk.injEq]
  refine ⟨?_, rfl⟩
  by_cases hneg : minutes * 60 < 0
  · rw [if_pos hneg, if_neg (by decide)]
    omega
  · rw [if_neg hneg, if_pos rfl]
    omega

namespace Moment

variable {m : Moment}

/-- The local date and time with the offset are the moment. -/
@[simp]
theorem ofLocal_date_time (m : Moment) : Moment.ofLocal m.date m.time m.offset = m := by
  rw [Moment.ofLocal, Moment.date, Date.toDays_ofDays, Moment.time, Moment.localSeconds]
  cases m
  simp only [Moment.mk.injEq, and_true]
  omega

theorem time_lt (m : Moment) : m.time.hour < 24 ∧ m.time.minute < 60 ∧ m.time.second < 60 := by
  rw [Moment.time]
  dsimp only
  omega

section FourDigits

variable (hnanos : m.nanos = 0) (hyear : 0 ≤ m.date.year ∧ m.date.year ≤ 9999)

include hyear in
theorem isValid_date : m.date.isValid = true :=
  Date.isValid_ofDays (Int.le_trans (by decide) hyear.1) (Int.le_trans hyear.2 (by decide))

include hyear in
/-- Besides the year, two digits are enough. -/
theorem fields_lt :
    m.date.month < 100 ∧ m.date.day < 100 ∧
      m.time.hour < 100 ∧ m.time.minute < 100 ∧ m.time.second < 100 := by
  have hlength : daysInMonth m.date.year m.date.month ≤ 31 := by
    rw [daysInMonth]
    split_ifs <;> decide
  have hvalid := isValid_date hyear
  simp only [Date.isValid, Bool.and_eq_true, decide_eq_true_eq] at hvalid
  have htime := m.time_lt
  omega

include hnanos in
theorem shownSecond_time : m.time.shownSecond = m.time.second := by
  have htime : m.time.nanos = 0 := hnanos
  rw [TimeOfDay.shownSecond, htime, Nat.zero_div, Nat.add_zero]

include hnanos in
theorem timeOfDay?_time :
    timeOfDay? m.time.hour m.time.minute m.time.second 0 = some m.time := by
  obtain ⟨hhour, hminute, hsecond⟩ := m.time_lt
  have htime : m.time = ⟨m.time.hour, m.time.minute, m.time.second, 0⟩ := by
    rw [← hnanos]
    rfl
  rw [timeOfDay?, if_neg (by omega), if_neg (by omega), ← htime]

include hnanos hyear

/-- The notation of RFC 3339 is a chain of numbers with marks between them. -/
theorem text3339_eq :
    text3339 m = String.ofList (paddedDigits 4 m.date.year.toNat ++
      '-' :: (paddedDigits 2 m.date.month ++ '-' :: (paddedDigits 2 m.date.day ++
      'T' :: (paddedDigits 2 m.time.hour ++ ':' :: (paddedDigits 2 m.time.minute ++
      ':' :: (paddedDigits 2 m.time.second ++ offsetText .minutes true m.offset)))))) := by
  have hfraction : shortFraction m.nanos = [] := by rw [hnanos]; rfl
  rw [text3339, localText3339, yearText3339, if_pos hyear, hfraction, shownSecond_time hnanos]
  simp only [List.append_assoc, List.cons_append, List.append_nil]

/-- A date, the time of the day and the offset are shown as in RFC 3339. -/
theorem format_rfc3339 : m.format "%Y-%m-%dT%H:%M:%S%:z" = .ok (text3339 m) := by
  obtain ⟨hmonth, hday, hhour, hminute, hsecond⟩ := fields_lt hyear
  rw [Moment.format, formatItems?_rfc3339, text3339_eq hnanos hyear]
  simp [joined, clock, zeroed, renderItems?, Item.render?, Field.render, yearDigits_zero hyear,
    shownSecond_time hnanos, twoDigits_zero hmonth, twoDigits_zero hday, twoDigits_zero hhour,
    twoDigits_zero hminute, twoDigits_zero hsecond]

/-- What is shown as in RFC 3339 is read back, one number after the other. -/
theorem read3339?_text3339 {minutes : Int} (hoffset : -1440 < minutes ∧ minutes < 1440)
    (hm : m.offset = minutes * 60) : read3339? (text3339 m).toList = some m := by
  obtain ⟨hmonth, hday, hhour, hminute, hsecond⟩ := fields_lt hyear
  have hfour (rest : List Char) : digitRun? 4 4 (paddedDigits 4 m.date.year.toNat ++ rest) =
      some (m.date.year.toNat, rest) := digitRun?_paddedDigits (by decide) (by omega) rest
  have hdate : date? m.date.year.toNat m.date.month m.date.day = some m.date := by
    rw [Int.toNat_of_nonneg hyear.1]
    exact if_pos (isValid_date hyear)
  have hread := offset?_offsetText hoffset
  rw [← hm] at hread
  obtain ⟨digits, htext⟩ : ∃ digits, offsetText .minutes true m.offset =
      offsetSign m.offset :: digits := ⟨_, rfl⟩
  rw [text3339_eq hnanos hyear, String.toList_ofList]
  rcases offsetSign_eq m.offset with hsign | hsign
  all_goals
    rw [htext, hsign] at hread ⊢
    refine bind_eq_some (hfour _) (bind_eq_some (mark?_cons_self _ _) ?_)
    refine bind_eq_some (digitRun?_two hmonth _) (bind_eq_some (mark?_cons_self _ _) ?_)
    refine bind_eq_some (digitRun?_two hday _) (bind_eq_some rfl ?_)
    refine bind_eq_some (digitRun?_two hhour _) (bind_eq_some (mark?_cons_self _ _) ?_)
    refine bind_eq_some (digitRun?_two hminute _) (bind_eq_some (mark?_cons_self _ _) ?_)
    -- The sign in front of the offset is not the point of a fraction.
    refine bind_eq_some (digitRun?_two hsecond _) (bind_eq_some (a := (0, _)) rfl ?_)
    refine bind_eq_some hread (bind_eq_some hdate (bind_eq_some (timeOfDay?_time hnanos) ?_))
    exact congrArg some (ofLocal_date_time m)

theorem not_isBlank_of_mem_text3339 : ∀ c ∈ (text3339 m).toList, isBlank c = false := by
  have hnumber (width n : Nat) : ∀ c ∈ paddedDigits width n, isBlank c = false := fun c hc =>
    not_isBlank_of_isDigit (isDigit_of_mem_paddedDigits hc)
  have hmarks : isBlank '-' = false ∧ isBlank 'T' = false ∧ isBlank ':' = false := by decide
  have hsign : isBlank (offsetSign m.offset) = false := by
    rcases offsetSign_eq m.offset with hsign | hsign <;> rw [hsign] <;> decide
  rw [text3339_eq hnanos hyear, String.toList_ofList, offsetText]
  simp only [List.forall_mem_append, List.forall_mem_cons, List.not_mem_nil, IsEmpty.forall_iff,
    implies_true, and_true, true_and, if_true, hsign, hmarks]
  and_intros <;> exact hnumber _ _

/-- The text in the notation of RFC 3339 is a date, and the moment is what it says. -/
theorem readMoment?_text3339 {minutes : Int} (hoffset : -1440 < minutes ∧ minutes < 1440)
    (hm : m.offset = minutes * 60) : readMoment? (text3339 m) = some m := by
  rw [readMoment?, trim_of_not_blank (not_isBlank_of_mem_text3339 hnanos hyear),
    read3339?_text3339 hnanos hyear hoffset hm]
  rfl

end FourDigits

/-- A count of seconds and an offset are a moment where the local year is known, and not
the first or the last known year: the year of universal time is another by one at most. -/
theorem ofSeconds?_eq_some (hnanos : m.nanos = 0) (hoffset : -86400 < m.offset ∧ m.offset < 86400)
    (hyear : firstYear < m.date.year ∧ m.date.year < lastYear) :
    Moment.ofSeconds? m.seconds m.offset = some m := by
  have hbefore : (Date.ofDays (m.seconds / 86400)).year ≤ m.date.year + 1 :=
    Date.year_le_year_add_one (by rw [localSeconds]; omega)
  have hafter : m.date.year ≤ (Date.ofDays (m.seconds / 86400)).year + 1 :=
    Date.year_le_year_add_one (by rw [localSeconds]; omega)
  have hknown : offsetFits m.offset = true ∧
      firstYear ≤ (Date.ofDays (m.seconds / 86400)).year ∧
      (Date.ofDays (m.seconds / 86400)).year ≤ lastYear := by
    refine ⟨?_, by omega, by omega⟩
    simpa [offsetFits] using hoffset
  have hm : Moment.mk m.seconds 0 m.offset = m := by rw [← hnanos]
  rw [ofSeconds?, if_pos hknown, hm]

end Moment

end VersionTrail.Calendar
