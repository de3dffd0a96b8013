/-
# Days and their names

Every count of days names a day of the calendar, and the name counts the same days.
Both directions go through years that start on 1 March: a day is named by such a
year and the number of the day in it, so that the leap day can only be the last one.
Four hundred of these years are an era. Where a day lies in its era is told by its
century, the group of four years in the century, the year in the group and the day
in the year; the last year of a group is a year longer by one day, unless it ends a
century that does not end the era.
-/
import VersionTrail.Calendar.Civil

namespace VersionTrail.Calendar

/-- The day with a number in the year that starts on 1 March of a year. The first
one has number zero. -/
def Date.ofMarch (year n : Int) : Date :=
  let month := (5 * n + 2) / 153
  let m := if month < 10 then month + 3 else month - 9
  ⟨if m ≤ 2 then year + 1 else year, m.toNat, (n - (153 * month + 2) / 5 + 1).toNat⟩

/-- How many days lie between 1 March of year zero and 1 March of a year. -/
def daysToMarch (year : Int) : Int :=
  365 * year + year / 4 - year / 100 + year / 400

/-- Whether a number is that of a day in the year that starts on 1 March of a year.
Day 365 is the leap day of the year after. -/
def InMarchYear (year n : Int) : Prop :=
  0 ≤ n ∧ n ≤ 365 ∧ (n = 365 → isLeap (year + 1) = true)

/-- Where a day lies in its era: the century, the group of four years, the year in
the group, and the number of the day in the year. -/
structure Place (day century group year n : Int) : Prop where
  day_eq : day = 36524 * century + 1461 * group + 365 * year + n
  century_le : 0 ≤ century ∧ century ≤ 3
  group_le : 0 ≤ group ∧ group ≤ 24
  year_le : 0 ≤ year ∧ year ≤ 3
  n_le : 0 ≤ n ∧ n ≤ 365
  /-- The leap day ends a group, and a century only at the end of the era. -/
  leap : n = 365 → year = 3 ∧ (group = 24 → century = 3)

variable {day century group year n : Int}

theorem exists_place (hday : 0 ≤ day) (hera : day < 146097) :
    ∃ century group year n, Place day century group year n := by
  let century := min (day / 36524) 3
  let group := (day - 36524 * century) / 1461
  let year := min ((day - 36524 * century - 1461 * group) / 365) 3
  refine ⟨century, group, year, day - 36524 * century - 1461 * group - 365 * year, ?_⟩
  constructor <;> omega

namespace Place

variable (h : Place day century group year n)
include h

/-- The year of a day is found by taking away the leap days in front of it. -/
theorem yearOfEra_eq :
    (day - day / 1460 + day / 36524 - day / 146096) / 365 = 100 * century + 4 * group + year := by
  obtain ⟨hday, hcentury, hgroup, hyear, hn, hleap⟩ := h
  by_cases hlast : day = 146096
  · have hplace : century = 3 ∧ group = 24 ∧ year = 3 := by omega
    omega
  · have heras : day / 146096 = 0 := by omega
    have hcenturies : day / 36524 = century := by omega
    -- Only a year that ends a group can have one more group counted in front of it.
    have hgroups : 25 * century + group ≤ day / 1460 ∧
        day / 1460 ≤ 25 * century + group + 1 := by omega
    have hmore : day / 1460 = 25 * century + group + 1 → year = 3 := by omega
    omega

theorem daysToMarch_eq (era : Int) :
    daysToMarch (400 * era + (100 * century + 4 * group + year)) =
      146097 * era + (day - n) := by
  obtain ⟨hday, hcentury, hgroup, hyear, hn, hleap⟩ := h
  rw [daysToMarch]
  omega

theorem inMarchYear (era : Int) :
    InMarchYear (400 * era + (100 * century + 4 * group + year)) n := by
  obtain ⟨hday, hcentury, hgroup, hyear, hn, hleap⟩ := h
  refine ⟨hn.1, hn.2, fun hlast => ?_⟩
  obtain ⟨rfl, hend⟩ := hleap hlast
  simp only [isLeap, Bool.and_eq_true, Bool.or_eq_true, beq_iff_eq, bne_iff_ne]
  omega

end Place

/-- Every count of days is one of a day in a year from March. -/
theorem Date.exists_ofMarch (count : Int) :
    ∃ year n, InMarchYear year n ∧ daysToMarch year + n = count + 719468 ∧
      Date.ofDays count = Date.ofMarch year n := by
  let era := (count + 719468) / 146097
  let day := count + 719468 - era * 146097
  obtain ⟨century, group, year, n, h⟩ : ∃ century group year n, Place day century group year n :=
    exists_place (by omega) (by omega)
  have hn : day - (365 * (100 * century + 4 * group + year) +
      (100 * century + 4 * group + year) / 4 - (100 * century + 4 * group + year) / 100) = n := by
    have hplace := h.daysToMarch_eq 0
    rw [daysToMarch] at hplace
    have := h.century_le
    have := h.group_le
    have := h.year_le
    omega
  refine ⟨400 * era + (100 * century + 4 * group + year), n, h.inMarchYear era, ?_, ?_⟩
  · rw [h.daysToMarch_eq]
    omega
  · show Date.ofMarch ((day - day / 1460 + day / 36524 - day / 146096) / 365 + era * 400) _ = _
    rw [h.yearOfEra_eq, hn, Int.add_comm, Int.mul_comm]

/-- A day of a year from March has a month, counted from March, and a number in it. -/
theorem Date.exists_month (h : InMarchYear year n) :
    ∃ month day : Nat, month ≤ 11 ∧ 1 ≤ day ∧
      n + 1 = ((153 * month + 2) / 5 + day : Nat) ∧ n < ((153 * (month + 1) + 2) / 5 : Nat) ∧
      Date.ofMarch year n =
        if month < 10 then ⟨year, month + 3, day⟩ else ⟨year + 1, month - 9, day⟩ := by
  obtain ⟨hn, hn', -⟩ := h
  obtain ⟨month, hmonth⟩ := Int.eq_ofNat_of_zero_le (by omega : 0 ≤ (5 * n + 2) / 153)
  refine ⟨month, (n - (153 * month + 2) / 5 + 1).toNat, by omega, by omega, by omega, by omega, ?_⟩
  simp only [Date.ofMarch, hmonth]
  by_cases hearly : month < 10
  · rw [if_pos (by omega : (month : Int) < 10), if_neg (by omega), if_pos hearly, Date.mk.injEq]
    omega
  · rw [if_neg (by omega : ¬ (month : Int) < 10), if_pos (by omega), if_neg hearly,
      Date.mk.injEq]
    omega

theorem Date.toDays_ofMarch (h : InMarchYear year n) :
    (Date.ofMarch year n).toDays = daysToMarch year + n - 719468 := by
  obtain ⟨month, day, hmonth, hday, hn, -, heq⟩ := exists_month h
  rw [heq, daysToMarch]
  split
  · rw [Date.toDays]
    dsimp only
    rw [if_neg (by omega)]
    omega
  · rw [Date.toDays]
    dsimp only
    rw [if_pos (by omega)]
    omega

/-- A day of a year from March is a day of its month. -/
theorem Date.day_le_ofMarch (h : InMarchYear year n) :
    (1 ≤ (Date.ofMarch year n).month ∧ (Date.ofMarch year n).month ≤ 12) ∧
      1 ≤ (Date.ofMarch year n).day ∧
      (Date.ofMarch year n).day ≤
        daysInMonth (Date.ofMarch year n).year (Date.ofMarch year n).month := by
  obtain ⟨month, day, hmonth, hday, hn, hnext, heq⟩ := exists_month h
  rw [heq]
  by_cases hearly : month < 10
  · rw [if_pos hearly]
    refine ⟨⟨by simp, Nat.succ_le_of_lt (Nat.add_lt_add_right hearly 2)⟩, hday, ?_⟩
    simp only [daysInMonth, if_neg (by omega : ¬ month + 3 = 2)]
    split <;> omega
  · rw [if_neg hearly]
    rcases (by omega : month = 10 ∨ month = 11) with rfl | rfl
    · refine ⟨(by decide : 1 ≤ 1 ∧ 1 ≤ 12), hday, ?_⟩
      show day ≤ 31
      omega
    · refine ⟨(by decide : 1 ≤ 2 ∧ 2 ≤ 12), hday, ?_⟩
      show day ≤ if isLeap (year + 1) then 29 else 28
      split
      · have := h.2.1
        omega
      · rename_i hplain
        have hlast : n ≠ 365 := fun hlast => hplain (h.2.2 hlast)
        have := h.2.1
        omega

/-- The day with a number has that number. -/
@[simp]
theorem Date.toDays_ofDays (count : Int) : (Date.ofDays count).toDays = count := by
  obtain ⟨year, n, h, hcount, heq⟩ := Date.exists_ofMarch count
  rw [heq, toDays_ofMarch h, hcount, Int.add_sub_cancel]

/-- A number names a day of the calendar where its year is known. -/
theorem Date.isValid_ofDays {count : Int} (hfirst : firstYear ≤ (Date.ofDays count).year)
    (hlast : (Date.ofDays count).year ≤ lastYear) : (Date.ofDays count).isValid = true := by
  obtain ⟨year, n, h, -, heq⟩ := Date.exists_ofMarch count
  obtain ⟨hmonth, hday⟩ := day_le_ofMarch h
  rw [← heq] at hmonth hday
  simp [Date.isValid, hfirst, hlast, hmonth, hday]

theorem daysToMarch_add_le {year later : Int} (hlater : year < later) :
    daysToMarch year + 364 ≤ daysToMarch later := by
  have hfours : year / 4 ≤ later / 4 := Int.ediv_le_ediv (by decide) (by omega)
  have hcenturies : later / 100 ≤ year / 100 + (later - year) := by omega
  have heras : year / 400 ≤ later / 400 := Int.ediv_le_ediv (by decide) (by omega)
  simp only [daysToMarch]
  -- The leap days are counted one by one; what divides the years no longer matters.
  generalize year / 4 = fours, year / 100 = centuries, year / 400 = eras,
    later / 4 = fours', later / 100 = centuries', later / 400 = eras' at *
  omega

/-- A day that is at most one day later than another one lies at most one year later. -/
theorem Date.year_le_year_add_one {count other : Int} (hnext : count ≤ other + 1) :
    (Date.ofDays count).year ≤ (Date.ofDays other).year + 1 := by
  obtain ⟨year, n, h, hcount, heq⟩ := Date.exists_ofMarch count
  obtain ⟨year', n', h', hcount', heq'⟩ := Date.exists_ofMarch other
  obtain ⟨month, day, -, -, hday, -, hname⟩ := Date.exists_month h
  obtain ⟨month', day', -, -, -, -, hname'⟩ := Date.exists_month h'
  obtain ⟨hn, -, -⟩ := h
  obtain ⟨-, hn', -⟩ := h'
  -- A year from March that starts within the other one has just begun.
  have hmarch : year ≤ year' ∨ year = year' + 1 ∧ n ≤ 2 := by
    rcases (by omega : year ≤ year' ∨ year = year' + 1 ∨ year' + 1 < year) with hle | rfl | hlate
    · exact .inl hle
    · have hfirst := daysToMarch_add_le (by omega : year' < year' + 1)
      exact .inr ⟨rfl, by omega⟩
    · have hfirst := daysToMarch_add_le (by omega : year' < year' + 1)
      have hsecond := daysToMarch_add_le hlate
      omega
  rw [heq, heq', hname, hname']
  split <;> split <;> dsimp only <;> omega

end VersionTrail.Calendar
