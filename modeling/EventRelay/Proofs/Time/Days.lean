import Mathlib.Logic.Function.Iterate
import Mathlib.Order.Monotone.Basic
import Mathlib.Tactic.IntervalCases
import EventRelay.Proofs.Time.Calendar

/-!
Days counted one after the other. Each date has a next one, and from any date the calendar comes to every later one. So
there is one count of days that starts with 1970 and rises by one from a date to the next, and `Date.toDays` is it.
-/

namespace EventRelay

namespace Calendar

theorem daysBeforeYear_mono {y z : Int} (ordered : y ≤ z) : daysBeforeYear y ≤ daysBeforeYear z := by
  unfold daysBeforeYear
  omega

theorem daysBeforeMonth_mono (y : Int) : Monotone (daysBeforeMonth y) :=
  monotone_nat_of_le_succ fun _ => Nat.le_add_right _ _

theorem daysBeforeMonth_end (y : Int) : daysBeforeMonth y 13 = yearLength y := by
  cases leap : isLeapYear y <;> simp [yearLength, daysBeforeMonth, daysInMonth, leap]

theorem one_le_daysInMonth (y : Int) {month : Nat} (first : 1 ≤ month) (last : month ≤ 12) :
    1 ≤ daysInMonth y month := by
  unfold daysInMonth
  cases isLeapYear y <;> interval_cases month <;> decide

end Calendar

open Calendar

namespace Date

variable {d e : Date}

/-- A date's day of the year lies within its month, and this within the year. -/
theorem toDays_within (valid : d.IsValid) :
    daysBeforeYear d.year + daysBeforeMonth d.year d.month ≤ d.toDays ∧
      d.toDays < daysBeforeYear d.year + daysBeforeMonth d.year (d.month + 1) ∧
      daysBeforeMonth d.year (d.month + 1) ≤ yearLength d.year := by
  obtain ⟨firstMonth, lastMonth, firstDay, lastDay⟩ := valid
  have later := daysBeforeMonth_mono d.year (by omega : d.month + 1 ≤ 13)
  rw [daysBeforeMonth_end] at later
  rw [toDays, daysBeforeMonth]
  rw [daysBeforeMonth] at later
  omega

theorem daysBeforeYear_le_toDays (valid : d.IsValid) : daysBeforeYear d.year ≤ d.toDays := by
  have within := toDays_within valid
  omega

theorem toDays_lt_daysBeforeYear (valid : d.IsValid) : d.toDays < daysBeforeYear (d.year + 1) := by
  have within := toDays_within valid
  rw [daysBeforeYear_succ]
  omega

theorem year_le_of_toDays (valid : d.IsValid) (valid' : e.IsValid) (ordered : d.toDays ≤ e.toDays) :
    d.year ≤ e.year := by
  by_contra late
  have years := daysBeforeYear_mono (by omega : e.year + 1 ≤ d.year)
  have first := daysBeforeYear_le_toDays valid
  have last := toDays_lt_daysBeforeYear valid'
  omega

theorem month_le_of_toDays (valid : d.IsValid) (valid' : e.IsValid) (year : d.year = e.year)
    (ordered : d.toDays ≤ e.toDays) : d.month ≤ e.month := by
  by_contra late
  have months := daysBeforeMonth_mono e.year (by omega : e.month + 1 ≤ d.month)
  have first := (toDays_within valid).1
  have last := (toDays_within valid').2.1
  rw [year] at first
  omega

/-- No two dates are the same day. -/
theorem toDays_injective (valid : d.IsValid) (valid' : e.IsValid) (same : d.toDays = e.toDays) : d = e := by
  have year : d.year = e.year :=
    le_antisymm (year_le_of_toDays valid valid' same.le) (year_le_of_toDays valid' valid same.ge)
  have month : d.month = e.month :=
    le_antisymm (month_le_of_toDays valid valid' year same.le) (month_le_of_toDays valid' valid year.symm same.ge)
  have day : d.day = e.day := by
    rw [toDays, toDays, year, month] at same
    omega
  cases d
  cases e
  rw [Date.mk.injEq]
  exact ⟨year, month, day⟩

theorem ofDays_toDays (valid : d.IsValid) : ofDays d.toDays = d :=
  toDays_injective (ofDays_isValid _) valid (toDays_ofDays _)

/-- The day after a date. -/
def next (d : Date) : Date :=
  if d.day < daysInMonth d.year d.month then ⟨d.year, d.month, d.day + 1⟩
  else if d.month < 12 then ⟨d.year, d.month + 1, 1⟩
  else ⟨d.year + 1, 1, 1⟩

theorem next_isValid (valid : d.IsValid) : d.next.IsValid := by
  obtain ⟨firstMonth, lastMonth, firstDay, lastDay⟩ := valid
  unfold next
  split
  next inMonth => exact ⟨firstMonth, lastMonth, by simp, inMonth⟩
  split
  next inYear =>
    have month : 1 ≤ d.month + 1 ∧ d.month + 1 ≤ 12 := by omega
    have days : 1 ≤ daysInMonth d.year (d.month + 1) := one_le_daysInMonth _ month.1 month.2
    exact ⟨month.1, month.2, le_rfl, days⟩
  next => exact ⟨le_rfl, by simp, le_rfl, one_le_daysInMonth _ le_rfl (by simp)⟩

theorem toDays_next (valid : d.IsValid) : d.next.toDays = d.toDays + 1 := by
  obtain ⟨firstMonth, lastMonth, firstDay, lastDay⟩ := valid
  unfold next
  split
  next inMonth =>
    simp only [toDays]
    omega
  split
  next inYear =>
    simp only [toDays, daysBeforeMonth]
    omega
  next =>
    have december : d.month = 12 := by omega
    have last := daysBeforeMonth_end d.year
    rw [daysBeforeMonth, ← december] at last
    have first : daysBeforeMonth (d.year + 1) 1 = 0 := rfl
    simp only [toDays, daysBeforeYear_succ, first]
    omega

end Date

/-- A count of the days of the calendar one by one, that starts with 1970. -/
structure CountsDays (count : Date → Int) : Prop where
  start : count ⟨1970, 1, 1⟩ = 0
  next : ∀ d : Date, d.IsValid → count d.next = count d + 1

theorem Date.countsDays_toDays : CountsDays Date.toDays where
  start := by decide
  next _ valid := toDays_next valid

theorem Date.iterate_next_isValid {d : Date} (valid : d.IsValid) (n : Nat) : (next^[n] d).IsValid := by
  induction n with
  | zero => exact valid
  | succ n ih =>
    rw [Function.iterate_succ_apply']
    exact next_isValid ih

namespace CountsDays

variable {count : Date → Int}

theorem iterate (counts : CountsDays count) {d : Date} (valid : d.IsValid) (n : Nat) :
    count (Date.next^[n] d) = count d + n := by
  induction n with
  | zero => simp
  | succ n ih =>
    rw [Function.iterate_succ_apply', counts.next _ (Date.iterate_next_isValid valid n), ih]
    omega

/-- There is no other count: from the earlier one of a date and the start, the days lead to the later one. -/
theorem eq_toDays (counts : CountsDays count) {d : Date} (valid : d.IsValid) : count d = d.toDays := by
  have begins : (⟨1970, 1, 1⟩ : Date).IsValid := by decide
  rcases le_total 0 d.toDays with after | before
  · have reached : Date.next^[d.toDays.toNat] ⟨1970, 1, 1⟩ = d := by
      refine Date.toDays_injective (Date.iterate_next_isValid begins _) valid ?_
      rw [Date.countsDays_toDays.iterate begins, Date.countsDays_toDays.start]
      omega
    have counted := counts.iterate begins d.toDays.toNat
    rw [reached, counts.start] at counted
    omega
  · have reached : Date.next^[(-d.toDays).toNat] d = ⟨1970, 1, 1⟩ := by
      refine Date.toDays_injective (Date.iterate_next_isValid valid _) begins ?_
      rw [Date.countsDays_toDays.iterate valid, Date.countsDays_toDays.start]
      omega
    have counted := counts.iterate valid (-d.toDays).toNat
    rw [reached, counts.start] at counted
    omega

end CountsDays

end EventRelay
