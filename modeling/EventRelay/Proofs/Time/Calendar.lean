import Mathlib.Algebra.BigOperators.Group.List.Basic
import Mathlib.Algebra.GroupWithZero.Nat
import EventRelay.Time.Instant

/-!
The dates that days have. The years part the days among them, each year's months part its days, and so every
day has a date that exists and every instant a time of day that clocks show. An instant can be told from it, but for a
leap second inside a minute: clocks show the second after it.
-/

namespace EventRelay

namespace Calendar

def yearLength (y : Int) : Nat :=
  if isLeapYear y then 366 else 365

theorem isLeapYear_iff {y : Int} : isLeapYear y = true ↔ y % 4 = 0 ∧ (y % 100 ≠ 0 ∨ y % 400 = 0) := by
  simp [isLeapYear]

theorem daysBeforeYear_succ (y : Int) : daysBeforeYear (y + 1) = daysBeforeYear y + yearLength y := by
  unfold daysBeforeYear yearLength
  split
  next leap => rw [isLeapYear_iff] at leap; omega
  next common => rw [isLeapYear_iff] at common; omega

theorem yearLength_eq_sum (y : Int) :
    yearLength y = (List.map (daysInMonth y) [1, 2, 3, 4, 5, 6, 7, 8, 9, 10, 11, 12]).sum := by
  cases leap : isLeapYear y <;> simp [yearLength, daysInMonth, leap]

theorem daysInMonth_le (y : Int) (month : Nat) : daysInMonth y month ≤ 31 := by
  unfold daysInMonth
  cases isLeapYear y <;> split <;> decide

/-- A mean year has 146097 / 400 days, and the first day of a year is never off by more than one and a half. -/
theorem yearOfDay_spec (day : Int) :
    daysBeforeYear (yearOfDay day) ≤ day ∧ day < daysBeforeYear (yearOfDay day + 1) := by
  unfold yearOfDay
  extract_lets guess
  have least : guess * 146097 ≤ (day + 719528) * 400 := by omega
  have most : (day + 719528) * 400 < guess * 146097 + 146097 := by omega
  clear_value guess
  split
  next before =>
    refine ⟨?_, by simpa using before⟩
    unfold daysBeforeYear at *
    omega
  next notBefore =>
    split
    next after =>
      refine ⟨after, ?_⟩
      unfold daysBeforeYear at *
      omega
    next within => omega

theorem monthAndDay_spec {y : Int} {months : List Nat} {rest : Nat}
    (within : rest < (months.map (daysInMonth y)).sum) :
    (monthAndDay y months rest).1 ∈ months ∧ 1 ≤ (monthAndDay y months rest).2 ∧
      (monthAndDay y months rest).2 ≤ daysInMonth y (monthAndDay y months rest).1 := by
  induction months generalizing rest with
  | nil => simp at within
  | cons month later ih =>
    unfold monthAndDay
    split
    next here => exact ⟨by simp, by simp, here⟩
    next past =>
      have remaining : rest - daysInMonth y month < (later.map (daysInMonth y)).sum := by
        simp only [List.map_cons, List.sum_cons] at within
        omega
      obtain ⟨member, first, last⟩ := ih remaining
      exact ⟨List.mem_cons_of_mem _ member, first, last⟩

/-- The days before the month that was found and the day in it make up the day of the year again. -/
theorem daysBeforeMonth_monthAndDay {y : Int} {month count rest : Nat}
    (within : rest < ((List.range' month count).map (daysInMonth y)).sum) :
    daysBeforeMonth y (monthAndDay y (List.range' month count) rest).1 +
        (monthAndDay y (List.range' month count) rest).2 = daysBeforeMonth y month + rest + 1 := by
  induction count generalizing month rest with
  | zero => simp at within
  | succ count ih =>
    rw [List.range'_succ, monthAndDay]
    split
    next here => exact (Nat.add_assoc _ _ _).symm
    next past =>
      have remaining : rest - daysInMonth y month < ((List.range' (month + 1) count).map (daysInMonth y)).sum := by
        rw [List.range'_succ, List.map_cons, List.sum_cons] at within
        omega
      rw [ih remaining, daysBeforeMonth]
      omega

end Calendar

open Calendar

theorem Date.ofDays_isValid (day : Int) : (Date.ofDays day).IsValid := by
  obtain ⟨reached, next⟩ := yearOfDay_spec day
  rw [daysBeforeYear_succ] at next
  have within : (day - daysBeforeYear (yearOfDay day)).toNat <
      (List.map (daysInMonth (yearOfDay day)) [1, 2, 3, 4, 5, 6, 7, 8, 9, 10, 11, 12]).sum := by
    rw [← yearLength_eq_sum]
    omega
  obtain ⟨member, first, last⟩ := monthAndDay_spec within
  have range : ∀ month ∈ [1, 2, 3, 4, 5, 6, 7, 8, 9, 10, 11, 12], 1 ≤ month ∧ month ≤ 12 := by decide
  exact ⟨(range _ member).1, (range _ member).2, first, last⟩

namespace Instant

variable {t : Instant}

theorem not_leapAtEnd : ¬t.LeapAtEnd ↔ 1000000000 ≤ t.nanos ∧ t.seconds % 60 ≠ 59 :=
  Classical.not_imp

theorem leapAtEnd_of_nanos_lt (plain : t.nanos < 1000000000) : t.LeapAtEnd :=
  fun leap => absurd plain (Nat.not_lt.mpr leap)

/-- The instant that clocks show. A leap second at the end of a minute is second 60; in a leap second after any other
second clocks are at the next second already, and as far in it. -/
def shown (t : Instant) : Instant :=
  if inside : ¬t.LeapAtEnd then
    { seconds := t.seconds + 1
      nanos := t.nanos - 1000000000
      seconds_ge := by
        have least := t.seconds_ge
        omega
      seconds_le := by
        have most := t.seconds_le
        have second := (not_leapAtEnd.mp inside).2
        omega
      nanos_lt := Nat.lt_of_le_of_lt (Nat.sub_le _ _) t.nanos_lt }
  else
    t

theorem shown_eq_self (ends : t.LeapAtEnd) : t.shown = t :=
  dif_neg (not_not_intro ends)

theorem shown_of_not_leapAtEnd (inside : ¬t.LeapAtEnd) :
    t.shown.seconds = t.seconds + 1 ∧ t.shown.nanos = t.nanos - 1000000000 := by
  rw [shown, dif_pos inside]
  exact ⟨rfl, rfl⟩

/-- Halfway through the leap second at the end of 2016, and somewhat later. -/
def leapSecond : Instant := ⟨1483228799, 1500123456, by decide, by decide, by decide⟩

/-- A third of a second into a leap second after 2016-07-08T23:56:04, inside a minute. -/
def insideLeap : Instant := ⟨1468022164, 1333333333, by decide, by decide, by decide⟩

/-- What clocks show is never behind. -/
theorem le_shown (t : Instant) : t ≤ t.shown := by
  by_cases ends : t.LeapAtEnd
  · rw [shown_eq_self ends]
    exact .inr ⟨rfl, Nat.le_refl _⟩
  · left
    have next := (shown_of_not_leapAtEnd ends).1
    omega

/-- What clocks show is no leap second inside a minute. -/
theorem shown_leapAtEnd (t : Instant) : t.shown.LeapAtEnd := by
  by_cases ends : t.LeapAtEnd
  · rwa [shown_eq_self ends]
  · have bound := t.nanos_lt
    refine leapAtEnd_of_nanos_lt ?_
    rw [(shown_of_not_leapAtEnd ends).2]
    omega

theorem toCivil_shown (t : Instant) : t.shown.toCivil = t.toCivil := by
  by_cases ends : t.LeapAtEnd
  · rw [shown_eq_self ends]
  obtain ⟨leap, inside⟩ := not_leapAtEnd.mp ends
  obtain ⟨seconds, nanos⟩ := shown_of_not_leapAtEnd ends
  have bound := t.nanos_lt
  have day : (t.seconds + 1) / 86400 = t.seconds / 86400 := by omega
  have ofDay : ((t.seconds + 1) % 86400).toNat = (t.seconds % 86400).toNat + 1 := by omega
  have last : (t.seconds % 86400).toNat % 60 ≠ 59 := by omega
  rw [toCivil, toCivil, seconds, nanos, day, ofDay]
  simp only [Civil.mk.injEq, true_and]
  omega

/-- Clocks show second 60 exactly in a leap second at the end of a minute. -/
theorem toCivil_second (t : Instant) : t.toCivil.second = 60 ∧ 1000000000 ≤ t.shown.nanos ∨
    t.toCivil.second < 60 ∧ t.shown.nanos < 1000000000 := by
  have bound := t.shown.nanos_lt
  have ends : 1000000000 ≤ t.shown.nanos → t.shown.seconds % 60 = 59 := t.shown_leapAtEnd
  rw [← t.toCivil_shown]
  change (t.shown.seconds % 86400).toNat % 60 + t.shown.nanos / 1000000000 = 60 ∧ _ ∨
    (t.shown.seconds % 86400).toNat % 60 + t.shown.nanos / 1000000000 < 60 ∧ _
  omega

theorem toCivil_isValid (t : Instant) : t.toCivil.IsValid := by
  refine ⟨Date.ofDays_isValid _, ?_, ?_, ?_, Nat.mod_lt _ (by decide)⟩
  · change (t.seconds % 86400).toNat / 3600 < 24
    omega
  · exact Nat.mod_lt _ (by decide)
  · have second := t.toCivil_second
    omega

end Instant

/-- A day's date is the day's again. -/
theorem Date.toDays_ofDays (day : Int) : (Date.ofDays day).toDays = day := by
  obtain ⟨reached, next⟩ := yearOfDay_spec day
  rw [daysBeforeYear_succ] at next
  have months : [1, 2, 3, 4, 5, 6, 7, 8, 9, 10, 11, 12] = List.range' 1 12 := rfl
  have within : (day - daysBeforeYear (yearOfDay day)).toNat <
      ((List.range' 1 12).map (daysInMonth (yearOfDay day))).sum := by
    rw [← months, ← yearLength_eq_sum]
    omega
  have sum := daysBeforeMonth_monthAndDay within
  have start : daysBeforeMonth (yearOfDay day) 1 = 0 := rfl
  rw [start] at sum
  simp only [Date.ofDays, Date.toDays, months]
  omega

namespace Instant

theorem toInstant?_toCivil_of_leapAtEnd {t : Instant} (ends : t.LeapAtEnd) : t.toCivil.toInstant? 0 = some t := by
  have valid := t.toCivil_isValid
  have days : t.toCivil.date.toDays = t.seconds / 86400 := Date.toDays_ofDays _
  have second := t.toCivil_second
  have nanosLt := t.nanos_lt
  have leap : 1000000000 ≤ t.nanos → t.seconds % 60 = 59 := ends
  rw [shown_eq_self ends] at second
  have ofDay : (t.toCivil.hour * 3600 + t.toCivil.minute * 60 + min t.toCivil.second 59 : Nat) =
      (t.seconds % 86400).toNat := by
    simp only [toCivil] at second ⊢
    omega
  have nanos : t.toCivil.nanos + (if t.toCivil.second = 60 then 1000000000 else 0) = t.nanos := by
    change t.nanos % 1000000000 + _ = _
    split <;> omega
  rw [Civil.toInstant?, if_pos valid, ofDay, nanos, days]
  dsimp only
  have seconds : t.seconds / 86400 * 86400 + ((t.seconds % 86400).toNat : Int) - 0 = t.seconds := by omega
  rw [seconds, ofUnix?, dif_pos ⟨t.seconds_ge, t.seconds_le, t.nanos_lt, ends⟩]

/-- From what clocks of UTC show, the instant shown can be told. -/
theorem toInstant?_toCivil (t : Instant) : t.toCivil.toInstant? 0 = some t.shown := by
  rw [← t.toCivil_shown, toInstant?_toCivil_of_leapAtEnd t.shown_leapAtEnd]

theorem toCivil_truncateMillis (t : Instant) :
    t.truncateMillis.toCivil = { t.toCivil with nanos := t.toCivil.nanos / 1000000 * 1000000 } := by
  have whole : t.nanos / 1000000 * 1000000 / 1000000000 = t.nanos / 1000000000 := by omega
  have rest : t.nanos / 1000000 * 1000000 % 1000000000 = t.nanos % 1000000000 / 1000000 * 1000000 := by omega
  simp only [toCivil, truncateMillis, whole, rest]

theorem shown_truncateMillis (t : Instant) : t.truncateMillis.shown = t.shown.truncateMillis := by
  have same : t.truncateMillis.LeapAtEnd ↔ t.LeapAtEnd := by
    unfold LeapAtEnd truncateMillis
    dsimp only
    omega
  by_cases ends : t.LeapAtEnd
  · rw [shown_eq_self (same.mpr ends), shown_eq_self ends]
  · obtain ⟨seconds, nanos⟩ := shown_of_not_leapAtEnd ends
    obtain ⟨seconds', nanos'⟩ := shown_of_not_leapAtEnd (mt same.mp ends)
    have leap := (not_leapAtEnd.mp ends).1
    ext
    · rw [seconds']
      exact seconds.symm
    · rw [nanos']
      change t.nanos / 1000000 * 1000000 - 1000000000 = t.shown.nanos / 1000000 * 1000000
      rw [nanos]
      omega

end Instant

end EventRelay
