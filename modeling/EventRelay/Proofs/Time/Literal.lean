import EventRelay.Proofs.Time.Reading

/-!
The literals that the store takes for a time, and the instants that are written as one. A year of four digits and
a second below 60 are what it takes; an event time may be read that has neither.
-/

namespace EventRelay

open Calendar Digits

def storeLayout (year month day hour minute second millis : List Char) : List Char :=
  year ++ '-' :: month ++ '-' :: day ++ ' ' :: hour ++ ':' :: minute ++ ':' :: second ++ '.' :: millis

/-- `YYYY-MM-DD HH:MM:SS.sss`, with a day that the month has and a second that every minute has. -/
inductive IsStoreLiteral : List Char → Prop
  | written {year month day hour minute second millis} :
      IsNumeral 4 0 9999 year → IsNumeral 2 1 12 month →
      IsNumeral 2 1 (daysInMonth (value year) (value month)) day →
      IsNumeral 2 0 23 hour → IsNumeral 2 0 59 minute → IsNumeral 2 0 59 second → IsNumeral 3 0 999 millis →
      IsStoreLiteral (storeLayout year month day hour minute second millis)

theorem IsStoreLiteral.length {cs : List Char} (literal : IsStoreLiteral cs) : cs.length = 23 := by
  cases literal with
  | written year month day hour minute second millis =>
    simp [storeLayout, year.length, month.length, day.length, hour.length, minute.length, second.length,
      millis.length]

theorem IsStoreLiteral.head_isDigit {c : Char} {cs : List Char} (literal : IsStoreLiteral (c :: cs)) :
    c.isDigit := by
  generalize shown : c :: cs = text at literal
  cases literal with
  | @written year _ _ _ _ _ _ numeral =>
    cases year with
    | nil => simpa using numeral.length
    | cons digit rest =>
      obtain ⟨rfl, -⟩ : c = digit ∧ _ := by simpa [storeLayout] using shown
      exact numeral.digits _ (by simp)

theorem storeLayout_second {year month day hour minute second millis : List Char} (atYear : year.length = 4)
    (atMonth : month.length = 2) (atDay : day.length = 2) (atHour : hour.length = 2)
    (atMinute : minute.length = 2) (atSecond : second.length = 2) :
    ((storeLayout year month day hour minute second millis).drop 17).take 2 = second := by
  have before : (year ++ '-' :: month ++ '-' :: day ++ ' ' :: hour ++ ':' :: minute ++ [':']).length = 17 := by
    simp [atYear, atMonth, atDay, atHour, atMinute]
  have shape : storeLayout year month day hour minute second millis =
      (year ++ '-' :: month ++ '-' :: day ++ ' ' :: hour ++ ':' :: minute ++ [':']) ++ (second ++ '.' :: millis) := by
    simp [storeLayout]
  rw [shape, List.drop_left' before, List.take_left' atSecond]

theorem IsStoreLiteral.second_isNumeral {cs : List Char} (literal : IsStoreLiteral cs) :
    IsNumeral 2 0 59 ((cs.drop 17).take 2) := by
  cases literal with
  | written year month day hour minute second _ =>
    rwa [storeLayout_second year.length month.length day.length hour.length minute.length second.length]

namespace Instant

theorem storeChars_eq (t : Instant) :
    t.storeChars = storeLayout (yearText t.year) (padded 2 t.toCivil.date.month) (padded 2 t.toCivil.date.day)
      (padded 2 t.toCivil.hour) (padded 2 t.toCivil.minute) (padded 2 t.toCivil.second)
      (padded 3 (t.toCivil.nanos / 1000000)) := by
  simp [storeChars, storeLayout, Date.text, Civil.timeText, Instant.year, Instant.toCivil]

theorem storeChars_second {t : Instant} (early : 0 ≤ t.year ∧ t.year ≤ 9999) :
    (t.storeChars.drop 17).take 2 = padded 2 t.toCivil.second := by
  obtain ⟨⟨_, month, _, day⟩, hour, minute, second, -⟩ := t.toCivil_isValid
  have days := daysInMonth_le t.toCivil.date.year t.toCivil.date.month
  rw [storeChars_eq, yearText, if_pos early]
  apply storeLayout_second <;> apply length_padded (by decide) <;> omega

theorem year_of_isLiteral {t : Instant} (literal : IsStoreLiteral t.storeChars) : 0 ≤ t.year ∧ t.year ≤ 9999 := by
  by_contra late
  rw [storeChars_eq, yearText, if_neg late] at literal
  have digit := literal.head_isDigit
  split at digit <;> contradiction

theorem storeChars_isLiteral {t : Instant} (early : 0 ≤ t.year ∧ t.year ≤ 9999)
    (plain : t.shown.nanos < 1000000000) : IsStoreLiteral t.storeChars := by
  obtain ⟨⟨firstMonth, lastMonth, firstDay, lastDay⟩, hour, minute, _, nanos⟩ := t.toCivil_isValid
  have second := t.toCivil_second
  have fits : IsNumeral 2 1 (daysInMonth (value (padded 4 t.year.toNat)) (value (padded 2 t.toCivil.date.month)))
      (padded 2 t.toCivil.date.day) := by
    rw [value_padded, value_padded, Int.toNat_of_nonneg early.1]
    exact isNumeral_padded (by decide) (Nat.lt_of_le_of_lt (daysInMonth_le _ _) (by decide)) firstDay lastDay
  rw [storeChars_eq, yearText, if_pos early]
  refine .written ?_ ?_ fits ?_ ?_ ?_ ?_ <;> apply isNumeral_padded (by decide) (by decide) <;> omega

/-- The instants that the store takes: those of years with four digits that clocks do not show as leap seconds. -/
theorem storeChars_isLiteral_iff {t : Instant} :
    IsStoreLiteral t.storeChars ↔ (0 ≤ t.year ∧ t.year ≤ 9999) ∧ t.shown.nanos < 1000000000 := by
  refine ⟨fun literal => ⟨year_of_isLiteral literal, ?_⟩, fun ⟨early, plain⟩ => storeChars_isLiteral early plain⟩
  have second := literal.second_isNumeral.le_most
  rw [storeChars_second (year_of_isLiteral literal), value_padded] at second
  have leap := t.toCivil_second
  omega

/-- An event time becomes a literal that the store takes unless it is read as an instant that has none. -/
theorem normalized_isLiteral_iff (raw : String) {now : Instant} (early : 0 ≤ now.year ∧ now.year ≤ 9999)
    (plain : now.nanos < 1000000000) :
    IsStoreLiteral (normalized raw now).toList ↔
      ∀ t, ofText? raw = some t → (0 ≤ t.year ∧ t.year ≤ 9999) ∧ t.nanos < 1000000000 := by
  rw [normalized, storeText, String.toList_ofList, storeChars_isLiteral_iff]
  cases read : ofText? raw with
  | none => simp [early, plain, shown_eq_self (leapAtEnd_of_nanos_lt plain)]
  | some t => simp [shown_eq_self (leapAtEnd_of_ofText? read)]

/-- Noon of the first of March 2026. -/
def noon : Instant := ⟨1772366400, 0, by decide, by decide, epoch.nanos_lt⟩

theorem normalized_offset_literal :
    (0 ≤ noon.year ∧ noon.year ≤ 9999) ∧ noon.nanos < 1000000000 ∧
      IsStoreLiteral (normalized " 0001-01-01T00:30:00+00:30 " noon).toList := by
  have early : 0 ≤ noon.year ∧ noon.year ≤ 9999 := by decide +kernel
  have taken : (ofText? " 0001-01-01T00:30:00+00:30 ").all
      (fun t => (0 ≤ t.year ∧ t.year ≤ 9999) ∧ t.nanos < 1000000000) := by
    decide +kernel
  refine ⟨early, by decide, (normalized_isLiteral_iff _ early (by decide)).mpr fun t read => ?_⟩
  simpa [read] using taken

/-- A year of five digits, an offset that leads into one, and a leap second. -/
theorem normalized_not_literal :
    (0 ≤ noon.year ∧ noon.year ≤ 9999) ∧ noon.nanos < 1000000000 ∧
      ¬ IsStoreLiteral (normalized "+12345-01-01T00:00:00" noon).toList ∧
      ¬ IsStoreLiteral (normalized "9999-12-31T23:59:59-00:01" noon).toList ∧
      ¬ IsStoreLiteral (normalized "2016-12-31T23:59:60Z" noon).toList := by
  refine ⟨by decide +kernel, by decide, fun literal => ?_, fun literal => ?_, fun literal => ?_⟩
  · have length : (normalized "+12345-01-01T00:00:00" noon).toList.length = 25 := by decide +kernel
    exact absurd (length.symm.trans literal.length) (by decide)
  · have length : (normalized "9999-12-31T23:59:59-00:01" noon).toList.length = 25 := by decide +kernel
    exact absurd (length.symm.trans literal.length) (by decide)
  · have second : value (((normalized "2016-12-31T23:59:60Z" noon).toList.drop 17).take 2) = 60 := by decide +kernel
    exact absurd (second ▸ literal.second_isNumeral.le_most) (by decide)

end Instant

end EventRelay
