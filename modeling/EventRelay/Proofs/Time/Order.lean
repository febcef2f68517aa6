import EventRelay.Proofs.Text.Order
import EventRelay.Proofs.Time.Days
import EventRelay.Proofs.Time.Reading

/-!
Times in order. In a written time the greater parts stand before the smaller ones and each has its full width, so the
first part in which two times differ decides between their texts as it does between the times.
-/

namespace EventRelay

open Digits

namespace Civil

/-- The first part in which two times of day differ is smaller in this one; below a millisecond nothing counts. -/
def ClockBefore (c d : Civil) : Prop :=
  c.hour < d.hour ∨ c.hour = d.hour ∧ (c.minute < d.minute ∨ c.minute = d.minute ∧
    (c.second < d.second ∨ c.second = d.second ∧ c.nanos / 1000000 < d.nanos / 1000000))

/-- An earlier day, or an earlier time on the same day. -/
def Before (c d : Civil) : Prop :=
  c.date.toDays < d.date.toDays ∨ c.date = d.date ∧ c.ClockBefore d

end Civil

/-- A separator before a number of full width. -/
theorem Digits.cons_padded_append_lt (c : Char) {width m n : Nat} (wide : 0 < width) (room : n < 10 ^ width)
    {s t : List Char} (order : m < n ∨ m = n ∧ s < t) : c :: (padded width m ++ s) < c :: (padded width n ++ t) :=
  List.cons_lt_cons_iff.mpr (.inr ⟨rfl, padded_append_lt wide room order⟩)

namespace Date

variable {d e : Date}

/-- Of two dates the later one has the greater year, or else the greater month, or else the greater day. -/
theorem lt_of_toDays_lt (valid : d.IsValid) (valid' : e.IsValid) (before : d.toDays < e.toDays) :
    d.year < e.year ∨ d.year = e.year ∧ (d.month < e.month ∨ d.month = e.month ∧ d.day < e.day) := by
  rcases (year_le_of_toDays valid valid' before.le).lt_or_eq with year | year
  · exact .inl year
  rcases (month_le_of_toDays valid valid' year before.le).lt_or_eq with month | month
  · exact .inr ⟨year, .inl month⟩
  refine .inr ⟨year, .inr ⟨month, ?_⟩⟩
  rw [toDays, toDays, year, month] at before
  omega

/-- Within the years of four digits, a later date has the greater text, and after one date the rest decides. -/
theorem text_append_lt (valid : d.IsValid) (valid' : e.IsValid) (early : 0 ≤ d.year ∧ d.year ≤ 9999)
    (early' : 0 ≤ e.year ∧ e.year ≤ 9999) {s t : List Char} (order : d.toDays < e.toDays ∨ d = e ∧ s < t) :
    d.text ++ s < e.text ++ t := by
  have days := Calendar.daysInMonth_le e.year e.month
  have parts : d.year.toNat < e.year.toNat ∨ d.year.toNat = e.year.toNat ∧
      (d.month < e.month ∨ d.month = e.month ∧ (d.day < e.day ∨ d.day = e.day ∧ s < t)) := by
    rcases order with before | ⟨rfl, less⟩
    · have first := lt_of_toDays_lt valid valid' before
      omega
    · exact .inr ⟨rfl, .inr ⟨rfl, .inr ⟨rfl, less⟩⟩⟩
  obtain ⟨-, lastMonth, -, lastDay⟩ := valid'
  rw [d.text_append, e.text_append, yearText, yearText, if_pos early, if_pos early']
  refine padded_append_lt (by decide) (by omega) (parts.imp_right (And.imp_right fun parts => ?_))
  refine cons_padded_append_lt '-' (by decide) (by omega) (parts.imp_right (And.imp_right fun parts => ?_))
  exact cons_padded_append_lt '-' (by decide) (by omega) parts

end Date

namespace Civil

variable {c d : Civil}

/-- An earlier time of day has the smaller text. -/
theorem timeText_append_lt (valid : d.IsValid) (before : c.ClockBefore d) (rest : List Char) :
    c.timeText ++ rest < d.timeText ++ rest := by
  obtain ⟨-, hour, minute, second, nanos⟩ := valid
  have shape (c : Civil) : c.timeText ++ rest = padded 2 c.hour ++ ':' :: (padded 2 c.minute ++
      ':' :: (padded 2 c.second ++ '.' :: (padded 3 (c.nanos / 1000000) ++ rest))) := by
    simp [timeText]
  rw [shape, shape]
  refine padded_append_lt (by decide) (by omega) (before.imp_right (And.imp_right fun before => ?_))
  refine cons_padded_append_lt ':' (by decide) (by omega) (before.imp_right (And.imp_right fun before => ?_))
  refine cons_padded_append_lt ':' (by decide) (by omega) (before.imp_right (And.imp_right fun less => ?_))
  exact cons_padded_append_lt '.' (by decide) (by omega) (.inl less)

end Civil

namespace Instant

variable {t u : Instant}

/-- Of two instants in order, the parts of the earlier one come first, unless both are in one millisecond. After a leap
second that ends a minute no second follows that would belong to the same minute. -/
theorem before_of_le (ends : t.LeapAtEnd) (ordered : t ≤ u) : t.truncateMillis = u.truncateMillis ∨ t.toCivil.Before u.toCivil := by
  by_cases same : t.seconds = u.seconds ∧ t.nanos / 1000000 = u.nanos / 1000000
  · left
    simp only [truncateMillis, same.1, same.2]
  right
  have seconds : t.seconds < u.seconds ∨ t.seconds = u.seconds ∧ t.nanos / 1000000 < u.nanos / 1000000 := by
    rcases ordered with later | ⟨second, nanos⟩
    · exact .inl later
    · have whole := Nat.div_le_div_right (c := 1000000) nanos
      omega
  rw [Civil.Before]
  simp only [toCivil, Date.toDays_ofDays]
  rcases (Int.ediv_le_ediv (by decide) (by omega : t.seconds ≤ u.seconds) :
    t.seconds / 86400 ≤ u.seconds / 86400).lt_or_eq with day | day
  · exact .inl day
  refine .inr ⟨by rw [day], ?_⟩
  have leap : 1000000000 ≤ t.nanos → t.seconds % 60 = 59 := ends
  have bound := t.nanos_lt
  have bound' := u.nanos_lt
  rw [Civil.ClockBefore]
  dsimp only
  omega

/-- In the years of four digits the parts that come first make both texts smaller, byte by byte. -/
theorem texts_lt_of_before (early : 0 ≤ t.year ∧ t.year ≤ 9999) (early' : 0 ≤ u.year ∧ u.year ≤ 9999)
    (before : t.toCivil.Before u.toCivil) : Utf8.ofString t.storeText < Utf8.ofString u.storeText ∧
      Utf8.ofString t.wireText < Utf8.ofString u.wireText := by
  have valid := u.toCivil_isValid
  have parts (sep : Char) (rest : List Char) : t.toCivil.date.text ++ sep :: (t.toCivil.timeText ++ rest) <
      u.toCivil.date.text ++ sep :: (u.toCivil.timeText ++ rest) := by
    refine Date.text_append_lt t.toCivil_isValid.1 valid.1 early early' (before.imp_right (And.imp_right fun clock => ?_))
    exact List.cons_lt_cons_iff.mpr (.inr ⟨rfl, Civil.timeText_append_lt valid clock rest⟩)
  constructor
  · have store := parts ' ' []
    rw [List.append_nil, List.append_nil] at store
    exact Utf8.ofString_ofList_lt store
  · have wire := parts 'T' ['Z']
    rw [← List.cons_append, ← List.cons_append, ← List.append_assoc, ← List.append_assoc] at wire
    exact Utf8.ofString_ofList_lt wire

/-- In the years of four digits both texts are in the order in which clocks show the instants, byte by byte, and are
equal only if clocks show the same millisecond. That is the order of the instants themselves unless the earlier one lies
in a leap second inside a minute, for clocks show every other instant as it is. -/
theorem texts_ordered (early : 0 ≤ t.year ∧ t.year ≤ 9999) (early' : 0 ≤ u.year ∧ u.year ≤ 9999) :
    (t.shown ≤ u.shown → Utf8.ofString t.storeText ≤ Utf8.ofString u.storeText ∧
      Utf8.ofString t.wireText ≤ Utf8.ofString u.wireText) ∧
    (t.storeText = u.storeText ↔ t.shown.truncateMillis = u.shown.truncateMillis) ∧
    (t.wireText = u.wireText ↔ t.shown.truncateMillis = u.shown.truncateMillis) ∧
    ∀ v : Instant, v ≤ v.shown ∧ (v.LeapAtEnd → v.shown = v) := by
  refine ⟨fun ordered => ?_, ⟨fun same => ?_, fun same => ?_⟩, ⟨fun same => ?_, fun same => ?_⟩,
    fun v => ⟨v.le_shown, shown_eq_self⟩⟩
  · rcases before_of_le t.shown_leapAtEnd ordered with same | before
    · rw [← t.storeText_shown_truncateMillis, ← t.wireText_shown_truncateMillis, same,
        storeText_shown_truncateMillis, wireText_shown_truncateMillis]
      exact ⟨List.le_refl _, List.le_refl _⟩
    · rw [toCivil_shown, toCivil_shown] at before
      have less := texts_lt_of_before early early' before
      exact ⟨List.le_of_lt less.1, List.le_of_lt less.2⟩
  · have read := congrArg ofText? same
    rwa [ofText?_storeText, ofText?_storeText, Option.some.injEq] at read
  · rw [← t.storeText_shown_truncateMillis, same, storeText_shown_truncateMillis]
  · have read := congrArg ofText? same
    rwa [ofText?_wireText, ofText?_wireText, if_pos early, if_pos early', Option.some.injEq] at read
  · rw [← t.wireText_shown_truncateMillis, same, wireText_shown_truncateMillis]

/-- In the middle of the leap second at the end of June 2015. -/
def leapHalf : Instant := ⟨1435708799, 1500000000, by decide, by decide, by decide⟩

/-- The second after it. -/
def afterLeap : Instant := ⟨1435708800, 0, by decide, by decide, epoch.nanos_lt⟩

/-- The last nanosecond before 1970. -/
def beforeEpoch : Instant := ⟨-1, 999999999, by decide, by decide, by decide⟩

theorem texts_ordered_leapHalf : leapHalf.storeText = "2015-06-30 23:59:60.500" ∧
    Utf8.ofString leapHalf.storeText ≤ Utf8.ofString afterLeap.storeText ∧
    Utf8.ofString leapHalf.wireText ≤ Utf8.ofString afterLeap.wireText ∧
    beforeEpoch.storeText = beforeEpoch.truncateMillis.storeText := by
  have ordered := (@texts_ordered leapHalf afterLeap (by decide) (by decide)).1 (by decide)
  have cut := (@texts_ordered beforeEpoch beforeEpoch.truncateMillis (by decide) (by decide)).2.1.mpr (by decide)
  exact ⟨by decide, ordered.1, ordered.2, cut⟩

/-- The second after the leap second inside a minute. -/
def afterInside : Instant := ⟨1468022165, 0, by decide, by decide, epoch.nanos_lt⟩

/-- A third of a second later. -/
def laterInside : Instant := ⟨1468022165, 333000000, by decide, by decide, by decide⟩

/-- Clocks show the leap second inside a minute as the second after it, so its texts are not in the order of the
instants, and they are the texts of another instant too. -/
theorem texts_not_ordered_insideLeap :
    ((0 ≤ insideLeap.year ∧ insideLeap.year ≤ 9999) ∧ (0 ≤ afterInside.year ∧ afterInside.year ≤ 9999) ∧
      insideLeap ≤ afterInside ∧
      ¬ Utf8.ofString insideLeap.storeText ≤ Utf8.ofString afterInside.storeText ∧
      ¬ Utf8.ofString insideLeap.wireText ≤ Utf8.ofString afterInside.wireText) ∧
    (0 ≤ laterInside.year ∧ laterInside.year ≤ 9999) ∧
      insideLeap.storeText = laterInside.storeText ∧ insideLeap.wireText = laterInside.wireText ∧
      insideLeap.truncateMillis ≠ laterInside.truncateMillis := by
  decide +kernel

end Instant

end EventRelay
