import EventRelay.Proofs.Text.Blank
import EventRelay.Proofs.Text.Digits
import EventRelay.Proofs.Time.Calendar
import EventRelay.Time.Reading

/-!
Reading times that were written. A written time has all its numerals at full width, so each reader takes exactly
the numeral it looks for. The store's literal has no offset and a blank for the `T`: of the three forms only the last
one fits, and it gives back what was written. What is read lies in a leap second only at the end of a minute.
-/

namespace EventRelay

open Digits Text

namespace Time

/-- Reads on after what was found. -/
theorem read_next {α β : Type} {x : Option α} {a : α} (found : x = some a) (next : α → Option β) :
    (x >>= next) = next a := by
  rw [found]
  rfl

theorem read_none {α β : Type} {x : Option α} (missing : x = none) (next : α → Option β) : (x >>= next) = none := by
  rw [missing]
  rfl

theorem expect?_self (c : Char) (rest : List Char) : expect? c (c :: rest) = some rest := by
  rw [expect?, if_pos rfl]

/-- A numeral begins with a digit. -/
theorem padded_head (width n : Nat) (rest : List Char) : ∀ c ∈ (padded width n ++ rest).head?, isBlank c = false := by
  obtain ⟨digit, cs, same, shown⟩ := padded_eq_cons width n
  intro c member
  rw [same] at member
  obtain rfl : digit = c := Option.some.inj member
  exact isBlank_eq_false_of_isDigit shown

/-- A number that the two digits of a pair hold. -/
theorem pair?_padded {n : Nat} (room : n < 100) (rest : List Char) : pair? (padded 2 n ++ rest) = some (n, rest) := by
  rw [pair?, trimStart_eq_self (padded_head 2 n rest)]
  exact take?_padded (by decide) room (by decide) rest

/-- A year with a sign may have any number of digits. -/
theorem take?_year {n : Nat} (rest : List Char) :
    take? 1 (padded 4 n ++ '-' :: rest).length (padded 4 n ++ '-' :: rest) = some (n, '-' :: rest) := by
  obtain ⟨c, cs, same, -⟩ := padded_eq_cons 4 n
  have some : 1 ≤ (padded 4 n).length := by simp [same]
  have most : (padded 4 n).length ≤ (padded 4 n ++ '-' :: rest).length := by simp
  have stop : ∀ c ∈ ('-' :: rest).head?, c.isDigit = false := by
    rintro c ⟨⟩
    rfl
  rw [take?_append (fun _ => isDigit_of_mem_padded) some most (.inr stop), value_padded]

/-- A year is read back from its text, with a sign or without. -/
theorem year?_yearText (y : Int) (rest : List Char) : year? (yearText y ++ '-' :: rest) = some (y, '-' :: rest) := by
  unfold yearText
  split
  next early =>
    obtain ⟨c, cs, same, digit⟩ := padded_eq_cons 4 y.toNat
    have taken : take? 1 4 (padded 4 y.toNat ++ '-' :: rest) = some (y.toNat, '-' :: rest) :=
      take?_padded (by decide) (by omega) (by decide) _
    rw [year?, trimStart_eq_self (padded_head 4 y.toNat _)]
    rw [same, List.cons_append] at taken ⊢
    have minus : c ≠ '-' := by rintro rfl; exact absurd digit (by decide)
    have plus : c ≠ '+' := by rintro rfl; exact absurd digit (by decide)
    split
    next same => exact absurd (List.cons.inj same).1 minus
    next same => exact absurd (List.cons.inj same).1 plus
    next => simp only [taken, Option.map_some, Int.toNat_of_nonneg early.1]
  next late =>
    by_cases negative : y < 0
    · have back : -(y.natAbs : Int) = y := by omega
      rw [if_pos negative, List.cons_append, year?, trimStart_eq_self (by rintro c ⟨⟩; decide)]
      simp only [take?_year, Option.map_some, back]
    · have back : (y.natAbs : Int) = y := by omega
      rw [if_neg negative, List.cons_append, year?, trimStart_eq_self (by rintro c ⟨⟩; decide)]
      simp only [take?_year, Option.map_some, back]

/-- After the point stand the digits of a fraction of a second, one or more. Nine of them count, and where there are
fewer, zeros are thought after them. -/
theorem fraction?_digits {digits rest : List Char} (filled : digits ≠ []) (all : ∀ c ∈ digits, c.isDigit)
    (stop : ∀ c ∈ rest.head?, c.isDigit = false) :
    fraction? ('.' :: (digits ++ rest)) = some (value ((digits ++ List.replicate 9 '0').take 9), rest) := by
  have split : digits ++ rest = digits.take 9 ++ (digits.drop 9 ++ rest) := by
    rw [← List.append_assoc, List.take_append_drop]
  have length : (digits.take 9).length = min 9 digits.length := List.length_take
  have positive : 0 < digits.length := List.length_pos_iff.mpr filled
  have ends : (digits.take 9).length = 9 ∨ ∀ c ∈ (digits.drop 9 ++ rest).head?, c.isDigit = false := by
    rcases Nat.le_total 9 digits.length with long | short
    · exact .inl (by omega)
    · rw [List.drop_of_length_le short, List.nil_append]
      exact .inr stop
  have taken : take? 1 9 (digits ++ rest) = some (value (digits.take 9), digits.drop 9 ++ rest) := by
    rw [split]
    exact take?_append (fun c member => all c (List.mem_of_mem_take member)) (by omega) (by omega) ends
  have left : (digits.drop 9 ++ rest).dropWhile Char.isDigit = rest := by
    rw [List.dropWhile_append_of_pos fun c member => all c (List.mem_of_mem_drop member)]
    cases rest with
    | nil => rfl
    | cons c rest => rw [List.dropWhile_cons_of_neg (by simp [stop c rfl])]
  have count : (digits ++ rest).length - (digits.drop 9 ++ rest).length = (digits.take 9).length := by
    simp only [List.length_append, List.length_drop]
    omega
  have zeros : (digits ++ List.replicate 9 '0').take 9 =
      digits.take 9 ++ List.replicate (9 - (digits.take 9).length) '0' := by
    rw [List.take_append, List.take_replicate]
    congr 2
    omega
  rw [zeros, value_append_zeros]
  simp only [fraction?, taken, Option.bind_eq_bind, Option.bind_some, count, left]

/-- Three digits after the point are milliseconds. -/
theorem fraction?_millis {n : Nat} (room : n < 1000) {rest : List Char} (stop : ∀ c ∈ rest.head?, c.isDigit = false) :
    fraction? ('.' :: (padded 3 n ++ rest)) = some (n * 1000000, rest) := by
  have length : (padded 3 n).length = 3 := length_padded (by decide) room
  have filled : padded 3 n ≠ [] := List.ne_nil_of_length_pos (by omega)
  have zeros : (padded 3 n ++ List.replicate 9 '0').take 9 = padded 3 n ++ List.replicate 6 '0' := by
    rw [List.take_append, length, List.take_of_length_le (by omega)]
    rfl
  rw [fraction?_digits filled (fun _ => isDigit_of_mem_padded) stop, zeros, value_append_zeros, value_padded]
  rfl

/-- What holds of all that is read next holds of what is read in the end. -/
theorem forall_mem_bind {α β : Type} {P : β → Prop} {x : Option α} {next : α → Option β}
    (each : ∀ a, ∀ b ∈ next a, P b) : ∀ b ∈ x >>= next, P b := by
  cases x with
  | none =>
    intro b read
    cases read
  | some a => exact each a

theorem forall_mem_ite {β : Type} {P : β → Prop} {c : Prop} [Decidable c] {x : Option β} (each : ∀ b ∈ x, P b) :
    ∀ b ∈ if c then x else none, P b := by
  split
  · exact each
  · intro b read
    cases read

end Time

theorem Instant.leapAtEnd_of_ofUnix? {seconds : Int} {nanos : Nat} {t : Instant}
    (made : ofUnix? seconds nanos = some t) : t.LeapAtEnd := by
  unfold ofUnix? at made
  split at made
  next within =>
    obtain rfl := Option.some.inj made
    exact within.2.2.2
  next => cases made

theorem Civil.leapAtEnd_of_mem_toInstant? (c : Civil) (offset : Int) : ∀ t ∈ c.toInstant? offset, t.LeapAtEnd := by
  unfold toInstant?
  exact Time.forall_mem_ite fun _ => Instant.leapAtEnd_of_ofUnix?

namespace Time

theorem leapAtEnd_of_mem_naive? (separator? : List Char → Option (List Char)) (cs : List Char) :
    ∀ t ∈ naive? separator? cs, t.LeapAtEnd := by
  unfold naive?
  iterate 12 refine forall_mem_bind fun _ => ?_
  exact forall_mem_ite (Civil.leapAtEnd_of_mem_toInstant? _ 0)

theorem leapAtEnd_of_mem_rfc3339? (cs : List Char) : ∀ t ∈ rfc3339? cs, t.LeapAtEnd := by
  unfold rfc3339?
  -- Up to the day; then there is one case for each sign before the time of day.
  iterate 5 refine forall_mem_bind fun _ => ?_
  dsimp only
  split
  all_goals
    iterate 8 refine forall_mem_bind fun _ => ?_
    exact forall_mem_ite (Civil.leapAtEnd_of_mem_toInstant? _ _)

end Time

theorem Instant.leapAtEnd_of_ofText? {raw : String} {t : Instant} (read : ofText? raw = some t) : t.LeapAtEnd := by
  rw [ofText?, ofChars?, Option.or_eq_some_iff] at read
  rcases read with first | ⟨-, later⟩
  · exact Time.leapAtEnd_of_mem_rfc3339? _ t first
  rcases Option.or_eq_some_iff.mp later with second | ⟨-, third⟩
  · exact Time.leapAtEnd_of_mem_naive? _ _ t second
  · exact Time.leapAtEnd_of_mem_naive? _ _ t third

theorem Date.text_append (d : Date) (rest : List Char) : d.text ++ rest =
    yearText d.year ++ '-' :: (padded 2 d.month ++ '-' :: (padded 2 d.day ++ rest)) := by
  simp [Date.text]

namespace Civil

/-- Hour, minute and second. -/
def clockText (c : Civil) : List Char :=
  padded 2 c.hour ++ ':' :: padded 2 c.minute ++ ':' :: padded 2 c.second

/-- The fraction of a second with its point. -/
def millisText (c : Civil) : List Char :=
  '.' :: padded 3 (c.nanos / 1000000)

theorem clockText_append (c : Civil) (rest : List Char) : c.clockText ++ rest =
    padded 2 c.hour ++ ':' :: (padded 2 c.minute ++ ':' :: (padded 2 c.second ++ rest)) := by
  simp [clockText]

theorem timeText_eq (c : Civil) : c.timeText = c.clockText ++ c.millisText := by
  simp [timeText, clockText, millisText]

theorem clockText_head (c : Civil) (rest : List Char) : ∀ d ∈ (c.clockText ++ rest).head?, isBlank d = false := by
  rw [c.clockText_append]
  exact Time.padded_head 2 c.hour _

/-- What is left of a time of day when it is written to the millisecond. -/
def truncateMillis (c : Civil) : Civil :=
  { c with nanos := c.nanos / 1000000 * 1000000 }

end Civil

namespace Time

variable {c : Civil}

/-- What is left to read after a date: the time of day, up to the end of the text. -/
def timeOfDay? (d : Date) (cs : List Char) : Option Instant := do
  let (hour, cs) ← pair? cs
  let cs ← expect? ':' cs
  let (minute, cs) ← pair? cs
  let cs ← expect? ':' cs
  let (second, cs) ← pair? cs
  let (nanos, cs) ← fraction? cs
  if cs = [] then
    Civil.toInstant? ⟨d, hour, minute, second, nanos⟩ 0
  else
    none

/-- A date that exists is read from its text, and what follows it is left to the separator. -/
theorem naive?_date {d : Date} (valid : d.IsValid) (separator? : List Char → Option (List Char)) (rest : List Char) :
    naive? separator? (d.text ++ rest) = separator? rest >>= timeOfDay? d := by
  obtain ⟨firstMonth, lastMonth, firstDay, lastDay⟩ := valid
  have days := Calendar.daysInMonth_le d.year d.month
  rw [d.text_append, naive?]
  refine (read_next (year?_yearText _ _) _).trans ?_
  refine (read_next (expect?_self _ _) _).trans ?_
  refine (read_next (pair?_padded (by omega) _) _).trans ?_
  refine (read_next (expect?_self _ _) _).trans ?_
  refine (read_next (pair?_padded (by omega) _) _).trans ?_
  rfl

/-- A valid time of day is read from its text, if nothing follows its fraction. -/
theorem timeOfDay?_clockText (valid : c.IsValid) {fraction rest : List Char}
    (reads : fraction? (fraction ++ rest) = some (c.nanos, rest)) :
    timeOfDay? c.date (c.clockText ++ (fraction ++ rest)) = if rest = [] then c.toInstant? 0 else none := by
  obtain ⟨-, hour, minute, second, -⟩ := valid
  rw [c.clockText_append, timeOfDay?]
  refine (read_next (pair?_padded (by omega) _) _).trans ?_
  refine (read_next (expect?_self _ _) _).trans ?_
  refine (read_next (pair?_padded (by omega) _) _).trans ?_
  refine (read_next (expect?_self _ _) _).trans ?_
  refine (read_next (pair?_padded (by omega) _) _).trans ?_
  refine (read_next reads _).trans ?_
  rfl

/-- The hour begins with a digit, before which blanks may stand. -/
theorem timeOfDay?_eq_none (d : Date) {first : Char} {rest : List Char} (shown : isBlank first = false)
    (other : first.isDigit = false) : timeOfDay? d (first :: rest) = none := by
  have none : pair? (first :: rest) = none := by
    rw [pair?, trimStart_eq_self (by rintro c ⟨⟩; exact shown)]
    simp [take?, other]
  exact read_none none _

/-- A `T` is no blank, so the third form does not take it for a separator. -/
theorem naive?_trimStart_T {d : Date} (valid : d.IsValid) (rest : List Char) :
    naive? (fun rest => some (trimStart rest)) (d.text ++ 'T' :: rest) = none := by
  have none : timeOfDay? d ('T' :: rest) = none := timeOfDay?_eq_none d (by decide) (by decide)
  rw [naive?_date valid, trimStart_eq_self (by rintro c ⟨⟩; decide)]
  exact (read_next rfl _).trans none

/-- The first form wants four digits of the year. -/
theorem rfc3339?_of_late {d : Date} (late : ¬ (0 ≤ d.year ∧ d.year ≤ 9999)) (rest : List Char) :
    rfc3339? (d.text ++ rest) = none := by
  have signed : ∃ sign cs, d.text ++ rest = sign :: cs ∧ sign.isDigit = false := by
    rw [Date.text, yearText, if_neg late]
    split
    · exact ⟨'-', _, rfl, by decide⟩
    · exact ⟨'+', _, rfl, by decide⟩
  obtain ⟨sign, cs, same, other⟩ := signed
  have none : take? 4 4 (sign :: cs) = none := by simp [take?, other]
  rw [same, rfc3339?, none]
  rfl

/-- In the first form an offset has to follow the time of day, and nothing after it. -/
theorem rfc3339?_text (valid : c.IsValid) (early : 0 ≤ c.date.year ∧ c.date.year ≤ 9999) {sep : Char}
    (between : sep = 'T' ∨ sep = ' ') {fraction zone : List Char}
    (reads : fraction? (fraction ++ zone) = some (c.nanos, zone)) :
    rfc3339? (c.date.text ++ sep :: (c.clockText ++ (fraction ++ zone))) =
      (offset? zone).bind fun p => if p.2 = [] then c.toInstant? p.1 else none := by
  obtain ⟨⟨firstMonth, lastMonth, firstDay, lastDay⟩, hour, minute, second, nanos⟩ := valid
  have days := Calendar.daysInMonth_le c.date.year c.date.month
  have numeral {n : Nat} (room : n < 100) (rest : List Char) : take? 2 2 (padded 2 n ++ rest) = some (n, rest) :=
    take?_padded (by decide) room (by decide) rest
  have year (rest : List Char) : take? 4 4 (padded 4 c.date.year.toNat ++ rest) = some (c.date.year.toNat, rest) :=
    take?_padded (by decide) (by omega) (by decide) rest
  have back : ((c.date.year.toNat : Nat) : Int) = c.date.year := Int.toNat_of_nonneg early.1
  rw [c.date.text_append, yearText, if_pos early, rfc3339?]
  refine (read_next (year _) _).trans ?_
  refine (read_next (expect?_self _ _) _).trans ?_
  refine (read_next (numeral (by omega) _) _).trans ?_
  refine (read_next (expect?_self _ _) _).trans ?_
  refine (read_next (numeral (by omega) _) _).trans ?_
  rw [c.clockText_append]
  rcases between with rfl | rfl
  all_goals
    refine (read_next rfl _).trans ?_
    refine (read_next (numeral (by omega) _) _).trans ?_
    refine (read_next (expect?_self _ _) _).trans ?_
    refine (read_next (numeral (by omega) _) _).trans ?_
    refine (read_next (expect?_self _ _) _).trans ?_
    refine (read_next (numeral (by omega) _) _).trans ?_
    refine (read_next reads _).trans ?_
    rw [back]
    rfl

end Time

/-- A date's text begins with a digit or a sign. -/
theorem Date.text_head (d : Date) (rest : List Char) : ∀ c ∈ (d.text ++ rest).head?, isBlank c = false := by
  intro c member
  rw [Date.text, yearText] at member
  split at member
  · rw [List.append_assoc, List.append_assoc] at member
    exact Time.padded_head 4 d.year.toNat _ c member
  · split at member <;> cases member <;> decide

namespace Instant

variable {c : Civil}

/-- A time without an offset is none of the first form. With a `T` in it the second form takes it, and with a blank
the third one does; so its date may have any year. -/
theorem ofChars?_naive (valid : c.IsValid) {sep : Char} (between : sep = 'T' ∨ sep = ' ') {fraction : List Char}
    (reads : Time.fraction? fraction = some (c.nanos, [])) :
    ofChars? (c.date.text ++ sep :: (c.clockText ++ fraction)) = c.toInstant? 0 := by
  have whole : Time.fraction? (fraction ++ []) = some (c.nanos, []) := by rwa [List.append_nil]
  have first : Time.rfc3339? (c.date.text ++ sep :: (c.clockText ++ fraction)) = none := by
    by_cases early : 0 ≤ c.date.year ∧ c.date.year ≤ 9999
    · have read := Time.rfc3339?_text valid early between whole
      rwa [List.append_nil] at read
    · exact Time.rfc3339?_of_late early _
  have clock : Time.timeOfDay? c.date (c.clockText ++ fraction) = c.toInstant? 0 := by
    have read := Time.timeOfDay?_clockText valid whole
    rwa [List.append_nil] at read
  rw [ofChars?, first, Option.none_or]
  rcases between with rfl | rfl
  · have second : Time.naive? (Time.expect? 'T') (c.date.text ++ 'T' :: (c.clockText ++ fraction)) = c.toInstant? 0 := by
      rw [Time.naive?_date valid.1]
      exact (Time.read_next (Time.expect?_self _ _) _).trans clock
    have third := Time.naive?_trimStart_T valid.1 (c.clockText ++ fraction)
    rw [second, third, Option.or_none]
  · have parts : trimStart (' ' :: (c.clockText ++ fraction)) = c.clockText ++ fraction :=
      trimStart_eq_self (c.clockText_head _)
    have second : Time.naive? (Time.expect? 'T') (c.date.text ++ ' ' :: (c.clockText ++ fraction)) = none := by
      rw [Time.naive?_date valid.1]
      exact Time.read_none (by rfl) _
    have third : Time.naive? (fun rest => some (trimStart rest)) (c.date.text ++ ' ' :: (c.clockText ++ fraction)) =
        c.toInstant? 0 := by
      rw [Time.naive?_date valid.1, parts]
      exact (Time.read_next rfl _).trans clock
    rw [second, third, Option.none_or]

/-- A time with an offset after it is of the first form or of none, and the first form wants four digits of the year. -/
theorem ofChars?_zoned (valid : c.IsValid) {fraction zone : List Char} {offset : Int} (follows : zone ≠ [])
    (reads : Time.fraction? (fraction ++ zone) = some (c.nanos, zone)) (ends : Time.offset? zone = some (offset, [])) :
    ofChars? (c.date.text ++ 'T' :: (c.clockText ++ (fraction ++ zone))) =
      if 0 ≤ c.date.year ∧ c.date.year ≤ 9999 then c.toInstant? offset else none := by
  have second : Time.naive? (Time.expect? 'T') (c.date.text ++ 'T' :: (c.clockText ++ (fraction ++ zone))) = none := by
    rw [Time.naive?_date valid.1]
    refine (Time.read_next (Time.expect?_self _ _) _).trans ?_
    rw [Time.timeOfDay?_clockText valid reads, if_neg follows]
  have third := Time.naive?_trimStart_T valid.1 (c.clockText ++ (fraction ++ zone))
  rw [ofChars?, second, third, Option.or_none, Option.or_none]
  split
  next early =>
    rw [Time.rfc3339?_text valid early (.inl rfl) reads, ends]
    rfl
  next late => exact Time.rfc3339?_of_late late _

theorem truncateMillis_isValid (t : Instant) : t.toCivil.truncateMillis.IsValid := by
  rw [Civil.truncateMillis, ← toCivil_truncateMillis]
  exact t.truncateMillis.toCivil_isValid

theorem toInstant?_truncateMillis (t : Instant) :
    t.toCivil.truncateMillis.toInstant? 0 = some t.shown.truncateMillis := by
  rw [Civil.truncateMillis, ← toCivil_truncateMillis, toInstant?_toCivil, shown_truncateMillis]

/-- The fraction that is written of an instant is all that is left of it. -/
theorem fraction?_millisText (t : Instant) (rest : List Char) (stop : ∀ c ∈ rest.head?, c.isDigit = false) :
    Time.fraction? (t.toCivil.millisText ++ rest) = some (t.toCivil.truncateMillis.nanos, rest) := by
  have nanos := t.toCivil_isValid.2.2.2.2
  exact Time.fraction?_millis (by omega) stop

theorem storeChars_eq_append (t : Instant) :
    t.storeChars = t.toCivil.date.text ++ ' ' :: (t.toCivil.clockText ++ t.toCivil.millisText) := by
  rw [storeChars, Civil.timeText_eq]

theorem wireChars_eq_append (t : Instant) :
    t.wireChars = t.toCivil.date.text ++ 'T' :: (t.toCivil.clockText ++ (t.toCivil.millisText ++ ['Z'])) := by
  simp [wireChars, Civil.timeText_eq]

theorem trimChars_storeChars (t : Instant) : trimChars t.storeChars = t.storeChars := by
  have shape : t.storeChars = (t.toCivil.date.text ++ ' ' :: (t.toCivil.clockText ++ ['.'])) ++
      padded 3 (t.toCivil.nanos / 1000000) := by
    simp [storeChars_eq_append, Civil.millisText]
  refine trimChars_eq_self (t.toCivil.date.text_head _) ?_
  rw [shape]
  exact isBlank_getLast?_digits (padded_ne_nil _ _) fun _ => isDigit_of_mem_padded

theorem trimChars_wireChars (t : Instant) : trimChars t.wireChars = t.wireChars := by
  refine trimChars_eq_self ?_ ?_
  · rw [wireChars_eq_append]
    exact t.toCivil.date.text_head _
  · rw [wireChars, List.getLast?_append]
    rintro c ⟨⟩
    decide

/-- What was written of an instant is read as the instant that clocks show then, down to the millisecond. -/
theorem ofText?_storeText (t : Instant) : ofText? t.storeText = some t.shown.truncateMillis := by
  have reads : Time.fraction? t.toCivil.millisText = some (t.toCivil.truncateMillis.nanos, []) := by
    have read := t.fraction?_millisText [] (by simp)
    rwa [List.append_nil] at read
  rw [ofText?, storeText, String.toList_ofList, trimChars_storeChars, storeChars_eq_append,
    ← toInstant?_truncateMillis]
  exact ofChars?_naive t.truncateMillis_isValid (.inr rfl) reads

/-- The form that travels has a zone, so it is read back only where its year has four digits. -/
theorem ofText?_wireText (t : Instant) :
    ofText? t.wireText = if 0 ≤ t.year ∧ t.year ≤ 9999 then some t.shown.truncateMillis else none := by
  have reads := t.fraction?_millisText ['Z'] (by rintro c ⟨⟩; decide)
  rw [ofText?, wireText, String.toList_ofList, trimChars_wireChars, wireChars_eq_append,
    ← toInstant?_truncateMillis]
  exact ofChars?_zoned t.truncateMillis_isValid (List.cons_ne_nil _ _) reads rfl

/-- Nothing below a millisecond is written. -/
theorem timeText_truncateMillis (t : Instant) : t.truncateMillis.toCivil.timeText = t.toCivil.timeText := by
  have cut : t.toCivil.nanos / 1000000 * 1000000 / 1000000 = t.toCivil.nanos / 1000000 := by omega
  simp only [toCivil_truncateMillis, Civil.timeText, cut]

theorem storeText_truncateMillis (t : Instant) : t.truncateMillis.storeText = t.storeText := by
  rw [storeText, storeChars, timeText_truncateMillis]
  rfl

theorem wireText_truncateMillis (t : Instant) : t.truncateMillis.wireText = t.wireText := by
  rw [wireText, wireChars, timeText_truncateMillis]
  rfl

/-- Nothing else is written than what clocks show. -/
theorem storeText_shown (t : Instant) : t.shown.storeText = t.storeText := by
  rw [storeText, storeChars, toCivil_shown]
  rfl

theorem wireText_shown (t : Instant) : t.shown.wireText = t.wireText := by
  rw [wireText, wireChars, toCivil_shown]
  rfl

/-- The texts of what is read back are the texts that were read. -/
theorem storeText_shown_truncateMillis (t : Instant) : t.shown.truncateMillis.storeText = t.storeText := by
  rw [storeText_truncateMillis, storeText_shown]

theorem wireText_shown_truncateMillis (t : Instant) : t.shown.truncateMillis.wireText = t.wireText := by
  rw [wireText_truncateMillis, wireText_shown]

theorem normalized_storeText (t now : Instant) : normalized t.storeText now = t.storeText := by
  rw [normalized, ofText?_storeText, Option.getD_some, storeText_shown_truncateMillis]

end Instant

end EventRelay
