import EventRelay.Proofs.Time.Days
import EventRelay.Proofs.Time.Reading

/-!
Timestamps of ISO 8601 and what they mean on the calendar. A timestamp is told from the reader of it: by its date, its
time of day, the digits of a fraction and its zone, each with the text that they are written in.
-/

namespace EventRelay

open Calendar Digits Text

namespace Civil

variable {c : Civil}

/-- What clocks show within the years of four digits is an instant, wherever they are. -/
theorem exists_toInstant? (valid : c.IsValid) (plain : c.second < 60) (early : 0 ≤ c.date.year ∧ c.date.year ≤ 9999)
    {offset : Int} (within : -86400 < offset ∧ offset < 86400) :
    ∃ t, c.toInstant? offset = some t ∧
      t.seconds = c.date.toDays * 86400 + (c.hour * 3600 + c.minute * 60 + c.second) - offset ∧ t.nanos = c.nanos := by
  have first := Date.daysBeforeYear_le_toDays valid.1
  have last := Date.toDays_lt_daysBeforeYear valid.1
  have least := daysBeforeYear_mono early.1
  have most := daysBeforeYear_mono (by omega : c.date.year + 1 ≤ 10000)
  have start : daysBeforeYear 0 = -719528 := by decide
  have stop : daysBeforeYear 10000 = 2932897 := by decide
  obtain ⟨-, hour, minute, -, nanos⟩ := id valid
  have ofDay : c.hour * 3600 + c.minute * 60 + min c.second 59 = c.hour * 3600 + c.minute * 60 + c.second := by omega
  have fits : -8334601228800 ≤ c.date.toDays * 86400 + (c.hour * 3600 + c.minute * 60 + c.second : Nat) - offset ∧
      c.date.toDays * 86400 + (c.hour * 3600 + c.minute * 60 + c.second : Nat) - offset ≤ 8210266876799 ∧
      c.nanos < 2000000000 ∧ (1000000000 ≤ c.nanos →
        (c.date.toDays * 86400 + (c.hour * 3600 + c.minute * 60 + c.second : Nat) - offset) % 60 = 59) := by
    omega
  refine ⟨⟨_, _, fits.1, fits.2.1, fits.2.2.1⟩, ?_, ?_, rfl⟩
  · rw [toInstant?, if_pos valid, ofDay, if_neg (by omega), Nat.add_zero, Instant.ofUnix?, dif_pos fits]
  · push_cast
    rfl

/-- Clocks of UTC show what the instant was made of. -/
theorem toCivil_of_toInstant? (valid : c.IsValid) (plain : c.second < 60) {t : Instant}
    (seconds : t.seconds = c.date.toDays * 86400 + (c.hour * 3600 + c.minute * 60 + c.second))
    (nanos : t.nanos = c.nanos) : t.toCivil = c := by
  obtain ⟨date, hour, minute, -, fraction⟩ := valid
  have day : t.seconds / 86400 = c.date.toDays := by omega
  have ofDay : (t.seconds % 86400).toNat = c.hour * 3600 + c.minute * 60 + c.second := by omega
  rw [Instant.toCivil, day, ofDay, Date.ofDays_toDays date, nanos]
  obtain ⟨_, h, m, s, n⟩ := c
  simp only [Civil.mk.injEq, true_and]
  dsimp only at *
  omega

end Civil

/-- What a timestamp says of its zone: `Z`, or how many hours and minutes clocks there are ahead of UTC or behind it. -/
inductive Zone
  | zulu
  | ahead (hours : Fin 24) (minutes : Fin 60)
  | behind (hours : Fin 24) (minutes : Fin 60)

namespace Zone

/-- `hh:mm` after a sign. -/
def offsetChars (sign : Char) (hours minutes : Nat) : List Char :=
  sign :: (padded 2 hours ++ ':' :: padded 2 minutes)

def chars : Zone → List Char
  | .zulu => ['Z']
  | .ahead hours minutes => offsetChars '+' hours minutes
  | .behind hours minutes => offsetChars '-' hours minutes

/-- The seconds by which clocks are ahead of UTC. -/
def seconds : Zone → Int
  | .zulu => 0
  | .ahead hours minutes => hours * 3600 + minutes * 60
  | .behind hours minutes => -(hours * 3600 + minutes * 60)

theorem chars_ne_nil (zone : Zone) : zone.chars ≠ [] := by
  cases zone <;> exact List.cons_ne_nil _ _

theorem chars_head (zone : Zone) : ∀ c ∈ zone.chars.head?, c.isDigit = false ∧ c ≠ '.' := by
  cases zone <;> rintro c ⟨⟩ <;> decide

theorem chars_getLast (zone : Zone) (front : List Char) :
    ∀ c ∈ (front ++ zone.chars).getLast?, isBlank c = false := by
  have ends (sign : Char) (hours minutes : Nat) :
      ∀ c ∈ (front ++ offsetChars sign hours minutes).getLast?, isBlank c = false := by
    have shape : front ++ offsetChars sign hours minutes =
        (front ++ sign :: (padded 2 hours ++ [':'])) ++ padded 2 minutes := by simp [offsetChars]
    rw [shape]
    exact isBlank_getLast?_digits (padded_ne_nil _ _) fun _ => isDigit_of_mem_padded
  cases zone with
  | zulu =>
    rw [chars, List.getLast?_append]
    rintro c ⟨⟩
    decide
  | ahead hours minutes => exact ends '+' hours minutes
  | behind hours minutes => exact ends '-' hours minutes

theorem seconds_within (zone : Zone) : -86400 < zone.seconds ∧ zone.seconds < 86400 := by
  cases zone with
  | zulu => decide
  | ahead hours minutes =>
    rw [seconds]
    omega
  | behind hours minutes =>
    rw [seconds]
    omega

theorem offset?_offsetChars {sign : Char} (signed : sign = '+' ∨ sign = '-') (hours : Fin 24) (minutes : Fin 60) :
    Time.offset? (offsetChars sign hours minutes) =
      some (if sign = '+' then (hours * 3600 + minutes * 60 : Int) else -(hours * 3600 + minutes * 60), []) := by
  have letter : ¬ (sign = 'Z' ∨ sign = 'z') := by rcases signed with rfl | rfl <;> decide
  have known : sign = '+' ∨ sign = '-' ∨ sign = '−' := by tauto
  have numeral {n : Nat} (room : n < 100) (rest : List Char) : take? 2 2 (padded 2 n ++ rest) = some (n, rest) :=
    take?_padded (by decide) room (by decide) rest
  have last := numeral (by omega : minutes.val < 100) []
  rw [List.append_nil] at last
  rw [offsetChars, Time.offset?, if_neg letter, if_pos known]
  refine (Time.read_next (numeral (by omega) _) _).trans ?_
  refine (Time.read_next (Time.expect?_self _ _) _).trans ?_
  refine (Time.read_next last _).trans ?_
  exact if_pos ⟨hours.isLt, minutes.isLt⟩

theorem offset?_chars (zone : Zone) : Time.offset? zone.chars = some (zone.seconds, []) := by
  cases zone with
  | zulu => rfl
  | ahead hours minutes => exact offset?_offsetChars (.inl rfl) hours minutes
  | behind hours minutes => exact offset?_offsetChars (.inr rfl) hours minutes

end Zone

/-- A date of a year with four digits, a time of day, and the digits of a fraction of a second, if there are any. -/
structure Timestamp where
  date : Date
  hour : Nat
  minute : Nat
  second : Nat
  fraction : List Char
  year_nonneg : 0 ≤ date.year
  year_le : date.year ≤ 9999
  date_isValid : date.IsValid
  hour_lt : hour < 24
  minute_lt : minute < 60
  second_lt : second < 60
  isDigit_fraction : ∀ c ∈ fraction, c.isDigit = true

namespace Timestamp

/-- `YYYY-MM-DD` and `HH:MM:SS` with a character between them and something after them. -/
def layout (x : Timestamp) (between : Char) (rest : List Char) : List Char :=
  padded 4 x.date.year.toNat ++ '-' :: padded 2 x.date.month ++ '-' :: padded 2 x.date.day ++
    between :: padded 2 x.hour ++ ':' :: padded 2 x.minute ++ ':' :: padded 2 x.second ++ rest

def fractionChars (x : Timestamp) : List Char :=
  if x.fraction = [] then [] else '.' :: x.fraction

/-- The timestamp with its zone. -/
def zoned (x : Timestamp) (zone : Zone) : List Char :=
  x.layout 'T' (x.fractionChars ++ zone.chars)

/-- The timestamp without a zone. -/
def naive (x : Timestamp) (between : Char) : List Char :=
  x.layout between x.fractionChars

/-- The digits of the fraction, and zeros after them. -/
def digits (x : Timestamp) : List Char :=
  x.fraction ++ List.replicate 9 '0'

/-- The timestamp with a blank and three digits of its fraction. -/
def literal (x : Timestamp) : List Char :=
  x.layout ' ' ('.' :: x.digits.take 3)

/-- The nanoseconds are nine digits of the fraction. -/
def nanos (x : Timestamp) : Nat :=
  value (x.digits.take 9)

/-- The seconds from the start of 1970 to what is shown by clocks of a zone, for a count of the days from there. -/
def secondsBy (count : Date → Int) (x : Timestamp) (zone : Zone) : Int :=
  count x.date * 86400 + (x.hour * 3600 + x.minute * 60 + x.second) - zone.seconds

/-- The same as clocks show it. -/
def civil (x : Timestamp) : Civil :=
  ⟨x.date, x.hour, x.minute, x.second, x.nanos⟩

theorem isDigit_digits (x : Timestamp) : ∀ c ∈ x.digits, c.isDigit := by
  intro c member
  rcases List.mem_append.mp member with own | zero
  · exact x.isDigit_fraction c own
  · rw [(List.mem_replicate.mp zero).2]
    rfl

theorem length_take_digits (x : Timestamp) {n : Nat} (most : n ≤ 9) : (x.digits.take n).length = n := by
  rw [List.length_take, digits, List.length_append, List.length_replicate]
  omega

theorem nanos_lt (x : Timestamp) : x.nanos < 1000000000 := by
  have room := @value_lt (x.digits.take 9) fun c member => x.isDigit_digits c (List.mem_of_mem_take member)
  rwa [x.length_take_digits le_rfl] at room

theorem civil_isValid (x : Timestamp) : x.civil.IsValid :=
  ⟨x.date_isValid, x.hour_lt, x.minute_lt, x.second_lt.le, x.nanos_lt⟩

theorem layout_eq (x : Timestamp) (between : Char) (rest : List Char) :
    x.layout between rest = x.civil.date.text ++ between :: (x.civil.clockText ++ rest) := by
  simp [layout, civil, Date.text, Civil.clockText, yearText, x.year_nonneg, x.year_le]

theorem layout_append (x : Timestamp) (between : Char) (rest more : List Char) :
    x.layout between (rest ++ more) = x.layout between rest ++ more := by
  simp [layout]

/-- Nine digits are the nanoseconds, so three of them are the milliseconds. -/
theorem millisText_civil (x : Timestamp) : x.civil.millisText = '.' :: x.digits.take 3 := by
  have three := x.length_take_digits (by decide : 3 ≤ 9)
  have long : 3 + 6 ≤ x.digits.length := by simp [digits]
  have millis : x.nanos / 1000000 = value (x.digits.take 3) := value_take_div x.isDigit_digits long
  have filled : x.digits.take 3 ≠ [] := List.ne_nil_of_length_pos (by omega)
  have back := padded_value filled fun c member => x.isDigit_digits c (List.mem_of_mem_take member)
  rw [three] at back
  rw [Civil.millisText, civil, millis, back]

/-- The fraction is read up to where it ends. -/
theorem fraction?_fractionChars (x : Timestamp) {rest : List Char}
    (stop : ∀ c ∈ rest.head?, c.isDigit = false ∧ c ≠ '.') :
    Time.fraction? (x.fractionChars ++ rest) = some (x.nanos, rest) := by
  by_cases empty : x.fraction = []
  · have zero : x.nanos = 0 := by
      rw [nanos, digits, empty]
      rfl
    rw [fractionChars, if_pos empty, List.nil_append, zero]
    cases rest with
    | nil => rfl
    | cons c rest =>
      have other : c ≠ '.' := (stop c rfl).2
      unfold Time.fraction?
      split
      next same => exact absurd (List.cons.inj same).1 other
      next => rfl
  · rw [fractionChars, if_neg empty]
    exact Time.fraction?_digits empty x.isDigit_fraction fun c member => (stop c member).1

/-- Each timestamp is an instant, with the days before its date, the seconds of its day and its zone in it. -/
theorem exists_toInstant? (x : Timestamp) (zone : Zone) :
    ∃ t, x.civil.toInstant? zone.seconds = some t ∧ t.seconds = x.secondsBy Date.toDays zone ∧ t.nanos = x.nanos :=
  Civil.exists_toInstant? x.civil_isValid x.second_lt ⟨x.year_nonneg, x.year_le⟩ zone.seconds_within

/-- The literal of an instant that a timestamp of UTC stands for. -/
theorem storeText_eq_literal (x : Timestamp) {t : Instant} (seconds : t.seconds = x.secondsBy Date.toDays .zulu)
    (nanos : t.nanos = x.nanos) : t.storeText = String.ofList x.literal := by
  have utc : x.secondsBy Date.toDays .zulu =
      x.civil.date.toDays * 86400 + (x.civil.hour * 3600 + x.civil.minute * 60 + x.civil.second) :=
    Int.sub_zero _
  have shown : t.toCivil = x.civil :=
    Civil.toCivil_of_toInstant? x.civil_isValid x.second_lt (seconds.trans utc) nanos
  rw [Instant.storeText, Instant.storeChars_eq_append, shown, millisText_civil, literal, layout_eq]

theorem layout_head (x : Timestamp) (between : Char) (rest : List Char) :
    ∀ c ∈ (x.layout between rest).head?, isBlank c = false := by
  rw [layout_eq]
  exact Date.text_head _ _

theorem zoned_getLast (x : Timestamp) (zone : Zone) : ∀ c ∈ (x.zoned zone).getLast?, isBlank c = false := by
  rw [zoned, layout_append]
  exact zone.chars_getLast _

theorem naive_getLast (x : Timestamp) (between : Char) : ∀ c ∈ (x.naive between).getLast?, isBlank c = false := by
  by_cases empty : x.fraction = []
  · have shape : x.naive between = (padded 4 x.date.year.toNat ++ '-' :: padded 2 x.date.month ++ '-' ::
        padded 2 x.date.day ++ between :: padded 2 x.hour ++ ':' :: padded 2 x.minute ++ [':']) ++
        padded 2 x.second := by
      simp [naive, fractionChars, empty, layout]
    rw [shape]
    exact isBlank_getLast?_digits (padded_ne_nil _ _) fun _ => isDigit_of_mem_padded
  · have shape : x.naive between = x.layout between ['.'] ++ x.fraction := by
      rw [naive, fractionChars, if_neg empty, ← layout_append]
      rfl
    rw [shape]
    exact isBlank_getLast?_digits empty x.isDigit_fraction

end Timestamp

/-- Blank characters, or none. -/
abbrev Blanks := { cs : List Char // ∀ c ∈ cs, isBlank c = true }

/-- A text with blank characters around it. -/
def surrounded (before after : Blanks) (cs : List Char) : String :=
  String.ofList (before.val ++ (cs ++ after.val))

theorem Instant.ofText?_surrounded (before after : Blanks) {cs : List Char} (first : ∀ c ∈ cs.head?, isBlank c = false)
    (last : ∀ c ∈ cs.getLast?, isBlank c = false) : ofText? (surrounded before after cs) = ofChars? cs := by
  rw [ofText?, surrounded, String.toList_ofList, trimChars_append before.property after.property first last]

namespace Timestamp

theorem ofText?_zoned (x : Timestamp) (zone : Zone) (before after : Blanks) :
    Instant.ofText? (surrounded before after (x.zoned zone)) = x.civil.toInstant? zone.seconds := by
  have early : 0 ≤ x.civil.date.year ∧ x.civil.date.year ≤ 9999 := ⟨x.year_nonneg, x.year_le⟩
  have read := Instant.ofChars?_zoned x.civil_isValid zone.chars_ne_nil (x.fraction?_fractionChars zone.chars_head)
    zone.offset?_chars
  rw [if_pos early, ← layout_eq] at read
  exact (Instant.ofText?_surrounded before after (x.layout_head _ _) (x.zoned_getLast zone)).trans read

theorem ofText?_naive (x : Timestamp) {between : Char} (known : between = 'T' ∨ between = ' ')
    (before after : Blanks) :
    Instant.ofText? (surrounded before after (x.naive between)) = x.civil.toInstant? 0 := by
  have fraction : Time.fraction? x.fractionChars = some (x.civil.nanos, []) := by
    have read := @x.fraction?_fractionChars [] (by simp)
    rwa [List.append_nil] at read
  have read := Instant.ofChars?_naive x.civil_isValid known fraction
  rw [← layout_eq] at read
  exact (Instant.ofText?_surrounded before after (x.layout_head _ _) (x.naive_getLast between)).trans read

/-- What timestamps mean, whatever blanks stand around them. With `Z` or an offset, a timestamp is read as the instant
that clocks of its zone show, by any count of the days of the calendar. The store's literal of a timestamp of UTC is
the timestamp with a blank for its `T` and three digits of its fraction. Without a zone, and with a `T` or a blank, it is
read as one of UTC. And timestamps of one instant get one literal, whatever their zones. -/
theorem calendar_kept {count : Date → Int} (counts : CountsDays count) (x : Timestamp) (before after : Blanks) :
    (∀ zone : Zone, ∃ t, Instant.ofText? (surrounded before after (x.zoned zone)) = some t ∧
      t.seconds = x.secondsBy count zone ∧ t.nanos = x.nanos) ∧
    (∀ now : Instant,
      Instant.normalized (surrounded before after (x.zoned .zulu)) now = String.ofList x.literal) ∧
    (Instant.ofText? (surrounded before after (x.naive 'T')) =
        Instant.ofText? (surrounded before after (x.zoned .zulu)) ∧
      Instant.ofText? (surrounded before after (x.naive ' ')) =
        Instant.ofText? (surrounded before after (x.zoned .zulu))) ∧
    ∀ (y : Timestamp) (zone zone' : Zone) (before' after' : Blanks) (now now' : Instant),
      x.secondsBy count zone = y.secondsBy count zone' → x.nanos = y.nanos →
      Instant.normalized (surrounded before after (x.zoned zone)) now =
        Instant.normalized (surrounded before' after' (y.zoned zone')) now' := by
  have byDays (z : Timestamp) (zone : Zone) : z.secondsBy count zone = z.secondsBy Date.toDays zone := by
    rw [secondsBy, secondsBy, counts.eq_toDays z.date_isValid]
  refine ⟨fun zone => ?_, fun now => ?_, ⟨?_, ?_⟩, fun y zone zone' before' after' now now' seconds nanos => ?_⟩
  · rw [ofText?_zoned, byDays]
    exact x.exists_toInstant? zone
  · obtain ⟨t, read, seconds, nanos⟩ := x.exists_toInstant? .zulu
    rw [Instant.normalized, ofText?_zoned, read, Option.getD_some]
    exact x.storeText_eq_literal seconds nanos
  · rw [ofText?_zoned]
    exact x.ofText?_naive (.inl rfl) before after
  · rw [ofText?_zoned]
    exact x.ofText?_naive (.inr rfl) before after
  · obtain ⟨t, read, secondsX, nanosX⟩ := x.exists_toInstant? zone
    obtain ⟨t', read', secondsY, nanosY⟩ := y.exists_toInstant? zone'
    rw [byDays, byDays] at seconds
    have same : t = t' := by
      cases t
      cases t'
      rw [Instant.mk.injEq]
      exact ⟨secondsX.trans (seconds.trans secondsY.symm), nanosX.trans (nanos.trans nanosY.symm)⟩
    rw [Instant.normalized, Instant.normalized, ofText?_zoned, ofText?_zoned, read, read', same, Option.getD_some,
      Option.getD_some]

/-- The last second of a leap day in UTC, and the same on clocks further east. -/
def leapDayEnd : Timestamp where
  date := ⟨2024, 2, 29⟩
  hour := 23
  minute := 59
  second := 59
  fraction := ['9', '9', '9', '6']
  year_nonneg := by decide
  year_le := by decide
  date_isValid := by decide
  hour_lt := by decide
  minute_lt := by decide
  second_lt := by decide
  isDigit_fraction := List.all_eq_true.mp rfl

def leapDayEndEast : Timestamp :=
  { leapDayEnd with
    date := ⟨2024, 3, 1⟩
    hour := 5
    minute := 29
    year_nonneg := by decide
    year_le := by decide
    date_isValid := by decide
    hour_lt := by decide
    minute_lt := by decide }

theorem calendar_kept_leapDay :
    CountsDays Date.toDays ∧
    leapDayEndEast.secondsBy Date.toDays (.ahead 5 30) = leapDayEnd.secondsBy Date.toDays .zulu ∧
    leapDayEndEast.nanos = leapDayEnd.nanos ∧
    Instant.normalized "\u3000 2024-03-01T05:29:59.9996+05:30\n" .epoch = "2024-02-29 23:59:59.999" := by
  have counts := Date.countsDays_toDays
  have seconds : leapDayEndEast.secondsBy Date.toDays (.ahead 5 30) = leapDayEnd.secondsBy Date.toDays .zulu := by
    decide
  have nanos : leapDayEndEast.nanos = leapDayEnd.nanos := rfl
  let before : Blanks := ⟨['\u3000', ' '], List.all_eq_true.mp rfl⟩
  let after : Blanks := ⟨['\n'], List.all_eq_true.mp rfl⟩
  have text : surrounded before after (leapDayEndEast.zoned (.ahead 5 30)) = "\u3000 2024-03-01T05:29:59.9996+05:30\n" := by
    decide +kernel
  have literal : String.ofList leapDayEnd.literal = "2024-02-29 23:59:59.999" := by decide +kernel
  obtain ⟨-, utc, -, -⟩ := calendar_kept counts leapDayEnd before after
  obtain ⟨-, -, -, alike⟩ := calendar_kept counts leapDayEndEast before after
  refine ⟨counts, seconds, nanos, ?_⟩
  rw [← text, ← literal, ← utc .epoch]
  exact alike leapDayEnd (.ahead 5 30) .zulu before after .epoch .epoch seconds nanos

end Timestamp

end EventRelay
