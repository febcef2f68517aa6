import EventRelay.Proofs.Event.Metadata
import EventRelay.Proofs.Time.Reading

/-!
The time of an event on its way from the draft to the store. It travels in another form than the store's literal, and
this form is read back for the years of four digits only.
-/

namespace EventRelay

theorem Envelope.eventTime_reread (e : Envelope) : e.reread.eventTime = e.eventTime :=
  rfl

/-- The time that the store gets for an event of the given time. -/
theorem Instant.normalized_wireText (t now : Instant) :
    normalized t.wireText now = (if 0 ≤ t.year ∧ t.year ≤ 9999 then t else now).storeText := by
  rw [normalized, ofText?_wireText]
  split
  · exact t.storeText_shown_truncateMillis
  · rfl

/-- The form in which a time travels is read as the time that clocks show, down to the millisecond, in the years of four
digits and in no others; only in a leap second inside a minute clocks show another time. So an event of these years is
stored with the time at which it occurred, whenever it was built and ingested; any other event is stored with the time
of its ingestion instead. -/
theorem Draft.eventTime_survives :
    (∀ t : Instant,
      (Instant.ofText? t.wireText = some t.shown.truncateMillis ↔ 0 ≤ t.year ∧ t.year ≤ 9999) ∧
      (Instant.ofText? t.wireText = none ↔ ¬ (0 ≤ t.year ∧ t.year ≤ 9999)) ∧
      (t.LeapAtEnd → t.shown = t)) ∧
    ∀ (d : Draft) (id : Uuid) (t built now : Instant),
      ∃ e, Envelope.decode ({ d with occurredAt := some t }.toEnvelope id built).encode = .ok e ∧
        (e.normalized now).eventTime = (if 0 ≤ t.year ∧ t.year ≤ 9999 then t else now).storeText := by
  constructor
  · intro t
    have same : t.LeapAtEnd → t.shown = t := Instant.shown_eq_self
    rw [t.ofText?_wireText]
    split
    next early => simpa [early] using same
    next late => simpa [late] using same
  · intro d id t built now
    have travels : ({ d with occurredAt := some t }.toEnvelope id built).eventTime = t.wireText := rfl
    refine ⟨_, decode_toEnvelope _ id built, ?_⟩
    change Instant.normalized (Envelope.reread _).eventTime now = _
    rw [Envelope.eventTime_reread, travels, Instant.normalized_wireText]

theorem Draft.eventTime_survives_leapSecond :
    Instant.leapSecond.LeapAtEnd ∧ (0 ≤ Instant.leapSecond.year ∧ Instant.leapSecond.year ≤ 9999) ∧
      Instant.ofText? Instant.leapSecond.wireText = some Instant.leapSecond.truncateMillis := by
  have ends : Instant.leapSecond.LeapAtEnd := by decide
  have early : 0 ≤ Instant.leapSecond.year ∧ Instant.leapSecond.year ≤ 9999 := by decide
  obtain ⟨read, -, same⟩ := Draft.eventTime_survives.1 Instant.leapSecond
  have again := read.mpr early
  rw [same ends] at again
  exact ⟨ends, early, again⟩

/-- Of a leap second inside a minute the form that travels is read as an instant of the next second. -/
theorem Instant.wireText_insideLeap_reread :
    (0 ≤ insideLeap.year ∧ insideLeap.year ≤ 9999) ∧ insideLeap.wireText = "2016-07-08T23:56:05.333Z" ∧
    (ofText? insideLeap.wireText).map (fun t => (t.seconds, t.nanos)) = some (1468022165, 333000000) ∧
    ofText? insideLeap.wireText ≠ some insideLeap.truncateMillis := by
  decide +kernel

end EventRelay
