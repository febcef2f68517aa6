import EventRelay.Event.Envelope
import EventRelay.Proofs.Time.Reading

/-!
Events that are made ready for the store. Only two of their fields are rewritten, and a second time changes one of
them: the time of ingestion.
-/

namespace EventRelay

theorem Envelope.get_normalized (e : Envelope) (now : Instant) {f : Field} (time : f ≠ .eventTime)
    (ingested : f ≠ .ingestedAt) : (e.normalized now).get f = e.get f := by
  cases f with
  | eventTime => contradiction
  | ingestedAt => contradiction
  | _ => simp only [Envelope.get, Envelope.normalized]

/-- The store's literal of an instant is read as the instant that clocks show, down to the millisecond, whatever its
year; that is the instant itself, in a leap second at the end of a minute too. So an event time that was rewritten once
stays as it is, and an event that is made ready for the store a second time only changes its time of ingestion. -/
theorem Envelope.normalized_idempotent :
    (∀ t : Instant, Instant.ofText? t.storeText = some t.shown.truncateMillis) ∧
    (∀ t : Instant, t.LeapAtEnd → t.shown = t) ∧
    (∀ (raw : String) (now again : Instant),
      Instant.normalized (Instant.normalized raw now) again = Instant.normalized raw now) ∧
    ∀ (e : Envelope) (now again : Instant),
      (e.normalized now).normalized again = { e.normalized now with ingestedAt := again.storeText } ∧
      ∀ f : Field, f ≠ .eventTime → f ≠ .ingestedAt →
        ((e.normalized now).normalized again).get f = e.get f := by
  have settled (raw : String) (now again : Instant) :
      Instant.normalized (Instant.normalized raw now) again = Instant.normalized raw now :=
    Instant.normalized_storeText _ _
  refine ⟨Instant.ofText?_storeText, fun _ => Instant.shown_eq_self, settled, fun e now again =>
    ⟨?_, fun f time ingested => ?_⟩⟩
  · simp only [Envelope.normalized, settled]
  · rw [Envelope.get_normalized _ _ time ingested, Envelope.get_normalized _ _ time ingested]

theorem Envelope.normalized_idempotent_leapSecond :
    (Instant.leapSecond.storeText = "2016-12-31 23:59:60.500" ∧ Instant.leapSecond.LeapAtEnd ∧
      Instant.ofText? Instant.leapSecond.storeText = some Instant.leapSecond.truncateMillis) ∧
    Field.orgId ≠ .eventTime ∧ Field.orgId ≠ .ingestedAt ∧
      (({ (default : Envelope) with orgId := "o" }.normalized Instant.leapSecond).normalized .epoch).get .orgId =
        "o" := by
  have text : Instant.leapSecond.storeText = "2016-12-31 23:59:60.500" := by decide +kernel
  have ends : Instant.leapSecond.LeapAtEnd := by decide
  have time : Field.orgId ≠ .eventTime := by decide
  have ingested : Field.orgId ≠ .ingestedAt := by decide
  obtain ⟨read, same, _, twice⟩ := normalized_idempotent
  have again : Instant.ofText? Instant.leapSecond.storeText = some Instant.leapSecond.truncateMillis := by
    rw [read, same _ ends]
  exact ⟨⟨text, ends, again⟩, time, ingested,
    (twice { (default : Envelope) with orgId := "o" } _ _).2 _ time ingested⟩

/-- Of a leap second inside a minute the store's literal is read as an instant of the next second. -/
theorem Instant.storeText_insideLeap_reread :
    insideLeap.storeText = "2016-07-08 23:56:05.333" ∧
    (ofText? insideLeap.storeText).map (fun t => (t.seconds, t.nanos)) = some (1468022165, 333000000) ∧
    ofText? insideLeap.storeText ≠ some insideLeap.truncateMillis := by
  decide +kernel

end EventRelay
