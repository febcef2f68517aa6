import EventRelay.Proofs.Ingest.Rows

/-!
Runs with notes. The calls of a consumer do not tell whether its source was connected after a poll,
whether it was to stop when it polled, and what was sent to the store to write its rows. Such things
are noted outside, by ports that do nothing else than the ports they are made of.
-/

namespace EventRelay

/-- What lies outside, with notes of what has happened there. -/
structure Annotated (σ ν : Type) where
  world : σ
  notes : List ν := []

variable {σ ν : Type}

def BusReader.annotated (reader : BusReader σ) : BusReader (Annotated σ ν) where
  poll := fun wait s => let (d, w) := reader.poll wait s.world; (d, { s with world := w })
  commit := fun positions s => let (r, w) := reader.commit positions s.world; (r, { s with world := w })
  close := fun s => { s with world := reader.close s.world }
  isConnected := fun s => reader.isConnected s.world

def RowStore.annotated (store : RowStore σ) : RowStore (Annotated σ ν) where
  ping := fun s => let (up, w) := store.ping s.world; (up, { s with world := w })
  insert := fun rows s => let (n, w) := store.insert rows s.world; (n, { s with world := w })

def Clocks.annotated (clocks : Clocks σ) : Clocks (Annotated σ ν) where
  moment := fun s => let (m, w) := clocks.moment s.world; (m, { s with world := w })
  instant := fun s => let (i, w) := clocks.instant s.world; (i, { s with world := w })

theorem BusReader.poll_notes {reader : BusReader σ} {wait : Span} {s w : Annotated σ ν} {delivery : Delivery}
    (told : reader.annotated.poll wait s = (delivery, w)) : w.notes = s.notes := by
  cases told
  rfl

theorem BusReader.commit_notes {reader : BusReader σ} {positions : List Position} {s w : Annotated σ ν}
    {result : Except BusError Unit} (told : reader.annotated.commit positions s = (result, w)) :
    w.notes = s.notes := by
  cases told
  rfl

theorem RowStore.insert_notes {store : RowStore σ} {rows : List Envelope} {s w : Annotated σ ν} {written : Nat}
    (told : store.annotated.insert rows s = (written, w)) : w.notes = s.notes := by
  cases told
  rfl

theorem Clocks.moment_notes {clocks : Clocks σ} {s w : Annotated σ ν} {now : Moment}
    (told : clocks.annotated.moment s = (now, w)) : w.notes = s.notes := by
  cases told
  rfl

theorem Clocks.instant_notes {clocks : Clocks σ} {s w : Annotated σ ν} {now : Instant}
    (told : clocks.annotated.instant s = (now, w)) : w.notes = s.notes := by
  cases told
  rfl

/-- The states of a consumer after operations, made one after the other in any order, and the
payloads that were decoded by themselves. Between operations whatever lies outside may change, but
not what is noted of it. -/
inductive ConsumerRun (io : Ports (Annotated σ ν)) (start : Consumer (Recorded (Annotated σ ν))) :
    List Bytes → Consumer (Recorded (Annotated σ ν)) → Prop
  | start : ConsumerRun io start [] start
  | pause {apart c} (w : σ) : ConsumerRun io start apart c →
      ConsumerRun io start apart
        { c with world := { c.world with world := { c.world.world with world := w } } }
  | step {apart c} : ConsumerRun io start apart c → ConsumerRun io start apart (c.step io.recorded)
  | flush {apart c} : ConsumerRun io start apart c → ConsumerRun io start apart (c.flush io.recorded).2
  | drain {apart c} : ConsumerRun io start apart c → ConsumerRun io start apart (c.drain io.recorded)
  | decode {apart c} (payload : Bytes) : ConsumerRun io start apart c →
      ConsumerRun io start (apart ++ [payload]) (c.decode io.recorded payload).2
  | run {apart c d} (raised : Recorded (Annotated σ ν) → Bool) (turns : Nat) : ConsumerRun io start apart c →
      c.runFor io.recorded raised turns = some d → ConsumerRun io start apart d

namespace ConsumerRun

variable {io : Ports (Annotated σ ν)} {start c : Consumer (Recorded (Annotated σ ν))} {apart : List Bytes}

theorem reach (run : ConsumerRun io start apart c) : ConsumerReach io start c := by
  induction run with
  | start => exact .start
  | pause w _ ih => exact .pause _ ih
  | step _ ih => exact .step ih
  | flush _ ih => exact .flush ih
  | drain _ ih => exact .drain ih
  | decode payload _ ih => exact .decode payload ih
  | run raised turns _ run ih => exact .run raised turns ih run

/-- What each move keeps, each change outside that leaves the notes alone, and each payload that is
decoded by itself, holds after every run. -/
theorem preserves {P : List Bytes → Consumer (Recorded (Annotated σ ν)) → Prop} (run : ConsumerRun io start apart c)
    (moved : ∀ {apart c d}, Consumer.Move io c d → P apart c → P apart d)
    (paused : ∀ {apart} {c : Consumer (Recorded (Annotated σ ν))} (w : σ), P apart c →
      P apart { c with world := { c.world with world := { c.world.world with world := w } } })
    (decoded : ∀ {apart c payload e}, Envelope.decode payload = .ok e → P apart c → P (apart ++ [payload]) c)
    (refused : ∀ {apart payload error} {c : Consumer (Recorded (Annotated σ ν))},
      Envelope.decode payload = .error error → P apart c →
      P (apart ++ [payload]) { c with metrics := c.metrics.countErrors 1 })
    (begun : P [] start) : P apart c := by
  induction run with
  | start => exact begun
  | pause w _ ih => exact paused w ih
  | step _ ih => exact (Consumer.step_moves io _).preserves moved ih
  | flush _ ih => exact (Consumer.flush_moves io _).preserves moved ih
  | drain _ ih => exact (Consumer.drain_moves io _).preserves moved ih
  | @decode apart c payload _ ih =>
    rcases Consumer.decode_moves io payload c with ⟨e, readable, moves⟩ | ⟨error, unreadable, same⟩
    · exact moves.preserves moved (decoded readable ih)
    · exact same ▸ refused unreadable ih
  | run raised turns _ run ih => exact (Consumer.runFor_moves io raised run).preserves moved ih

end ConsumerRun

end EventRelay
