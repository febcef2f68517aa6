import EventRelay.Proofs.Ingest.Feed
import EventRelay.Proofs.Ingest.Turns

/-!
Deliveries from which no row comes. A consumer whose batches are looked at in time counts them as errors or not at
all, notes their offsets, and is as close to its next flush as before.
-/

namespace EventRelay

variable {σ : Type}

namespace Delivery

/-- Whether a delivery by itself is an error: a message that cannot be decoded, or a poll that fails. -/
def isFault : Delivery → Bool
  | .message payload _ => !isReadable payload
  | .timeout => false
  | .error _ => true

/-- Whether no row comes of a delivery. -/
def isNoise : Delivery → Bool
  | .message payload _ => !isReadable payload
  | _ => true

theorem message_isNoise {payload : Bytes} {position : Position} (noise : (message payload position).isNoise) :
    ∃ error, Envelope.decode payload = .error error := by
  cases decoded : Envelope.decode payload with
  | ok e =>
    have readable : isReadable payload = true := congrArg Except.isOk decoded
    simp [isNoise, readable] at noise
  | error error => exact ⟨error, rfl⟩

theorem exists_message {delivery : Delivery} (eventful : ¬ delivery.isNoise) :
    ∃ payload position e, delivery = .message payload position ∧ Envelope.decode payload = .ok e := by
  cases delivery with
  | message payload position =>
    cases decoded : Envelope.decode payload with
    | ok e => exact ⟨payload, position, e, rfl, decoded⟩
    | error error =>
      have unreadable : isReadable payload = false := congrArg Except.isOk decoded
      simp [isNoise, unreadable] at eventful
  | timeout => exact absurd rfl eventful
  | error _ => exact absurd rfl eventful

end Delivery

/-- What the store and the reader are going to answer: how many rows of an insert are written, all of them if the
number is left open, and whether a commit succeeds. Once the answers are used up, all goes well. -/
structure Answers where
  inserts : List (Option Nat)
  commits : List Bool

namespace Answers

def written (a : Answers) (rows : Nat) : Nat :=
  a.inserts.head?.join.getD rows

def succeeds (a : Answers) : Bool :=
  a.commits.headD true

def inserted (a : Answers) : Answers :=
  { a with inserts := a.inserts.tail }

def committed (a : Answers) : Answers :=
  { a with commits := a.commits.tail }

end Answers

/-- A source with so many deliveries left to bring, beside which inserts and commits are answered from lists. -/
structure Ports.Plays (io : Ports σ) (raised : σ → Bool) (left : σ → List Delivery) (answers : σ → Answers) : Prop where
  feeds : io.Feeds raised left
  poll : ∀ wait w, answers (io.reader.poll wait w).2 = answers w
  insert : ∀ rows w, (io.store.insert rows w).1 = (answers w).written rows.length ∧
    answers (io.store.insert rows w).2 = (answers w).inserted
  commit : ∀ positions w, (io.reader.commit positions w).1.isOk = (answers w).succeeds ∧
    answers (io.reader.commit positions w).2 = (answers w).committed
  moment : ∀ w, answers (io.clocks.moment w).2 = answers w
  instant : ∀ w, answers (io.clocks.instant w).2 = answers w

namespace Script

def answers (s : Script) : Answers :=
  ⟨s.inserts, s.commits.map Option.isNone⟩

theorem ports_plays : ports.Plays Script.shutdown left answers where
  feeds := ports_feeds
  poll _ s := by
    simp only [ports, reader, poll]
    split <;> rfl
  insert rows s := by
    rcases answered : s.inserts with _ | ⟨_ | n, rest⟩ <;>
      simp [ports, store, insert, answered, Script.answers, Answers.written, Answers.inserted]
  commit _ s := by
    rcases answered : s.commits with _ | ⟨_ | reason, rest⟩ <;>
      simp [ports, reader, commit, answered, Script.answers, Answers.succeeds, Answers.committed, Except.isOk,
        Except.toBool]
  moment _ := rfl
  instant _ := rfl

end Script

/-- The counters that are not of errors. -/
def Metrics.counts (m : Metrics) : UInt64 × UInt64 × UInt64 :=
  (m.consumed, m.inserted, m.batches)

namespace Consumer

section Wrote

variable (c : Consumer (Recorded σ)) (now : Instant) (result : Except BusError Unit) (w : σ)

theorem wrote_calls : (c.wrote now result w).world.calls = c.world.calls ++
    [.insert c.batch.rows c.batch.rows.length, .instant now,
      .commit (nextPositions c.batch.extents c.limits) result.isOk] := rfl

theorem wrote_counts : (c.wrote now result w).metrics.counts =
    (c.metrics.counts.1, c.metrics.counts.2.1 + c.batch.size.toUInt64, c.metrics.counts.2.2 + 1) := by
  simp only [wrote]
  split <;> rfl

theorem wrote_errors : (c.wrote now result w).metrics.errors =
    c.metrics.errors + if result.isOk then 0 else 1 := by
  simp only [wrote]
  split <;> simp [Metrics.withStore, Metrics.countBatch, Metrics.countErrors]

end Wrote

/-- Nothing but so many faults came between two states of a consumer: its batch has the same rows, nothing was
stored, and nothing else was counted. -/
structure Passed (answers : σ → Answers) (faults : Nat) (c d : Consumer (Recorded σ)) : Prop where
  settings : d.settings = c.settings
  batch : d.batch = { c.batch with extents := d.batch.extents }
  calls : Quiet c.world.calls d.world.calls
  answers : answers d.world.world = answers c.world.world
  counts : d.metrics.counts = c.metrics.counts
  errors : d.metrics.errors = c.metrics.errors + .ofNat faults

namespace Passed

variable {answers : σ → Answers} {m n : Nat} {c d e : Consumer (Recorded σ)}

theorem refl (answers : σ → Answers) (c : Consumer (Recorded σ)) : Passed answers 0 c c :=
  ⟨rfl, rfl, .refl _, rfl, rfl, by simp⟩

theorem trans (first : Passed answers m c d) (second : Passed answers n d e) : Passed answers (m + n) c e where
  settings := second.settings.trans first.settings
  batch := by rw [second.batch, first.batch]
  calls := first.calls.trans second.calls
  answers := second.answers.trans first.answers
  counts := second.counts.trans first.counts
  errors := by rw [second.errors, first.errors, UInt64.ofNat_add, UInt64.add_assoc]

theorem rows (passed : Passed answers n c d) : d.batch.rows = c.batch.rows := by rw [passed.batch]

theorem failures (passed : Passed answers n c d) : d.batch.failures = c.batch.failures := by rw [passed.batch]

theorem watched (passed : Passed answers n c d) (watched : c.Watched) : d.Watched := by
  intro time opened
  rw [passed.batch] at opened
  exact (watched time opened).later passed.calls

end Passed

/-- An event was taken between two states of a consumer, and nothing else came in. -/
structure Taken (answers : σ → Answers) (e : Envelope) (c d : Consumer (Recorded σ)) : Prop where
  settings : d.settings = c.settings
  rows : ∃ now, d.batch.rows = c.batch.rows ++ [e.normalized now]
  failures : d.batch.failures = c.batch.failures
  calls : Quiet c.world.calls d.world.calls
  answers : answers d.world.world = answers c.world.world
  counts : d.metrics.counts = (c.metrics.counts.1 + 1, c.metrics.counts.2)
  errors : d.metrics.errors = c.metrics.errors

/-- A consumer whose batch, unless it is about to be flushed again, has room for a row, and was not inserted since
its first row was taken. -/
structure Ready (c : Consumer (Recorded σ)) : Prop where
  tallies : c.Tallies
  short : c.batch.failures = 0 → c.batch.rows.length < c.settings.maxSize
  watched : c.batch.failures = 0 → c.Watched

theorem fresh_ready (settings : BatchPolicy) (metrics : Metrics) (w : σ) (fits : 0 < settings.maxSize) :
    (fresh settings metrics w).Ready :=
  ⟨.start settings.maxFlushes, fun _ => fits, fun _ _ opened => by cases opened⟩

/-- After a flush nothing is held, or else the batch is to be flushed again. -/
theorem flush_afresh (io : Ports σ) {c : Consumer (Recorded σ)} (some : c.batch.rows ≠ [])
    (next : c.batch.failures + 1 ≠ 0) :
    (c.flush io.recorded).2.batch = .empty ∨ (c.flush io.recorded).2.batch.failures ≠ 0 := by
  rcases flush_cases io some with ⟨_, _, _, run, _, emptied, _⟩ | ⟨_, _, _, _, _, run⟩
  · exact .inl (by rw [run, emptied])
  · exact .inr (by rw [run]; exact next)

section Turn

variable {io : Ports σ} {raised : σ → Bool} {left : σ → List Delivery} {answers : σ → Answers}
  (plays : io.Plays raised left answers) {c : Consumer (Recorded σ)}

include plays

/-- A flush of a batch with rows, as what is answered has it. -/
theorem flush_answered (some : c.batch.rows ≠ []) {count : Nat}
    (answered : (answers c.world.world).written c.batch.rows.length = count) :
    (count = c.batch.rows.length ∧ ∃ now result w, answers w = (answers c.world.world).inserted.committed ∧
        result.isOk = (answers c.world.world).inserted.succeeds ∧
        c.flush io.recorded = (if result.isOk then .committed else .uncommitted, c.wrote now result w)) ∨
      count ≠ c.batch.rows.length ∧ ∃ w, answers w = (answers c.world.world).inserted ∧
        c.flush io.recorded =
          if c.settings.maxFlushes ≤ c.batch.failures + 1 then
            (.dropped, (c.failed (c.world.after w [.insert c.batch.rows count])).dropBatch)
          else (.retained, c.failed (c.world.after w [.insert c.batch.rows count])) := by
  rcases insertion : io.store.insert c.batch.rows c.world.world with ⟨written, w⟩
  obtain ⟨counted, next⟩ := plays.insert c.batch.rows c.world.world
  rw [insertion] at counted next
  obtain rfl : written = count := counted.trans answered
  by_cases whole : written = c.batch.rows.length
  · rcases reading : io.clocks.instant w with ⟨now, v⟩
    rcases commission : io.reader.commit (nextPositions c.batch.extents c.limits) v with ⟨result, u⟩
    have kept : answers v = (answers c.world.world).inserted := by
      have still := plays.instant w
      rw [reading] at still
      exact still.trans next
    obtain ⟨agreed, after⟩ := plays.commit (nextPositions c.batch.extents c.limits) v
    rw [commission, kept] at agreed after
    exact .inl ⟨whole, now, result, u, after, agreed, flush_whole some insertion whole reading commission⟩
  · refine .inr ⟨whole, w, next, ?_⟩
    split
    next spent => exact flush_spent some insertion whole spent
    next spare => exact flush_spare some insertion whole spare

theorem look_passed (prompt : Prompt c.settings.maxAge (c.flushOverdue io.recorded).world.calls)
    (watched : c.Watched) : Passed answers 0 c (c.flushOverdue io.recorded) := by
  obtain ⟨seen, w, reading, looked⟩ := flushOverdue_prompt prompt watched
  have same : answers w = answers c.world.world := by simpa [reading] using plays.moment c.world.world
  rw [looked]
  exact ⟨rfl, rfl, .of_append (by simp [Call.stores]), same, rfl, by simp⟩

/-- A turn that brings noise. -/
theorem step_noise (ready : c.Ready) (consuming : c.phase = .consuming) (fine : c.batch.failures = 0)
    {delivery : Delivery} {w : σ} (polled : io.reader.poll c.settings.pollWait c.world.world = (delivery, w))
    (noise : delivery.isNoise) (prompt : Prompt c.settings.maxAge (c.step io.recorded).world.calls) :
    Passed answers (if delivery.isFault then 1 else 0) c (c.step io.recorded) := by
  have same : answers w = answers c.world.world := by
    simpa [polled] using plays.poll c.settings.pollWait c.world.world
  have poll : Quiet c.world.calls (c.polled delivery w).world.calls := .of_append (by simp [Call.stores])
  rw [step_polled consuming fine polled] at prompt ⊢
  cases delivery with
  | message payload position =>
    obtain ⟨error, undecodable⟩ := Delivery.message_isNoise noise
    have skip : Passed answers 1 c ((c.polled (.message payload position) w).skipped position) :=
      ⟨rfl, rfl, poll, same, rfl, rfl⟩
    rw [react, receive_undecodable io undecodable, polled_settings, polled_batch,
      if_neg (Nat.not_le.mpr (ready.short fine))] at prompt ⊢
    have fault : (Delivery.message payload position).isFault = true := noise
    rw [if_pos fault]
    exact skip.trans (look_passed plays prompt (skip.watched (ready.watched fine)))
  | timeout =>
    have idle : Passed answers 0 c { c.polled .timeout w with
        metrics := c.metrics.withBus (io.reader.isConnected w) } :=
      ⟨rfl, rfl, poll, same, rfl, by simp [Metrics.withBus]⟩
    exact idle.trans (look_passed plays prompt (idle.watched (ready.watched fine)))
  | error reason => exact ⟨rfl, rfl, poll, same, rfl, rfl⟩

/-- A turn that brings an event takes it, and flushes the batch if that makes it full. -/
theorem step_event (ready : c.Ready) (consuming : c.phase = .consuming) (fine : c.batch.failures = 0)
    {payload : Bytes} {position : Position} {e : Envelope} (decoded : Envelope.decode payload = .ok e) {w : σ}
    (polled : io.reader.poll c.settings.pollWait c.world.world = (.message payload position, w))
    (prompt : Prompt c.settings.maxAge (c.step io.recorded).world.calls) :
    ∃ d, Taken answers e c d ∧ d.Watched ∧
      if c.settings.maxSize ≤ c.batch.rows.length + 1 then c.step io.recorded = (d.flush io.recorded).2
      else Passed answers 0 d (c.step io.recorded) := by
  obtain ⟨now, taken, w₁, w₂, stamped, looked, received⟩ :=
    receive_decoded io decoded position (c.polled (.message payload position) w)
  have same : answers w₂ = answers c.world.world := by
    calc answers w₂ = answers w₁ := by simpa [looked] using plays.moment w₁
      _ = answers w := by simpa [show io.clocks.instant w = (now, w₁) from stamped] using plays.instant w
      _ = answers c.world.world := by simpa [polled] using plays.poll c.settings.pollWait c.world.world
  have took : Taken answers e c ((c.polled (.message payload position) w).took e position now taken w₂) := by
    have poll : Quiet c.world.calls (c.polled (.message payload position) w).world.calls :=
      .of_append (by simp [Call.stores])
    exact ⟨rfl, ⟨now, rfl⟩, rfl, poll.trans (.of_append (by simp [Call.stores])), same, rfl, rfl⟩
  have earlier : (c.polled (.message payload position) w).Watched :=
    fun time opened => (ready.watched fine time opened).append (by simp)
  have watched := took_watched earlier e position now taken w₂
  rw [step_polled consuming fine polled, react, received, polled_settings, polled_batch] at prompt ⊢
  refine ⟨_, took, watched, ?_⟩
  split at prompt
  next full => rw [if_pos full, if_pos full]
  next spare =>
    rw [if_neg spare, if_neg spare]
    exact look_passed plays prompt watched

/-- A turn that flushes a batch again, or brings what makes one full, leaves nothing held that is not to be flushed
again. Any other turn leaves room for a row. -/
theorem Ready.step (fits : 0 < c.settings.maxSize) (ready : c.Ready) (consuming : c.phase = .consuming)
    (prompt : Prompt c.settings.maxAge (c.step io.recorded).world.calls) : (c.step io.recorded).Ready := by
  have tallies : (c.step io.recorded).Tallies :=
    (step_moves io c).preserves (fun move => move.tallies) ready.tallies
  have flushed {d : Consumer (Recorded σ)} (some : d.batch.rows ≠ []) (next : d.batch.failures + 1 ≠ 0)
      (step : c.step io.recorded = (d.flush io.recorded).2) : (c.step io.recorded).Ready := by
    rcases flush_afresh io some next with emptied | failed
    · refine ⟨tallies, fun _ => ?_, fun _ time opened => ?_⟩
      · rw [step_settings, step, emptied]
        exact fits
      · rw [step, emptied] at opened
        cases opened
    · rw [← step] at failed
      exact ⟨tallies, fun fine => absurd fine failed, fun fine => absurd fine failed⟩
  by_cases fine : c.batch.failures = 0
  swap
  · have next : c.batch.failures + 1 ≠ 0 := fun zero => by
      have count := ready.tallies.failures_succ
      simp [zero] at count
    exact flushed (ready.tallies.rows_of_failures fine) next (step_again io.recorded consuming fine)
  rcases polled : io.reader.poll c.settings.pollWait c.world.world with ⟨delivery, w⟩
  by_cases noise : delivery.isNoise
  · have passed := step_noise plays ready consuming fine polled noise prompt
    exact ⟨tallies, fun _ => by rw [passed.rows, passed.settings]; exact ready.short fine,
      fun _ => passed.watched (ready.watched fine)⟩
  · obtain ⟨payload, position, e, rfl, decoded⟩ := Delivery.exists_message noise
    obtain ⟨d, took, watched, taken⟩ := step_event plays ready consuming fine decoded polled prompt
    obtain ⟨now, rows⟩ := took.rows
    split at taken
    next => exact flushed (by simp [rows]) (by simp [took.failures, fine]) taken
    next spare =>
      refine ⟨tallies, fun _ => ?_, fun _ => taken.watched watched⟩
      rw [taken.rows, taken.settings, rows, took.settings, List.length_append, List.length_singleton]
      exact Nat.not_le.mp spare

end Turn

end Consumer

end EventRelay
