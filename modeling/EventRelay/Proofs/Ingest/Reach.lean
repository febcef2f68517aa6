import EventRelay.Ingest.Script
import Mathlib.Logic.Relation

/-!
All that a consumer can do. `ConsumerReach` has the states that a new consumer gets into by its
operations, in any order and whatever the bus, the store and the clocks answer. Each operation is a
sequence of the moves of `Consumer.Move`, which tell what is asked of the outside and what comes of it.
-/

namespace EventRelay

variable {σ : Type}

/-- The surroundings after more calls, and with them whatever else lies outside. -/
def Recorded.after (r : Recorded σ) (world : σ) (more : List Call) : Recorded σ :=
  ⟨world, r.calls ++ more⟩

namespace Consumer

/-- A consumer that has done nothing yet. -/
def fresh (settings : BatchPolicy) (metrics : Metrics) (world : σ) : Consumer (Recorded σ) where
  settings := settings
  metrics := metrics
  world := ⟨world, []⟩

/-- A consumer one insert of whose batch has failed. -/
def failed (c : Consumer (Recorded σ)) (world : Recorded σ) : Consumer (Recorded σ) :=
  { c with
    batch := { c.batch with failures := c.batch.failures + 1 }
    metrics := c.metrics.withStore false
    world }

/-- A consumer whose batch was written in full, and what came of the commit of it. -/
def wrote (c : Consumer (Recorded σ)) (now : Instant) (result : Except BusError Unit) (w : σ) :
    Consumer (Recorded σ) :=
  { c with
    batch := .empty
    metrics :=
      let metrics := (c.metrics.countBatch c.batch.size.toUInt64 now).withStore true
      if result.isOk then metrics else metrics.countErrors 1
    world := c.world.after w
      [.insert c.batch.rows c.batch.rows.length, .instant now,
        .commit (nextPositions c.batch.extents c.limits) result.isOk] }

/-- The least that a consumer does at once, and what it is answered. -/
inductive Move (io : Ports σ) : Consumer (Recorded σ) → Consumer (Recorded σ) → Prop
  | look (c : Consumer (Recorded σ)) {now : Moment} {w : σ} : io.clocks.moment c.world.world = (now, w) →
      Move io c { c with world := c.world.after w [.moment now] }
  /-- A payload is decoded, and normalized, apart from any message. -/
  | stamp (c : Consumer (Recorded σ)) {now : Instant} {w : σ} : io.clocks.instant c.world.world = (now, w) →
      Move io c { c with world := c.world.after w [.instant now] }
  | idle (c : Consumer (Recorded σ)) {w : σ} :
      c.phase = .consuming → c.batch.failures = 0 →
      io.reader.poll c.settings.pollWait c.world.world = (.timeout, w) →
      Move io c { c with
        metrics := c.metrics.withBus (io.reader.isConnected w)
        world := c.world.after w [.poll c.settings.pollWait .timeout] }
  | trouble (c : Consumer (Recorded σ)) {reason : String} {w : σ} :
      c.phase = .consuming → c.batch.failures = 0 →
      io.reader.poll c.settings.pollWait c.world.world = (.error reason, w) →
      Move io c { c with
        metrics := (c.metrics.countErrors 1).withBus false
        world := c.world.after w [.poll c.settings.pollWait (.error reason)] }
  | skip (c : Consumer (Recorded σ)) {payload : Bytes} {position : Position} {error : DecodeError} {w : σ} :
      c.phase = .consuming → c.batch.failures = 0 → Envelope.decode payload = .error error →
      io.reader.poll c.settings.pollWait c.world.world = (.message payload position, w) →
      Move io c { c with
        metrics := (c.metrics.withBus true).countErrors 1
        batch := c.batch.markRead position
        world := c.world.after w [.poll c.settings.pollWait (.message payload position)] }
  | take (c : Consumer (Recorded σ)) {payload : Bytes} {position : Position} {e : Envelope} {now : Instant}
      {opened : Moment} {w₁ w₂ w : σ} :
      c.phase = .consuming → c.batch.failures = 0 → Envelope.decode payload = .ok e →
      io.reader.poll c.settings.pollWait c.world.world = (.message payload position, w₁) →
      io.clocks.instant w₁ = (now, w₂) → io.clocks.moment w₂ = (opened, w) →
      Move io c { c with
        metrics := (c.metrics.withBus true).countConsumed 1
        batch := (c.batch.markRead position).push (e.normalized now) opened
        world := c.world.after w
          [.poll c.settings.pollWait (.message payload position), .instant now, .moment opened] }
  | write (c : Consumer (Recorded σ)) {now : Instant} {result : Except BusError Unit} {w₁ w₂ w : σ} :
      c.batch.rows ≠ [] → io.store.insert c.batch.rows c.world.world = (c.batch.rows.length, w₁) →
      io.clocks.instant w₁ = (now, w₂) →
      io.reader.commit (nextPositions c.batch.extents c.limits) w₂ = (result, w) →
      Move io c { c with
        batch := .empty
        metrics :=
          let metrics := (c.metrics.countBatch c.batch.size.toUInt64 now).withStore true
          if result.isOk then metrics else metrics.countErrors 1
        world := c.world.after w
          [.insert c.batch.rows c.batch.rows.length, .instant now,
            .commit (nextPositions c.batch.extents c.limits) result.isOk] }
  | retain (c : Consumer (Recorded σ)) {written : Nat} {w : σ} :
      c.batch.rows ≠ [] → written ≠ c.batch.rows.length → ¬ c.settings.maxFlushes ≤ c.batch.failures + 1 →
      io.store.insert c.batch.rows c.world.world = (written, w) →
      Move io c (c.failed (c.world.after w [.insert c.batch.rows written]))
  | drop (c : Consumer (Recorded σ)) {written : Nat} {w : σ} :
      c.batch.rows ≠ [] → written ≠ c.batch.rows.length → c.settings.maxFlushes ≤ c.batch.failures + 1 →
      io.store.insert c.batch.rows c.world.world = (written, w) →
      Move io c (c.failed (c.world.after w [.insert c.batch.rows written])).dropBatch
  | wane (c : Consumer (Recorded σ)) : c.phase ≠ .stopped → Move io c { c with phase := .draining }
  | stop (c : Consumer (Recorded σ)) : c.phase = .draining → c.batch.rows = [] →
      Move io c { c with
        phase := .stopped
        world := c.world.after (io.reader.close c.world.world) [.close] }
  /-- The last insert fails. Nothing is done between the end of the batch and that of the subscription. -/
  | abandon (c : Consumer (Recorded σ)) {written : Nat} {w : σ} :
      c.phase = .draining → c.batch.rows ≠ [] → written ≠ c.batch.rows.length →
      ¬ c.settings.maxFlushes ≤ c.batch.failures + 1 →
      io.store.insert c.batch.rows c.world.world = (written, w) →
      Move io c { (c.failed (c.world.after (io.reader.close w) [.insert c.batch.rows written, .close])).dropBatch with
        phase := .stopped }

/-- Any number of moves. -/
abbrev Moves (io : Ports σ) : Consumer (Recorded σ) → Consumer (Recorded σ) → Prop :=
  Relation.ReflTransGen (Move io)

theorem flush_of_rows_eq_nil (io : Ports σ) {c : Consumer σ} (none : c.batch.rows = []) :
    c.flush io = (.empty, c) := by
  simp [flush, Batch.isEmpty, none]

/-- A batch that was kept is flushed again before anything else. -/
theorem step_again (io : Ports σ) {c : Consumer σ} (consuming : c.phase = .consuming) (failed : c.batch.failures ≠ 0) :
    c.step io = (c.flush io).2 := by
  simp [step, consuming, UInt32.pos_iff_ne_zero.mpr failed]

section Flush

variable {io : Ports σ} {c : Consumer (Recorded σ)} {written : Nat} {w : σ} (some : c.batch.rows ≠ [])
  (insertion : io.store.insert c.batch.rows c.world.world = (written, w))

include some insertion

/-- A batch that is written in full is committed. -/
theorem flush_whole (whole : written = c.batch.rows.length) {now : Instant} {result : Except BusError Unit} {w' w'' : σ}
    (reading : io.clocks.instant w = (now, w'))
    (commission : io.reader.commit (nextPositions c.batch.extents c.limits) w' = (result, w'')) :
    c.flush io.recorded = (if result.isOk then .committed else .uncommitted, c.wrote now result w'') := by
  have filled : c.batch.isEmpty = false := by simpa [Batch.isEmpty] using some
  cases result <;>
    simp [flush, filled, Ports.recorded, insertion, whole, Batch.size, reading, commission, wrote, Recorded.after,
      Except.isOk, Except.toBool]

/-- A batch that is not written in full is dropped with its last flush. -/
theorem flush_spent (short : written ≠ c.batch.rows.length) (spent : c.settings.maxFlushes ≤ c.batch.failures + 1) :
    c.flush io.recorded = (.dropped, (c.failed (c.world.after w [.insert c.batch.rows written])).dropBatch) := by
  have filled : c.batch.isEmpty = false := by simpa [Batch.isEmpty] using some
  simp [flush, filled, Ports.recorded, insertion, short, Batch.size, spent, failed, Recorded.after]

/-- A batch that is not written in full is kept as long as it has flushes left. -/
theorem flush_spare (short : written ≠ c.batch.rows.length) (left : ¬ c.settings.maxFlushes ≤ c.batch.failures + 1) :
    c.flush io.recorded = (.retained, c.failed (c.world.after w [.insert c.batch.rows written])) := by
  have filled : c.batch.isEmpty = false := by simpa [Batch.isEmpty] using some
  simp [flush, filled, Ports.recorded, insertion, short, Batch.size, left, failed, Recorded.after]

end Flush

/-- What a flush of a batch with rows does, and how its result tells. -/
theorem flush_cases (io : Ports σ) {c : Consumer (Recorded σ)} (some : c.batch.rows ≠ []) :
    (∃ result d, Move io c d ∧ c.flush io.recorded = (result, d) ∧ result ≠ .retained ∧
        d.batch = .empty ∧ d.phase = c.phase) ∨
      ∃ written w, written ≠ c.batch.rows.length ∧ ¬ c.settings.maxFlushes ≤ c.batch.failures + 1 ∧
        io.store.insert c.batch.rows c.world.world = (written, w) ∧
        c.flush io.recorded = (.retained, c.failed (c.world.after w [.insert c.batch.rows written])) := by
  rcases insertion : io.store.insert c.batch.rows c.world.world with ⟨written, w⟩
  by_cases whole : written = c.batch.rows.length
  · rcases reading : io.clocks.instant w with ⟨now, w'⟩
    rcases commission : io.reader.commit (nextPositions c.batch.extents c.limits) w' with ⟨result, w''⟩
    refine .inl ⟨_, _, .write c some (whole ▸ insertion) reading commission,
      flush_whole some insertion whole reading commission, ?_, rfl, rfl⟩
    split <;> decide
  by_cases spent : c.settings.maxFlushes ≤ c.batch.failures + 1
  · exact .inl ⟨_, _, .drop c some whole spent insertion, flush_spent some insertion whole spent, by decide, rfl, rfl⟩
  · exact .inr ⟨written, w, whole, spent, rfl, flush_spare some insertion whole spent⟩

theorem flush_moves (io : Ports σ) (c : Consumer (Recorded σ)) : Moves io c (c.flush io.recorded).2 := by
  by_cases some : c.batch.rows = []
  · rw [flush_of_rows_eq_nil io.recorded some]
  rcases flush_cases io some with ⟨_, d, moved, run, _⟩ | ⟨written, w, short, left, insertion, run⟩
  · rw [run]
    exact .single moved
  · rw [run]
    exact .single (.retain c some short left insertion)

theorem flushOverdue_moves (io : Ports σ) (c : Consumer (Recorded σ)) :
    Moves io c (c.flushOverdue io.recorded) := by
  refine .head (Move.look c rfl) ?_
  change Moves io _ (if _ then _ else _)
  split
  · exact flush_moves io _
  · exact .refl

/-- A payload that is decoded by itself moves the clock, or else is counted as an error. -/
theorem decode_moves (io : Ports σ) (payload : Bytes) (c : Consumer (Recorded σ)) :
    (∃ e, Envelope.decode payload = .ok e ∧ Moves io c (c.decode io.recorded payload).2) ∨
      ∃ error, Envelope.decode payload = .error error ∧
        (c.decode io.recorded payload).2 = { c with metrics := c.metrics.countErrors 1 } := by
  unfold decode
  cases Envelope.decode payload with
  | ok e => exact .inl ⟨e, rfl, .single (.stamp c rfl)⟩
  | error error => exact .inr ⟨error, rfl, rfl⟩

/-- After a message was taken in, the batch is flushed at once or looked at for its age. -/
theorem receive_moves (io : Ports σ) {c : Consumer (Recorded σ)} {payload : Bytes} {position : Position} {w : σ}
    (consuming : c.phase = .consuming) (fine : c.batch.failures = 0)
    (polled : io.reader.poll c.settings.pollWait c.world.world = (.message payload position, w)) :
    Moves io c (receive io.recorded payload position
      { c with world := c.world.after w [.poll c.settings.pollWait (.message payload position)] }) := by
  have rest : ∀ d : Consumer (Recorded σ), Moves io d
      (if d.settings.maxSize ≤ d.batch.size then (d.flush io.recorded).2 else d.flushOverdue io.recorded) := by
    intro d
    split
    · exact flush_moves io d
    · exact flushOverdue_moves io d
  unfold receive decode
  cases decoded : Envelope.decode payload with
  | ok e =>
    refine .head (Move.take c consuming fine decoded polled rfl rfl) ?_
    simpa [Ports.recorded, Recorded.after] using rest _
  | error _ => exact .head (.skip c consuming fine decoded polled) (rest _)

theorem step_moves (io : Ports σ) (c : Consumer (Recorded σ)) : Moves io c (c.step io.recorded) := by
  unfold step
  split
  · exact .refl
  rename_i active
  have consuming : c.phase = .consuming := Decidable.of_not_not active
  split
  · exact flush_moves io c
  rename_i fine
  have none : c.batch.failures = 0 := by
    simpa using fine
  rcases polled : io.reader.poll c.settings.pollWait c.world.world with ⟨delivery, w⟩
  have recorded : io.recorded.reader.poll c.settings.pollWait c.world =
      (delivery, c.world.after w [.poll c.settings.pollWait delivery]) := by
    simp [Ports.recorded, polled, Recorded.after]
  rw [recorded]
  cases delivery with
  | message payload position => exact receive_moves io consuming none polled
  | timeout => exact .head (.idle c consuming none polled) (flushOverdue_moves io _)
  | error reason => exact .single (.trouble c consuming none polled)

theorem drain_moves (io : Ports σ) (c : Consumer (Recorded σ)) : Moves io c (c.drain io.recorded) := by
  unfold drain
  split
  · exact .refl
  rename_i active
  refine .head (.wane c active) ?_
  by_cases some : c.batch.rows = []
  · have none : c.batch.isEmpty = true := by simp [Batch.isEmpty, some]
    simp only [none, if_true]
    exact .single (.stop { c with phase := .draining } rfl some)
  have filled : c.batch.isEmpty = false := by simpa [Batch.isEmpty] using some
  simp only [filled]
  rcases flush_cases (c := { c with phase := .draining }) io some with
    ⟨result, d, moved, run, done, emptied, phase⟩ | ⟨written, w, short, left, insertion, run⟩
  · have stopped := @Move.stop _ io d phase (by rw [emptied]; rfl)
    refine .head moved (.single ?_)
    cases result <;> simp_all [Ports.recorded, Recorded.after]
  · rw [run]
    have moved := Move.abandon { c with phase := .draining } rfl some short left insertion
    simpa [Ports.recorded, Recorded.after, dropBatch, failed] using Relation.ReflTransGen.single moved

theorem runFor_moves (io : Ports σ) (raised : Recorded σ → Bool) {turns : Nat} {c d : Consumer (Recorded σ)}
    (run : c.runFor io.recorded raised turns = some d) : Moves io c d := by
  induction turns generalizing c with
  | zero => simp [runFor] at run
  | succ turns ih =>
    simp only [runFor] at run
    split at run
    · exact (step_moves io c).trans (ih run)
    · cases run
      exact drain_moves io c

theorem Moves.preserves {io : Ports σ} {P : Consumer (Recorded σ) → Prop} {c d : Consumer (Recorded σ)}
    (moves : Moves io c d) (moved : ∀ {c d}, Move io c d → P c → P d) (begun : P c) : P d := by
  induction moves with
  | refl => exact begun
  | tail _ move ih => exact moved move ih

end Consumer

/-- The states of a consumer after operations, made one after the other in any order. Between them,
whatever lies outside may change. -/
inductive ConsumerReach (io : Ports σ) (start : Consumer (Recorded σ)) : Consumer (Recorded σ) → Prop
  | start : ConsumerReach io start start
  | pause {c} (w : σ) : ConsumerReach io start c →
      ConsumerReach io start { c with world := { c.world with world := w } }
  | step {c} : ConsumerReach io start c → ConsumerReach io start (c.step io.recorded)
  | flush {c} : ConsumerReach io start c → ConsumerReach io start (c.flush io.recorded).2
  | drain {c} : ConsumerReach io start c → ConsumerReach io start (c.drain io.recorded)
  | decode {c} (payload : Bytes) : ConsumerReach io start c →
      ConsumerReach io start (c.decode io.recorded payload).2
  | run {c d} (raised : Recorded σ → Bool) (turns : Nat) : ConsumerReach io start c →
      c.runFor io.recorded raised turns = some d → ConsumerReach io start d

/-- What each move keeps holds of every state, unless a change outside or an error counted by itself
can undo it. -/
theorem ConsumerReach.preserves {io : Ports σ} {start c : Consumer (Recorded σ)}
    {P : Consumer (Recorded σ) → Prop} (reach : ConsumerReach io start c)
    (moved : ∀ {c d}, Consumer.Move io c d → P c → P d)
    (paused : ∀ {c : Consumer (Recorded σ)} (w : σ), P c → P { c with world := { c.world with world := w } })
    (counted : ∀ {c : Consumer (Recorded σ)}, P c → P { c with metrics := c.metrics.countErrors 1 })
    (begun : P start) : P c := by
  induction reach with
  | start => exact begun
  | pause w _ ih => exact paused w ih
  | step _ ih => exact (Consumer.step_moves io _).preserves moved ih
  | flush _ ih => exact (Consumer.flush_moves io _).preserves moved ih
  | drain _ ih => exact (Consumer.drain_moves io _).preserves moved ih
  | @decode c payload _ ih =>
    rcases Consumer.decode_moves io payload c with ⟨_, _, moves⟩ | ⟨_, _, same⟩
    · exact moves.preserves moved ih
    · exact same ▸ counted ih
  | run raised turns _ run ih => exact (Consumer.runFor_moves io raised run).preserves moved ih

/-- What each operation keeps holds of every state. A run is so many steps and a drain. -/
theorem ConsumerReach.operations {io : Ports σ} {start c : Consumer (Recorded σ)}
    {P : Consumer (Recorded σ) → Prop} (reach : ConsumerReach io start c)
    (stepped : ∀ {c}, ConsumerReach io start c → P c → P (c.step io.recorded))
    (flushed : ∀ {c}, P c → P (c.flush io.recorded).2) (drained : ∀ {c}, P c → P (c.drain io.recorded))
    (decoded : ∀ {c} payload, P c → P (c.decode io.recorded payload).2)
    (paused : ∀ {c : Consumer (Recorded σ)} (w : σ), P c → P { c with world := { c.world with world := w } })
    (begun : P start) : P c := by
  induction reach with
  | start => exact begun
  | pause w _ ih => exact paused w ih
  | step reach ih => exact stepped reach ih
  | flush _ ih => exact flushed ih
  | drain _ ih => exact drained ih
  | decode payload _ ih => exact decoded payload ih
  | @run c d raised turns reach run ih =>
    clear begun
    induction turns generalizing c with
    | zero => simp [Consumer.runFor] at run
    | succ turns more =>
      simp only [Consumer.runFor] at run
      split at run
      · exact more reach.step run (stepped reach ih)
      · cases run
        exact drained ih

end EventRelay
