import EventRelay.Proofs.Ingest.Reach

/-!
What one turn of a consumer does, spelled out: what comes of a message, and of a look at the age of the
batch. A batch that is never looked at too late stays until it is full.
-/

namespace EventRelay

variable {σ : Type}

section Recorded

variable {io : Ports σ} {r : Recorded σ} {w : σ}

theorem Ports.recorded_instant {now : Instant} (stamped : io.clocks.instant r.world = (now, w)) :
    io.recorded.clocks.instant r = (now, r.after w [.instant now]) := by
  simp [recorded, stamped, Recorded.after]

theorem Ports.recorded_moment {seen : Moment} (looked : io.clocks.moment r.world = (seen, w)) :
    io.recorded.clocks.moment r = (seen, r.after w [.moment seen]) := by
  simp [recorded, looked, Recorded.after]

end Recorded

namespace Call

/-- Whether a call has to do with what is kept: an insert or a commit. -/
def stores : Call → Bool
  | .insert _ _ => true
  | .commit _ _ => true
  | _ => false

end Call

/-- An event was taken at this time, and nothing was inserted since. -/
def Waiting (calls : List Call) (taken : Moment) : Prop :=
  ∃ before now between, calls = before ++ .instant now :: .moment taken :: between ∧
    ∀ rows written, .insert rows written ∉ between

theorem Waiting.append {calls more : List Call} {taken : Moment} (waiting : Waiting calls taken)
    (quiet : ∀ rows written, .insert rows written ∉ more) : Waiting (calls ++ more) taken := by
  obtain ⟨before, now, between, split, apart⟩ := waiting
  refine ⟨before, now, between ++ more, by simp [split], fun rows written member => ?_⟩
  rcases List.mem_append.mp member with old | new
  · exact apart rows written old
  · exact quiet rows written new

/-- Nothing was stored between two points in time. -/
def Quiet (calls later : List Call) : Prop :=
  ∃ more, later = calls ++ more ∧ ∀ call ∈ more, call.stores = false

namespace Quiet

variable {calls later last : List Call}

theorem refl (calls : List Call) : Quiet calls calls :=
  ⟨[], by simp, by simp⟩

theorem of_append {more : List Call} (none : ∀ call ∈ more, call.stores = false) : Quiet calls (calls ++ more) :=
  ⟨more, rfl, none⟩

theorem trans (first : Quiet calls later) (second : Quiet later last) : Quiet calls last := by
  obtain ⟨more, rfl, none⟩ := first
  obtain ⟨more', rfl, none'⟩ := second
  refine ⟨more ++ more', List.append_assoc .., fun call member => ?_⟩
  rcases List.mem_append.mp member with early | late
  · exact none call early
  · exact none' call late

end Quiet

theorem Waiting.later {calls later : List Call} {taken : Moment} (waiting : Waiting calls taken)
    (quiet : Quiet calls later) : Waiting later taken := by
  obtain ⟨more, rfl, none⟩ := quiet
  exact waiting.append fun rows written member => by cases none _ member

/-- From when an event is taken, at a time that follows that of its stamp, until the next insert no clock is seen
to be ahead by the given age. -/
def Prompt (maxAge : Span) (calls : List Call) : Prop :=
  ∀ before now taken between seen after,
    calls = before ++ .instant now :: .moment taken :: (between ++ .moment seen :: after) →
    (∀ rows written, .insert rows written ∉ between) → seen.since taken < maxAge.toNanos

theorem Prompt.front {maxAge : Span} {calls all : List Call} (prompt : Prompt maxAge all) (earlier : calls <+: all) :
    Prompt maxAge calls := by
  rintro before now taken between seen after split apart
  obtain ⟨more, rfl⟩ := earlier
  exact prompt before now taken between seen (after ++ more) (by simp [split]) apart

/-- Whether a call does not read the clock when it has run for the given age. -/
def Call.isWithin (maxAge : Span) : Call → Bool
  | .moment now => now.nanos < maxAge.toNanos
  | _ => true

theorem Prompt.of_within {maxAge : Span} {calls : List Call} (within : calls.all (Call.isWithin maxAge) = true) :
    Prompt maxAge calls := by
  rintro before now taken between seen after rfl _
  have early : seen.nanos < maxAge.toNanos := by
    simpa [Call.isWithin] using List.all_eq_true.mp within (.moment seen) (by simp)
  exact Nat.lt_of_le_of_lt (Nat.sub_le _ _) early

namespace Consumer

/-- Calls are only ever added. -/
theorem Move.calls {io : Ports σ} {c d : Consumer (Recorded σ)} (move : Move io c d) :
    c.world.calls <+: d.world.calls := by
  cases move with
  | wane => exact List.prefix_rfl
  | _ => exact List.prefix_append _ _

theorem Moves.calls {io : Ports σ} {c d : Consumer (Recorded σ)} (moves : Moves io c d) :
    c.world.calls <+: d.world.calls :=
  moves.preserves (P := fun d => c.world.calls <+: d.world.calls) (fun move earlier => earlier.trans move.calls)
    List.prefix_rfl

/-- A look at the age of a batch reads the clock once. -/
theorem flushOverdue_eq (io : Ports σ) (c : Consumer (Recorded σ)) :
    ∃ seen w, io.clocks.moment c.world.world = (seen, w) ∧ c.flushOverdue io.recorded =
      if c.batch.isOverdue c.settings.maxAge seen then
        (flush io.recorded { c with world := c.world.after w [.moment seen] }).2
      else { c with world := c.world.after w [.moment seen] } := by
  rcases reading : io.clocks.moment c.world.world with ⟨seen, w⟩
  exact ⟨seen, w, rfl, by simp [flushOverdue, Ports.recorded_moment reading]⟩

/-- Nothing was inserted since the first row of the batch was taken. -/
def Watched (c : Consumer (Recorded σ)) : Prop :=
  ∀ time, c.batch.opened = some time → Waiting c.world.calls time

/-- A batch that is looked at in time stays as it is. -/
theorem flushOverdue_prompt {io : Ports σ} {c : Consumer (Recorded σ)}
    (prompt : Prompt c.settings.maxAge (c.flushOverdue io.recorded).world.calls)
    (watched : c.Watched) :
    ∃ seen w, io.clocks.moment c.world.world = (seen, w) ∧
      c.flushOverdue io.recorded = { c with world := c.world.after w [.moment seen] } := by
  obtain ⟨seen, w, reading, looked⟩ := flushOverdue_eq io c
  refine ⟨seen, w, reading, ?_⟩
  by_cases overdue : c.batch.isOverdue c.settings.maxAge seen = true
  · exfalso
    rw [looked, if_pos overdue] at prompt
    have seeing := prompt.front (flush_moves io { c with world := c.world.after w [.moment seen] }).calls
    cases found : c.batch.opened with
    | none => simp [Batch.isOverdue, found] at overdue
    | some taken =>
      obtain ⟨before, now, between, split, apart⟩ := watched taken found
      have young := seeing before now taken between seen [] (by simp [Recorded.after, split]) apart
      simp only [Batch.isOverdue, found, decide_eq_true_eq] at overdue
      omega
  · rw [looked, if_neg overdue]

/-- A consumer that has taken an event into its batch. -/
def took (c : Consumer (Recorded σ)) (e : Envelope) (position : Position) (now : Instant) (taken : Moment) (w : σ) :
    Consumer (Recorded σ) :=
  { c with
    batch := (c.batch.markRead position).push (e.normalized now) taken
    metrics := (c.metrics.withBus true).countConsumed 1
    world := c.world.after w [.instant now, .moment taken] }

section Took

variable (c : Consumer (Recorded σ)) (e : Envelope) (position : Position) (now : Instant) (taken : Moment) (w : σ)

@[simp]
theorem took_calls : (c.took e position now taken w).world.calls = c.world.calls ++ [.instant now, .moment taken] := rfl

@[simp]
theorem took_rows : (c.took e position now taken w).batch.rows = c.batch.rows ++ [e.normalized now] := rfl

@[simp]
theorem took_extents : (c.took e position now taken w).batch.extents =
    Ascending.alter position.partition (Extent.covering position.offset) c.batch.extents := rfl

theorem took_opened :
    (c.took e position now taken w).batch.opened = if c.batch.rows = [] then some taken else c.batch.opened := by
  simp [took, Batch.push, Batch.markRead, Batch.isEmpty]

end Took

theorem took_watched {c : Consumer (Recorded σ)} (watched : c.Watched) (e : Envelope) (position : Position)
    (now : Instant) (taken : Moment) (w : σ) : (c.took e position now taken w).Watched := by
  intro time opened
  rw [took_opened] at opened
  rw [took_calls]
  split at opened
  · obtain rfl := Option.some.inj opened
    exact ⟨c.world.calls, now, [], rfl, by simp⟩
  · exact (watched time opened).append (by simp)

theorem receive_decoded (io : Ports σ) {payload : Bytes} {e : Envelope} (decoded : Envelope.decode payload = .ok e)
    (position : Position) (c : Consumer (Recorded σ)) :
    ∃ now taken w w', io.clocks.instant c.world.world = (now, w) ∧ io.clocks.moment w = (taken, w') ∧
      c.receive io.recorded payload position =
        if c.settings.maxSize ≤ c.batch.rows.length + 1 then ((c.took e position now taken w').flush io.recorded).2
        else (c.took e position now taken w').flushOverdue io.recorded := by
  rcases stamping : io.clocks.instant c.world.world with ⟨now, w⟩
  rcases reading : io.clocks.moment w with ⟨taken, w'⟩
  refine ⟨now, taken, w, w', rfl, reading, ?_⟩
  have stamped := Ports.recorded_instant stamping
  have looked := Ports.recorded_moment (r := c.world.after w [.instant now]) reading
  simp only [receive, decode, decoded, stamped, looked]
  simp [took, Recorded.after, Batch.size, Batch.push, Batch.markRead]

/-- A consumer that has skipped a message. -/
def skipped (c : Consumer (Recorded σ)) (position : Position) : Consumer (Recorded σ) :=
  { c with
    batch := c.batch.markRead position
    metrics := (c.metrics.withBus true).countErrors 1 }

theorem receive_undecodable (io : Ports σ) {payload : Bytes} {error : DecodeError}
    (undecodable : Envelope.decode payload = .error error) (position : Position) (c : Consumer (Recorded σ)) :
    c.receive io.recorded payload position =
      if c.settings.maxSize ≤ c.batch.rows.length then ((c.skipped position).flush io.recorded).2
      else (c.skipped position).flushOverdue io.recorded := by
  simp only [receive, decode, undecodable]
  rfl

/-- A consumer after a poll. -/
def polled (c : Consumer (Recorded σ)) (delivery : Delivery) (w : σ) : Consumer (Recorded σ) :=
  { c with world := c.world.after w [.poll c.settings.pollWait delivery] }

@[simp]
theorem polled_settings (c : Consumer (Recorded σ)) (delivery : Delivery) (w : σ) :
    (c.polled delivery w).settings = c.settings := rfl

@[simp]
theorem polled_batch (c : Consumer (Recorded σ)) (delivery : Delivery) (w : σ) :
    (c.polled delivery w).batch = c.batch := rfl

/-- A turn of a consumer that has nothing to flush again is a poll and what follows from it. -/
theorem step_polled {io : Ports σ} {c : Consumer (Recorded σ)} (consuming : c.phase = .consuming)
    (fine : c.batch.failures = 0) {delivery : Delivery} {w : σ}
    (polled : io.reader.poll c.settings.pollWait c.world.world = (delivery, w)) :
    c.step io.recorded = react io.recorded delivery (c.polled delivery w) := by
  simp [step, consuming, fine, Ports.recorded, polled, Recorded.after, Consumer.polled]

/-- A consumer that has not stopped makes one last flush, and gives up what that leaves. -/
theorem drain_eq {io : Ports σ} {c d : Consumer (Recorded σ)} {result : FlushResult} (active : c.phase ≠ .stopped)
    (flushed : flush io.recorded { c with phase := .draining } = (result, d)) :
    c.drain io.recorded =
      { (if result = .retained then d.dropBatch else d) with
        world := d.world.after (io.reader.close d.world.world) [.close], phase := .stopped } := by
  by_cases none : c.batch.rows = []
  · obtain ⟨rfl, rfl⟩ := Prod.mk.inj (flushed.symm.trans (flush_of_rows_eq_nil io.recorded none))
    simp [drain, active, Batch.isEmpty, none, Ports.recorded, Recorded.after]
  · have filled : c.batch.isEmpty = false := by simpa [Batch.isEmpty] using none
    simp only [drain, active, if_false, filled, flushed]
    cases result <;> simp [Ports.recorded, Recorded.after, dropBatch]

end Consumer

end EventRelay
