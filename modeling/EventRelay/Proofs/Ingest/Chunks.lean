import EventRelay.Proofs.Event.Decoded
import EventRelay.Proofs.Ingest.Feed
import EventRelay.Proofs.Ingest.Turns

/-!
A run in which nothing goes wrong: messages of one partition, in order, that can all be decoded, a store
that writes all rows, commits that succeed, and batches that fill before they are overdue. Its inserts
are the events in chunks of the greatest size, and each is followed by the commit of all rows so far.
-/

namespace EventRelay

variable {σ : Type}

/-- What is stored of an event: its fields as they are, except for its time, which is written as the store
has it, the time at which it was taken, and metadata that is blank. -/
def Envelope.StoredAs (e row : Envelope) : Prop :=
  ∃ now : Instant, row =
    { e with
      eventTime := Instant.normalized e.eventTime now
      ingestedAt := now.storeText
      metadata := if Text.trim e.metadata = "" then "\x7b\x7d" else e.metadata }

theorem Envelope.storedAs_reread (e : Envelope) (now : Instant) : e.StoredAs (e.reread.normalized now) := by
  refine ⟨now, ?_⟩
  simp only [normalized, reread, Text.trim_eq_empty_iff]
  rfl

/-- The inserts of chunks, each with the commit that follows it, after so many rows. -/
def chunkCalls (k : Partition) : Nat → List (List Envelope) → List Call
  | _, [] => []
  | rows, chunk :: rest =>
    .insert chunk chunk.length :: .commit [⟨k, .ofNat (rows + chunk.length)⟩] true ::
      chunkCalls k (rows + chunk.length) rest

theorem chunkCalls_concat (k : Partition) (rows : Nat) (chunks : List (List Envelope)) (chunk : List Envelope) :
    chunkCalls k rows (chunks ++ [chunk]) =
      chunkCalls k rows chunks ++
        [.insert chunk chunk.length, .commit [⟨k, .ofNat (rows + chunks.flatten.length + chunk.length)⟩] true] := by
  induction chunks generalizing rows with
  | nil => simp [chunkCalls]
  | cons first chunks ih => simp [chunkCalls, ih, Nat.add_assoc]

/-- Every insert writes all rows and every commit succeeds. From when an event is taken, at a time that
follows that of its stamp, until the next insert no clock is seen to be ahead by the given age. -/
structure Smooth (maxAge : Span) (calls : List Call) : Prop where
  inserts : ∀ rows written, .insert rows written ∈ calls → written = rows.length
  commits : ∀ positions succeeded, .commit positions succeeded ∈ calls → succeeded = true
  ages : ∀ before now taken between seen after,
    calls = before ++ .instant now :: .moment taken :: (between ++ .moment seen :: after) →
    (∀ rows written, .insert rows written ∉ between) → seen.since taken < maxAge.toNanos

theorem Smooth.front {maxAge : Span} {calls all : List Call} (smooth : Smooth maxAge all) (earlier : calls <+: all) :
    Smooth maxAge calls where
  inserts rows written member := smooth.inserts rows written (earlier.subset member)
  commits positions succeeded member := smooth.commits positions succeeded (earlier.subset member)
  ages := Prompt.front smooth.ages earlier

/-- Whether a call does its part, at the start of the clock. -/
def Call.isStill : Call → Bool
  | .insert rows written => written = rows.length
  | .commit _ succeeded => succeeded
  | .moment now => now = ⟨0⟩
  | _ => true

theorem Smooth.of_still {maxAge : Span} {calls : List Call} (some : 0 < maxAge.toNanos)
    (still : calls.all Call.isStill = true) : Smooth maxAge calls := by
  rw [List.all_eq_true] at still
  refine ⟨fun rows written member => ?_, fun positions succeeded member => still _ member, ?_⟩
  · simpa [Call.isStill] using still _ member
  · rintro before now taken between seen after rfl _
    have first : seen = ⟨0⟩ := by simpa [Call.isStill] using still (.moment seen) (by simp)
    simpa [first, Moment.since] using some

namespace Consumer

/-- A consumer whose batch was written in full, and the commit after it. -/
def written (c : Consumer (Recorded σ)) (now : Instant) (w : σ) : Consumer (Recorded σ) :=
  { c with
    batch := .empty
    metrics := (c.metrics.countBatch c.batch.size.toUInt64 now).withStore true
    world := c.world.after w
      [.insert c.batch.rows c.batch.rows.length, .instant now,
        .commit (nextPositions c.batch.extents c.limits) true] }

theorem flush_smooth {io : Ports σ} {maxAge : Span} {c : Consumer (Recorded σ)} (some : c.batch.rows ≠ [])
    (smooth : Smooth maxAge (c.flush io.recorded).2.world.calls) :
    ∃ result now w, result ≠ .retained ∧ c.flush io.recorded = (result, c.written now w) := by
  rcases insertion : io.store.insert c.batch.rows c.world.world with ⟨count, w⟩
  by_cases whole : count = c.batch.rows.length
  · rcases reading : io.clocks.instant w with ⟨now, w'⟩
    rcases commission : io.reader.commit (nextPositions c.batch.extents c.limits) w' with ⟨result, w''⟩
    have flushed := flush_whole some insertion whole reading commission
    have succeeded := smooth.commits (nextPositions c.batch.extents c.limits) result.isOk
      (by simp [flushed, wrote, Recorded.after])
    cases result with
    | error _ => cases succeeded
    | ok _ => exact ⟨.committed, now, w'', by decide, flushed⟩
  · refine absurd (smooth.inserts c.batch.rows count ?_) whole
    by_cases spent : c.settings.maxFlushes ≤ c.batch.failures + 1
    · simp [flush_spent some insertion whole spent, failed, dropBatch, Recorded.after]
    · simp [flush_spare some insertion whole spent, failed, Recorded.after]

/-- A consumer that has taken these events, and has written the rows of some in chunks and holds the others. -/
structure Flow (k : Partition) (taken : List Envelope) (chunks : List (List Envelope))
    (c : Consumer (Recorded σ)) : Prop where
  calls : c.world.calls.filter Call.stores = chunkCalls k 0 chunks
  rows : List.Forall₂ Envelope.StoredAs taken (chunks.flatten ++ c.batch.rows)
  limits : c.limits = []
  failures : c.batch.failures = 0
  empty : c.batch.rows = [] → c.batch = .empty
  extents : c.batch.rows ≠ [] → ∃ first last : Nat,
    c.batch.extents = [(k, ⟨.ofNat first, .ofNat last⟩)] ∧ first ≤ last ∧ last + 1 = taken.length
  opened : ∀ time, c.batch.opened = some time → Waiting c.world.calls time
  consumed : c.metrics.consumed = .ofNat taken.length
  inserted : c.metrics.inserted = .ofNat chunks.flatten.length
  errors : c.metrics.errors = 0

namespace Flow

variable {k : Partition} {taken : List Envelope} {chunks : List (List Envelope)} {c : Consumer (Recorded σ)}

theorem start (k : Partition) (settings : BatchPolicy) (started : Instant) (world : σ) :
    Flow k [] [] (.fresh settings { started } world) where
  calls := rfl
  rows := .nil
  limits := rfl
  failures := rfl
  empty _ := rfl
  extents some := absurd rfl some
  opened _ found := by cases found
  consumed := rfl
  inserted := rfl
  errors := rfl

/-- Calls that store nothing change nothing. -/
theorem aside (flow : Flow k taken chunks c) (w : σ) {more : List Call} (quiet : ∀ call ∈ more, call.stores = false)
    (metrics : Metrics) (consumed : metrics.consumed = c.metrics.consumed)
    (inserted : metrics.inserted = c.metrics.inserted) (errors : metrics.errors = c.metrics.errors) :
    Flow k taken chunks { c with metrics, world := c.world.after w more } where
  calls := by
    have none : more.filter Call.stores = [] :=
      List.filter_eq_nil_iff.mpr fun call member => by simp [quiet call member]
    simp [Recorded.after, flow.calls, none]
  rows := flow.rows
  limits := flow.limits
  failures := flow.failures
  empty := flow.empty
  extents := flow.extents
  opened time found := (flow.opened time found).later (.of_append quiet)
  consumed := consumed.trans flow.consumed
  inserted := inserted.trans flow.inserted
  errors := errors.trans flow.errors

theorem length_taken (flow : Flow k taken chunks c) :
    taken.length = chunks.flatten.length + c.batch.rows.length := by
  rw [flow.rows.length_eq, List.length_append]

theorem covering_ofNat {first last next : Nat} (order : first ≤ last) (after : last ≤ next) (bound : next < 2 ^ 63) :
    Extent.covering (.ofNat next) (some ⟨.ofNat first, .ofNat last⟩) = ⟨.ofNat first, .ofNat next⟩ := by
  have toInt {n : Nat} (small : n ≤ next) : (Int64.ofNat n).toInt = n := Int64.toInt_ofNat_of_lt (by omega)
  have least : min (Int64.ofNat first) (Int64.ofNat next) = Int64.ofNat first := by
    rw [← Int64.toInt_inj, Int64.toInt_min, toInt (by omega), toInt (by omega)]
    omega
  have greatest : max (Int64.ofNat last) (Int64.ofNat next) = Int64.ofNat next := by
    rw [← Int64.toInt_inj, Int64.toInt_max, toInt (by omega), toInt (by omega)]
    omega
  rw [Extent.covering, least, greatest]

/-- One more event is taken. -/
theorem took (flow : Flow k taken chunks c) (e : Envelope) (bound : taken.length < 2 ^ 63) (now : Instant)
    (time : Moment) (w : σ) :
    Flow k (taken ++ [e]) chunks (c.took e.reread ⟨k, .ofNat taken.length⟩ now time w) where
  calls := by simp [flow.calls, Call.stores]
  rows := by
    have more := List.rel_append flow.rows (.cons (e.storedAs_reread now) .nil)
    simpa using more
  limits := flow.limits
  failures := flow.failures
  empty none := by simp at none
  extents _ := by
    by_cases none : c.batch.rows = []
    · refine ⟨taken.length, taken.length, ?_, Nat.le_refl _, by simp⟩
      simp [flow.empty none, Batch.empty, Ascending.alter, Extent.covering]
    · obtain ⟨first, last, extents, order, next⟩ := flow.extents none
      have wider := covering_ofNat order (by omega : last ≤ taken.length) bound
      exact ⟨first, taken.length, by simp [extents, Ascending.alter, wider], by omega, by simp⟩
  opened := took_watched flow.opened e.reread _ now time w
  consumed := by simp [Consumer.took, Metrics.countConsumed, Metrics.withBus, flow.consumed, UInt64.ofNat_add]
  inserted := flow.inserted
  errors := flow.errors

theorem wane (flow : Flow k taken chunks c) : Flow k taken chunks { c with phase := .draining } :=
  ⟨flow.calls, flow.rows, flow.limits, flow.failures, flow.empty, flow.extents, flow.opened, flow.consumed,
    flow.inserted, flow.errors⟩

/-- The rows that are held are written as one more chunk. -/
theorem written (flow : Flow k taken chunks c) (some : c.batch.rows ≠ []) (now : Instant) (w : σ) :
    Flow k taken (chunks ++ [c.batch.rows]) (c.written now w) where
  calls := by
    obtain ⟨first, last, extents, _, next⟩ := flow.extents some
    have last : Int64.ofNat last + 1 = .ofNat taken.length := by rw [← next, Int64.ofNat_add]; rfl
    have due : nextPositions c.batch.extents c.limits = [⟨k, .ofNat taken.length⟩] := by
      simp [nextPositions, extents, flow.limits, Ascending.find?, last]
    simp only [Consumer.written, Recorded.after, List.filter_append, flow.calls, due, chunkCalls_concat,
      flow.length_taken, Nat.zero_add]
    rfl
  rows := by simpa [Consumer.written, Batch.empty] using flow.rows
  limits := flow.limits
  failures := rfl
  empty _ := rfl
  extents some := absurd rfl some
  opened _ found := by cases found
  consumed := flow.consumed
  inserted := by
    simp [Consumer.written, Metrics.countBatch, Metrics.withStore, flow.inserted, Batch.size, UInt64.ofNat_add,
      Nat.toUInt64_eq]
  errors := flow.errors

end Flow

/-- A consumer all of whose chunks are full, and whose batch is not. -/
structure Filling (k : Partition) (taken : List Envelope) (chunks : List (List Envelope))
    (c : Consumer (Recorded σ)) : Prop where
  flow : Flow k taken chunks c
  full : ∀ chunk ∈ chunks, chunk.length = c.settings.maxSize
  short : c.batch.rows.length < c.settings.maxSize
  consuming : c.phase = .consuming

namespace Filling

variable {io : Ports σ} {k : Partition} {taken : List Envelope} {chunks : List (List Envelope)}
  {c : Consumer (Recorded σ)}

theorem aside (filling : Filling k taken chunks c) (w : σ) {more : List Call}
    (quiet : ∀ call ∈ more, call.stores = false) (metrics : Metrics) (consumed : metrics.consumed = c.metrics.consumed)
    (inserted : metrics.inserted = c.metrics.inserted) (errors : metrics.errors = c.metrics.errors) :
    Filling k taken chunks { c with metrics, world := c.world.after w more } :=
  ⟨filling.flow.aside w quiet metrics consumed inserted errors, filling.full, filling.short, filling.consuming⟩

theorem flushOverdue (filling : Filling k taken chunks c)
    (smooth : Smooth c.settings.maxAge (c.flushOverdue io.recorded).world.calls) :
    Filling k taken chunks (c.flushOverdue io.recorded) := by
  obtain ⟨seen, w, _, looked⟩ := flushOverdue_prompt smooth.ages filling.flow.opened
  rw [looked]
  exact filling.aside w (by simp [Call.stores]) c.metrics rfl rfl rfl

/-- An event is taken into the batch, which is written if that makes it full. -/
theorem receive (filling : Filling k taken chunks c) {e : Envelope} (readable : Envelope.decode e.encode = .ok e.reread)
    (bound : taken.length < 2 ^ 63)
    (smooth : Smooth c.settings.maxAge (c.receive io.recorded e.encode ⟨k, .ofNat taken.length⟩).world.calls) :
    ∃ chunks', Filling k (taken ++ [e]) chunks' (c.receive io.recorded e.encode ⟨k, .ofNat taken.length⟩) := by
  obtain ⟨now, time, _, w, _, _, received⟩ := receive_decoded io readable ⟨k, .ofNat taken.length⟩ c
  rw [received] at smooth ⊢
  have took := filling.flow.took e bound now time w
  have rows : (c.took e.reread ⟨k, .ofNat taken.length⟩ now time w).batch.rows.length = c.batch.rows.length + 1 := by
    simp
  split at smooth
  · rename_i reached
    rw [if_pos reached]
    obtain ⟨_, now', w', _, flushed⟩ := flush_smooth (List.ne_nil_of_length_eq_add_one rows) smooth
    rw [flushed]
    refine ⟨_, took.written (List.ne_nil_of_length_eq_add_one rows) now' w', ?_, ?_, filling.consuming⟩
    · intro chunk member
      rcases List.mem_append.mp member with old | new
      · exact filling.full chunk old
      · obtain rfl := List.mem_singleton.mp new
        exact rows.trans (Nat.le_antisymm filling.short reached)
    · exact Nat.zero_lt_of_lt filling.short
  · rename_i spare
    rw [if_neg spare]
    have filled : Filling k (taken ++ [e]) chunks (c.took e.reread ⟨k, .ofNat taken.length⟩ now time w) :=
      ⟨took, filling.full, rows ▸ Nat.lt_of_not_le spare, filling.consuming⟩
    exact ⟨chunks, filled.flushOverdue smooth⟩

theorem step_timeout (filling : Filling k taken chunks c) {w : σ}
    (polled : io.reader.poll c.settings.pollWait c.world.world = (.timeout, w))
    (smooth : Smooth c.settings.maxAge (c.step io.recorded).world.calls) :
    Filling k taken chunks (c.step io.recorded) := by
  rw [step_polled filling.consuming filling.flow.failures polled] at smooth ⊢
  exact (filling.aside w (by simp [Call.stores]) (c.metrics.withBus (io.reader.isConnected w)) rfl rfl rfl).flushOverdue
    smooth

theorem step_message (filling : Filling k taken chunks c) {e : Envelope}
    (readable : Envelope.decode e.encode = .ok e.reread) (bound : taken.length < 2 ^ 63) {w : σ}
    (polled : io.reader.poll c.settings.pollWait c.world.world =
      (.message e.encode ⟨k, .ofNat taken.length⟩, w))
    (smooth : Smooth c.settings.maxAge (c.step io.recorded).world.calls) :
    ∃ chunks', Filling k (taken ++ [e]) chunks' (c.step io.recorded) := by
  rw [step_polled filling.consuming filling.flow.failures polled, react] at smooth ⊢
  have polling : Filling k taken chunks (c.polled (.message e.encode ⟨k, .ofNat taken.length⟩) w) :=
    filling.aside w (by simp [Call.stores]) c.metrics rfl rfl rfl
  exact polling.receive readable bound smooth

end Filling

/-- What is left of a consumer that has stored these events in chunks of this size and has stopped. -/
structure Stored (k : Partition) (size : Nat) (es : List Envelope) (d : Consumer (Recorded σ)) : Prop where
  stopped : d.phase = .stopped
  empty : d.batch = .empty
  /-- All chunks are full but for the last one, for which less may be left or nothing. There are no other
  inserts and commits. -/
  chunks : ∃ full last, (∀ chunk ∈ full, chunk.length = size) ∧ last.length < size ∧
    List.Forall₂ Envelope.StoredAs es (full.flatten ++ last) ∧
    d.world.calls.filter Call.stores = chunkCalls k 0 (full ++ if last = [] then [] else [last])
  consumed : d.metrics.consumed.toNat = es.length
  inserted : d.metrics.inserted.toNat = es.length
  errors : d.metrics.errors = 0

/-- A consumer is closed that holds nothing more. -/
theorem Flow.close {k : Partition} {taken : List Envelope} {chunks full : List (List Envelope)}
    {c : Consumer (Recorded σ)} (flow : Flow k taken chunks c) (none : c.batch.rows = []) (last : List Envelope)
    (split : chunks = full ++ if last = [] then [] else [last]) {size : Nat}
    (filled : ∀ chunk ∈ full, chunk.length = size) (short : last.length < size) (bound : taken.length < 2 ^ 63)
    (w : σ) : Stored k size taken { c with world := c.world.after w [.close], phase := .stopped } where
  stopped := rfl
  empty := flow.empty none
  chunks := by
    have flat : chunks.flatten = full.flatten ++ last := by
      rw [split]
      split <;> simp_all
    refine ⟨full, last, filled, short, ?_, ?_⟩
    · simpa [none, flat] using flow.rows
    · rw [← split, ← flow.calls]
      simp [Recorded.after, Call.stores]
  consumed := by
    rw [flow.consumed, UInt64.toNat_ofNat_of_lt' (by simp only [UInt64.size]; omega)]
  inserted := by
    have length := flow.length_taken
    rw [none, List.length_nil, Nat.add_zero] at length
    rw [flow.inserted, UInt64.toNat_ofNat_of_lt' (by simp only [UInt64.size]; omega), length]
  errors := flow.errors

/-- What is held in the end is written as the last chunk. -/
theorem Filling.drain {io : Ports σ} {k : Partition} {taken : List Envelope} {chunks : List (List Envelope)}
    {c : Consumer (Recorded σ)} (filling : Filling k taken chunks c) (bound : taken.length < 2 ^ 63)
    (smooth : Smooth c.settings.maxAge (c.drain io.recorded).world.calls) :
    Stored k c.settings.maxSize taken (c.drain io.recorded) := by
  have active : c.phase ≠ .stopped := by simp [filling.consuming]
  by_cases none : c.batch.rows = []
  · rw [drain_eq active (flush_of_rows_eq_nil io.recorded none), if_neg (by decide)]
    exact filling.flow.wane.close none [] (by simp) filling.full (none ▸ filling.short) bound _
  rcases run : flush io.recorded { c with phase := .draining } with ⟨result, d⟩
  rw [drain_eq active run] at smooth ⊢
  obtain ⟨_, now, w, written, flushed⟩ := flush_smooth (c := { c with phase := .draining }) none
    (by rw [run]; exact smooth.front (List.prefix_append _ _))
  obtain ⟨rfl, rfl⟩ := Prod.mk.inj (run.symm.trans flushed)
  rw [if_neg written]
  exact (filling.flow.wane.written none now w).close rfl c.batch.rows (by simp [none]) filling.full
    filling.short bound _

/-- A run that fills batches with the messages that are left stores them all. -/
theorem Filling.run {io : Ports σ} {raised : σ → Bool} {left : σ → List Delivery} (feeds : io.Feeds raised left)
    {k : Partition} {turns : Nat} {taken rest : List Envelope} {chunks : List (List Envelope)}
    {c d : Consumer (Recorded σ)} (filling : Filling k taken chunks c)
    (readable : ∀ e ∈ rest, Envelope.decode e.encode = .ok e.reread)
    (bound : taken.length + rest.length < 2 ^ 63)
    (carried : Carries k taken.length (rest.map Envelope.encode) (left c.world.world))
    (run : c.runFor io.recorded (fun r => raised r.world) turns = some d)
    (smooth : Smooth c.settings.maxAge d.world.calls) : Stored k c.settings.maxSize (taken ++ rest) d := by
  induction turns generalizing c taken rest chunks with
  | zero => simp [runFor] at run
  | succ turns ih =>
    generalize found : left c.world.world = deliveries at carried
    generalize same : rest.map Envelope.encode = payloads at carried
    cases carried with
    | done =>
      have up : raised c.world.world = true := by rw [feeds.raised, found, List.isEmpty_nil]
      obtain rfl := runFor_raised up run
      rw [List.map_eq_nil_iff.mp same, List.append_nil]
      exact filling.drain (by omega) smooth
    | timeout carried =>
      obtain ⟨w, polled, next, later⟩ := runFor_turn feeds filling.consuming filling.flow.failures found run
      have early := smooth.front (runFor_moves io _ later).calls
      rw [← step_settings io c] at smooth ⊢
      exact ih (filling.step_timeout polled early) readable bound (by rw [next, same]; exact carried) later smooth
    | message carried =>
      obtain ⟨e, others, rfl, rfl, rfl⟩ := List.map_eq_cons_iff.mp same
      obtain ⟨w, polled, next, later⟩ := runFor_turn feeds filling.consuming filling.flow.failures found run
      obtain ⟨first, others⟩ := List.forall_mem_cons.mp readable
      rw [List.length_cons] at bound
      obtain ⟨_, filled⟩ := filling.step_message first (by omega) polled (smooth.front (runFor_moves io _ later).calls)
      rw [← step_settings io c] at smooth ⊢
      rw [List.append_cons]
      exact ih filled others (by simp; omega) (by rw [next]; simpa using carried) later smooth

end Consumer

end EventRelay
