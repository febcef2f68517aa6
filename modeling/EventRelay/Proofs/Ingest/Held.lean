import EventRelay.Proofs.Ingest.Aging
import EventRelay.Proofs.Ingest.Feed

/-!
What holds of the batch in hand. Between two operations it has room for another row, unless an insert of it has
failed, and it is kept only as long as it has flushes left. When it was opened and how far it reaches in each partition
is what the calls since the last batch tell.
-/

namespace EventRelay

variable {σ : Type}

/-- A batch in hand after some calls. -/
structure Batch.Sound (settings : BatchPolicy) (calls : List Call) (b : Batch) : Prop where
  size_le : b.rows.length ≤ max 1 settings.maxSize
  /-- There is room for one more row, as no insert has failed. -/
  size_lt : b.failures = 0 → b.rows.length < max 1 settings.maxSize
  opened_iff : b.opened = none ↔ b.rows = []
  openedAt : ∀ time, b.opened = some time → OpenedAt calls b.rows time
  failures : b.failures = 0 ∨ b.rows ≠ [] ∧ b.failures < settings.maxFlushes
  /-- What was read from a partition since the last batch is between the ends of its extent, which were read. -/
  extent : ∀ k e, (k, e) ∈ b.extents → e.first ≤ e.last ∧
    (offsetsOn k (ledgerOf settings.maxFlushes.toNat calls).reads).min? = some e.first.toInt ∧
    (offsetsOn k (ledgerOf settings.maxFlushes.toNat calls).reads).max? = some e.last.toInt
  /-- There is one extent for each partition that was read from since the last batch. -/
  partitions : ∀ k, k ∈ b.extents.map Prod.fst ↔
    ∃ p ∈ (ledgerOf settings.maxFlushes.toNat calls).reads, p.partition = k
  ascending : (b.extents.map Prod.fst).Pairwise (compare · · = .lt)
  extents_ne_nil : b.rows ≠ [] → b.extents ≠ []

namespace Consumer

variable {io : Ports σ} {c d : Consumer (Recorded σ)}

/-- A batch of no more rows than a batch may have; one of that many rows is flushed again before it gets another. -/
structure Sized (c : Consumer (Recorded σ)) : Prop where
  retains : c.Retains
  most : c.batch.rows.length ≤ max 1 c.settings.maxSize
  room : c.batch.failures = 0 → c.batch.rows.length < max 1 c.settings.maxSize

theorem Sized.of_rows_eq_nil (retains : c.Retains) (none : c.batch.rows = []) : c.Sized where
  retains := retains
  most := by simp [none]
  room _ := by
    rw [none]
    exact Nat.lt_of_lt_of_le Nat.zero_lt_one (Nat.le_max_left _ _)

/-- A batch that is full is emptied by a flush, or else the flush is counted. -/
theorem flush_sized (io : Ports σ) (retains : c.Retains) (most : c.batch.rows.length ≤ max 1 c.settings.maxSize) :
    (c.flush io.recorded).2.Sized := by
  have retained : (c.flush io.recorded).2.Retains :=
    (flush_moves io c).preserves (fun move => move.retains) retains
  by_cases none : c.batch.rows = []
  · rw [flush_of_rows_eq_nil io.recorded none] at retained ⊢
    exact .of_rows_eq_nil retained none
  rcases flush_cases io none with ⟨_, d, _, run, _, emptied, _⟩ | ⟨written, w, _, left, _, run⟩
  · rw [run] at retained ⊢
    exact .of_rows_eq_nil retained (by rw [emptied]; rfl)
  · rw [run] at retained ⊢
    refine ⟨retained, most, fun fine => ?_⟩
    have next := retains.toNat_failures_succ
    have none : (c.batch.failures + 1).toNat = 0 := congrArg UInt32.toNat fine
    omega

theorem Sized.flushOverdue (sized : c.Sized) (io : Ports σ) : (c.flushOverdue io.recorded).Sized := by
  obtain ⟨seen, w, reading, looked⟩ := flushOverdue_eq io c
  rw [looked]
  split
  · exact flush_sized io sized.retains sized.most
  · exact ⟨sized.retains, sized.most, sized.room⟩

/-- A message fills up the batch at most, and a batch that is full is flushed at once. -/
theorem Sized.receive (sized : c.Sized) (fine : c.batch.failures = 0) (io : Ports σ) (payload : Bytes)
    (position : Position) : (c.receive io.recorded payload position).Sized := by
  have room := sized.room fine
  cases decoded : Envelope.decode payload with
  | error error =>
    have skipped : (c.skipped position).Sized := ⟨sized.retains, sized.most, sized.room⟩
    rw [receive_undecodable io decoded]
    split
    · exact flush_sized io skipped.retains skipped.most
    · exact skipped.flushOverdue io
  | ok e =>
    obtain ⟨now, taken, w, w', _, _, received⟩ := receive_decoded io decoded position c
    have retains : (c.took e position now taken w').Retains := fun failed => absurd fine failed
    have most : (c.took e position now taken w').batch.rows.length ≤ max 1 c.settings.maxSize := by
      rw [took_rows, List.length_append, List.length_singleton]
      exact room
    rw [received]
    split
    · exact flush_sized io retains most
    · rename_i spare
      refine Sized.flushOverdue ⟨retains, most, fun _ => ?_⟩ io
      have small : (c.took e position now taken w').batch.rows.length < c.settings.maxSize := by
        simpa using spare
      exact Nat.lt_of_lt_of_le small (Nat.le_max_right _ _)

theorem Sized.step (sized : c.Sized) (io : Ports σ) : (c.step io.recorded).Sized := by
  by_cases consuming : c.phase = .consuming
  swap
  · simpa [Consumer.step, consuming] using sized
  by_cases fine : c.batch.failures = 0
  swap
  · rw [step_again io.recorded consuming fine]
    exact flush_sized io sized.retains sized.most
  rcases polled : io.reader.poll c.settings.pollWait c.world.world with ⟨delivery, w⟩
  have after : (c.polled delivery w).Sized := ⟨sized.retains, sized.most, sized.room⟩
  rw [step_polled consuming fine polled]
  cases delivery with
  | message payload position => exact after.receive fine io payload position
  | timeout =>
    have idle : Sized { c.polled .timeout w with
        metrics := c.metrics.withBus (io.recorded.reader.isConnected (c.polled .timeout w).world) } :=
      ⟨after.retains, after.most, after.room⟩
    exact idle.flushOverdue io
  | error reason => exact ⟨after.retains, after.most, after.room⟩

theorem Sized.drain (sized : c.Sized) (io : Ports σ) : (c.drain io.recorded).Sized := by
  by_cases stopped : c.phase = .stopped
  · simpa [Consumer.drain, stopped] using sized
  · have retains : (c.drain io.recorded).Retains :=
      (drain_moves io c).preserves (fun move => move.retains) sized.retains
    exact .of_rows_eq_nil retains (drain_rows io.recorded stopped)

theorem Sized.decode (sized : c.Sized) (io : Ports σ) (payload : Bytes) :
    (c.decode io.recorded payload).2.Sized := by
  unfold Consumer.decode
  cases Envelope.decode payload with
  | ok e => exact ⟨sized.retains, sized.most, sized.room⟩
  | error _ => exact ⟨sized.retains, sized.most, sized.room⟩

/-- A batch with rows has an extent, and one without rows was not opened. -/
structure Marked (c : Consumer (Recorded σ)) : Prop where
  extents : c.batch.rows ≠ [] → c.batch.extents ≠ []
  opened : c.batch.rows = [] → c.batch.opened = none

theorem markRead_extents_ne_nil (b : Batch) (p : Position) : (b.markRead p).extents ≠ [] := by
  have member : p.partition ∈ (b.markRead p).extents.map Prod.fst := Ascending.alter_key_mem.mpr (.inl rfl)
  intro none
  rw [none] at member
  cases member

theorem Move.marked (move : Move io c d) (marked : c.Marked) : d.Marked := by
  cases move with
  | skip => exact ⟨fun _ => markRead_extents_ne_nil _ _, marked.opened⟩
  | take =>
    refine ⟨fun _ => markRead_extents_ne_nil _ _, fun none => ?_⟩
    exact absurd none (List.append_ne_nil_of_right_ne_nil _ (List.cons_ne_nil _ _))
  | write => exact ⟨fun some => absurd rfl some, fun _ => rfl⟩
  | drop => exact ⟨fun some => absurd rfl some, fun _ => rfl⟩
  | abandon => exact ⟨fun some => absurd rfl some, fun _ => rfl⟩
  | _ => exact ⟨marked.extents, marked.opened⟩

end Consumer

section Reach

variable {io : Ports σ} {settings : BatchPolicy} {metrics : Metrics} {world : σ} {c : Consumer (Recorded σ)}

theorem ConsumerReach.sized (reach : ConsumerReach io (.fresh settings metrics world) c) : c.Sized :=
  reach.operations (fun _ sized => sized.step io) (fun sized => Consumer.flush_sized io sized.retains sized.most)
    (fun sized => sized.drain io) (fun payload sized => sized.decode io payload)
    (fun _ sized => ⟨sized.retains, sized.most, sized.room⟩) (.of_rows_eq_nil (fun failed => absurd rfl failed) rfl)

theorem ConsumerReach.marked (reach : ConsumerReach io (.fresh settings metrics world) c) : c.Marked :=
  reach.preserves (fun move => move.marked) (fun _ marked => ⟨marked.extents, marked.opened⟩)
    (fun marked => ⟨marked.extents, marked.opened⟩) ⟨fun some => absurd rfl some, fun _ => rfl⟩

/-- Between two operations the batch is sound, whatever the bus, the store and the clocks have answered. -/
theorem ConsumerReach.batch_sound (reach : ConsumerReach io (.fresh settings metrics world) c) :
    c.batch.Sound settings c.world.calls := by
  have sized := reach.sized
  have dated := reach.dated
  have marked := reach.marked
  have extents := reach.tallied.extents
  have sorted := extentsOf_sorted (ledgerOf settings.maxFlushes.toNat c.world.calls).reads
  have same := reach.settings_eq
  constructor
  · exact same ▸ sized.most
  · exact same ▸ sized.room
  · refine ⟨fun none => ?_, marked.opened⟩
    by_contra some
    obtain ⟨time, opened, _⟩ := dated.opened some
    rw [none] at opened
    cases opened
  · intro time opened
    have some : c.batch.rows ≠ [] := by
      intro none
      rw [marked.opened none] at opened
      cases opened
    obtain ⟨first, opened', first_opened⟩ := dated.opened some
    rw [opened] at opened'
    cases opened'
    exact first_opened
  · by_cases fine : c.batch.failures = 0
    · exact .inl fine
    · exact .inr (same ▸ sized.retains fine)
  · intro k e member
    rw [extents] at member
    have found := sorted.find?_eq_some_iff.mpr member
    obtain ⟨least, greatest⟩ := find?_extentsOf k (ledgerOf settings.maxFlushes.toNat c.world.calls).reads
    rw [found, Option.map_some] at least greatest
    refine ⟨?_, least.symm, greatest.symm⟩
    rw [Int64.le_iff_toInt_le]
    have lowest := List.min?_eq_some_iff.mp least.symm
    exact lowest.2 _ (List.max?_eq_some_iff.mp greatest.symm).1
  · exact fun k => extents ▸ extentsOf_key_mem
  · rw [extents, List.pairwise_map]
    exact sorted
  · exact marked.extents

/-- Offset 5 is read before offsets 3 and 4, of which the first cannot be decoded, and the store is down. -/
def backwards : Script where
  arrivals :=
    [{ delivery := .message threeTexts ⟨⟨"t", 0⟩, 5⟩ }, { delivery := .message [] ⟨⟨"t", 0⟩, 3⟩ },
      { delivery := .message threeTexts ⟨⟨"t", 0⟩, 4⟩ }]
  inserts := [some 0]

def upToTwo : BatchPolicy where
  maxSize := 2
  maxFlushes := 3

/-- Its batch is full and was inserted once. -/
def full : Consumer (Recorded Script) :=
  let io := Script.ports.recorded
  (((Consumer.fresh upToTwo { started := .epoch } backwards).step io).step io).step io

theorem batch_sound_full : full.batch.rows.length = 2 ∧ full.batch.failures = 1 ∧
    full.batch.extents = [(⟨"t", 0⟩, ⟨3, 5⟩)] ∧ full.batch.Sound upToTwo full.world.calls := by
  have reach : ConsumerReach Script.ports (.fresh upToTwo { started := .epoch } backwards) full :=
    .step (.step (.step .start))
  exact ⟨by decide +kernel, by decide +kernel, by decide +kernel, reach.batch_sound⟩

end Reach

end EventRelay
