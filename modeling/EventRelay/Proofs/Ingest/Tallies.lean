import EventRelay.Proofs.Ingest.Ledger
import EventRelay.Proofs.Ingest.Reach

/-!
The state of a consumer is what its calls say: batch, limits and failures are those of the ledger.
Every move keeps this, so all that holds of lawful calls holds of the calls of any run.
-/

namespace EventRelay

variable {σ : Type} {flushes : UInt32} {calls : List Call} {batch : Batch} {limits : List (Partition × Int64)}

/-- Lawful calls after which nothing is owed, and a batch and limits that agree with their ledger. A
batch of which an insert has failed has rows, and flushes left. -/
structure Tallies (flushes : UInt32) (calls : List Call) (batch : Batch)
    (limits : List (Partition × Int64)) : Prop where
  lawful : Lawful flushes.toNat calls
  settled : owedAfter calls = .nothing
  rows : rowsOf calls = (ledgerOf flushes.toNat calls).closedRows ++ batch.rows
  extents : batch.extents = extentsOf (ledgerOf flushes.toNat calls).reads
  limits : limits = limitsOf (ledgerOf flushes.toNat calls).drops
  failures : (ledgerOf flushes.toNat calls).inserts.length = batch.failures.toNat
  spare : (ledgerOf flushes.toNat calls).inserts ≠ [] →
    batch.rows ≠ [] ∧ (ledgerOf flushes.toNat calls).inserts.length < flushes.toNat

namespace Tallies

theorem start (flushes : UInt32) : Tallies flushes [] .empty [] where
  lawful := lawful_nil _
  settled := rfl
  rows := rfl
  extents := rfl
  limits := rfl
  failures := rfl
  spare := fun some => absurd rfl some

theorem inserts_eq_nil (tallies : Tallies flushes calls batch limits) (fine : batch.failures = 0) :
    (ledgerOf flushes.toNat calls).inserts = [] := by
  have length := tallies.failures
  rw [fine] at length
  exact List.length_eq_zero_iff.mp length

theorem rows_of_failures (tallies : Tallies flushes calls batch limits) (failed : batch.failures ≠ 0) :
    batch.rows ≠ [] := by
  refine (tallies.spare fun none => failed ?_).1
  have length := tallies.failures
  rw [none] at length
  exact UInt32.toNat_inj.mp length.symm

/-- The count of failed inserts does not overflow, since it stays below the flushes allowed. -/
theorem failures_succ (tallies : Tallies flushes calls batch limits) :
    (batch.failures + 1).toNat = (ledgerOf flushes.toNat calls).inserts.length + 1 := by
  have bound := flushes.toNat_lt
  have count : (ledgerOf flushes.toNat calls).inserts.length + 1 < 2 ^ 32 := by
    by_cases some : (ledgerOf flushes.toNat calls).inserts = []
    · simp [some]
    · have spare := (tallies.spare some).2
      omega
  rw [UInt32.toNat_add, ← tallies.failures, UInt32.toNat_one, Nat.mod_eq_of_lt count]

/-- A call that says nothing of messages, rows or batches. -/
theorem other (tallies : Tallies flushes calls batch limits) {call : Call}
    (follows : Follows flushes.toNat calls call)
    (ledger : (ledgerOf flushes.toNat calls).note flushes.toNat call = ledgerOf flushes.toNat calls)
    (intake : Intake.note ⟨rowsOf calls, .nothing⟩ call = ⟨rowsOf calls, .nothing⟩) :
    Tallies flushes (calls ++ [call]) batch limits := by
  have same : ledgerOf flushes.toNat (calls ++ [call]) = ledgerOf flushes.toNat calls := by
    simpa [ledgerOf_append] using ledger
  constructor
  · exact tallies.lawful.concat follows
  · simp [owedAfter_append, tallies.settled, intake]
  · rw [same]
    simpa [rowsOf_append, tallies.settled, intake] using tallies.rows
  · exact same ▸ tallies.extents
  · exact same ▸ tallies.limits
  · exact same ▸ tallies.failures
  · exact same ▸ tallies.spare

theorem skip (tallies : Tallies flushes calls batch limits) (fine : batch.failures = 0) {payload : Bytes}
    {error : DecodeError} (undecodable : Envelope.decode payload = .error error) (wait : Span)
    (position : Position) :
    Tallies flushes (calls ++ [.poll wait (.message payload position)]) (batch.markRead position) limits := by
  have none := tallies.inserts_eq_nil fine
  constructor
  · exact tallies.lawful.concat ⟨tallies.settled, none⟩
  · simp [owedAfter_append, Intake.note, undecodable]
  · simpa [rowsOf_append, Intake.note, undecodable, ledgerOf_append, Ledger.note, Ledger.closedRows,
      Batch.markRead] using tallies.rows
  · simp [ledgerOf_append, Ledger.note, extentsOf_concat, ← tallies.extents, Batch.markRead]
  · simpa [ledgerOf_append, Ledger.note, Ledger.drops] using tallies.limits
  · simpa [ledgerOf_append, Ledger.note, Batch.markRead] using tallies.failures
  · simp [ledgerOf_append, Ledger.note, none]

theorem take (tallies : Tallies flushes calls batch limits) (fine : batch.failures = 0) {payload : Bytes}
    {e : Envelope} (decoded : Envelope.decode payload = .ok e) (wait : Span) (position : Position)
    (now : Instant) (opened : Moment) :
    Tallies flushes
      (calls ++ [.poll wait (.message payload position), .instant now, .moment opened])
      ((batch.markRead position).push (e.normalized now) opened) limits := by
  have none := tallies.inserts_eq_nil fine
  constructor
  · have polled : Lawful _ (calls ++ [.poll wait (.message payload position)]) :=
      tallies.lawful.concat ⟨tallies.settled, none⟩
    have read : Lawful _ (_ ++ [.instant now]) := polled.concat (by
      simp [Follows, owedAfter_append, Intake.note, decoded])
    have looked : Lawful _ (_ ++ [.moment opened]) := read.concat (by
      simp [Follows, owedAfter_append, Intake.note, decoded])
    simpa using looked
  · simp [owedAfter_append, Intake.note]
  · simp [rowsOf_append, Intake.note, decoded, tallies.rows, ledgerOf_append, Ledger.note, Ledger.closedRows,
      Batch.push, Batch.markRead]
  · simp [ledgerOf_append, Ledger.note, extentsOf_concat, ← tallies.extents, Batch.markRead, Batch.push]
  · simpa [ledgerOf_append, Ledger.note, Ledger.drops] using tallies.limits
  · simpa [ledgerOf_append, Ledger.note, Batch.markRead, Batch.push] using tallies.failures
  · simp [ledgerOf_append, Ledger.note, none]

theorem write (tallies : Tallies flushes calls batch limits) (some : batch.rows ≠ []) (now : Instant)
    (succeeded : Bool) :
    Tallies flushes
      (calls ++ [.insert batch.rows batch.rows.length, .instant now,
        .commit (Consumer.nextPositions batch.extents limits) succeeded])
      .empty limits := by
  constructor
  · have inserted : Lawful _ (calls ++ [.insert batch.rows batch.rows.length]) :=
      tallies.lawful.concat ⟨tallies.settled, some, tallies.rows⟩
    have read : Lawful _ (_ ++ [.instant now]) := inserted.concat (by
      simp [Follows, owedAfter_append, Intake.note])
    have positions : Consumer.nextPositions batch.extents limits = duePositions flushes.toNat calls := by
      rw [duePositions, tallies.extents, tallies.limits]
    have committed : Lawful _ (_ ++ [.commit _ succeeded]) :=
      read.concat ⟨calls, batch.rows, now, by simp, positions⟩
    simpa using committed
  · simp [owedAfter_append, Intake.note]
  · simp [rowsOf_append, Intake.note, tallies.rows, ledgerOf_append, Ledger.note, Ledger.close, Ledger.closedRows,
      Lot.rows, Batch.empty]
  · simp [ledgerOf_append, Ledger.note, Ledger.close, Batch.empty, extentsOf]
  · simpa [ledgerOf_append, Ledger.note, Ledger.close, Ledger.drops] using tallies.limits
  · simp [ledgerOf_append, Ledger.note, Ledger.close, Batch.empty]
  · simp [ledgerOf_append, Ledger.note, Ledger.close]

theorem spent_iff (tallies : Tallies flushes calls batch limits) :
    flushes ≤ batch.failures + 1 ↔ flushes.toNat ≤ (ledgerOf flushes.toNat calls).inserts.length + 1 := by
  rw [UInt32.le_iff_toNat_le, tallies.failures_succ]

theorem retain (tallies : Tallies flushes calls batch limits) (some : batch.rows ≠ []) {written : Nat}
    (short : written ≠ batch.rows.length) (left : ¬ flushes ≤ batch.failures + 1) :
    Tallies flushes (calls ++ [.insert batch.rows written])
      { batch with failures := batch.failures + 1 } limits := by
  rw [tallies.spent_iff] at left
  have ledger : ledgerOf flushes.toNat (calls ++ [.insert batch.rows written]) =
      { ledgerOf flushes.toNat calls with
        inserts := (ledgerOf flushes.toNat calls).inserts ++ [batch.rows] } := by
    simp [ledgerOf_append, Ledger.note, short, left]
  constructor
  · exact tallies.lawful.concat ⟨tallies.settled, some, tallies.rows⟩
  · simp [owedAfter_append, Intake.note, short]
  · simpa [ledger, rowsOf_append, Intake.note, Ledger.closedRows] using tallies.rows
  · simpa [ledger] using tallies.extents
  · simpa [ledger, Ledger.drops] using tallies.limits
  · simp [ledger, tallies.failures_succ]
  · simp only [ledger, List.length_append, List.length_singleton]
    exact fun _ => ⟨some, by omega⟩

theorem drop (tallies : Tallies flushes calls batch limits) (some : batch.rows ≠ []) {written : Nat}
    (short : written ≠ batch.rows.length) (spent : flushes ≤ batch.failures + 1) :
    Tallies flushes (calls ++ [.insert batch.rows written]) .empty
      (Consumer.withhold batch.extents limits) := by
  rw [tallies.spent_iff] at spent
  have ledger : ledgerOf flushes.toNat (calls ++ [.insert batch.rows written]) =
      { ledgerOf flushes.toNat calls with
        inserts := (ledgerOf flushes.toNat calls).inserts ++ [batch.rows] }.close false := by
    simp [ledgerOf_append, Ledger.note, short, spent]
  constructor
  · exact tallies.lawful.concat ⟨tallies.settled, some, tallies.rows⟩
  · simp [owedAfter_append, Intake.note, short]
  · simp [ledger, rowsOf_append, Intake.note, tallies.rows, Ledger.closedRows, Ledger.close, Lot.rows, Batch.empty]
  · simp [ledger, Ledger.close, extentsOf, Batch.empty]
  · simp [ledger, Ledger.drops, Ledger.close, limitsOf_concat, tallies.extents, tallies.limits]
  · simp [ledger, Ledger.close, Batch.empty]
  · simp [ledger, Ledger.close]

theorem inserts_rows (tallies : Tallies flushes calls batch limits) {rows : List Envelope}
    (member : rows ∈ (ledgerOf flushes.toNat calls).inserts) : rows = batch.rows := by
  obtain ⟨held, made, same, _⟩ := tallies.lawful.open_rows
  have equal : held = batch.rows := List.append_cancel_left (made.symm.trans tallies.rows)
  rw [same rows member, equal]

theorem abandon (tallies : Tallies flushes calls batch limits)
    (some : (ledgerOf flushes.toNat calls).inserts ≠ []) :
    Tallies flushes (calls ++ [.close]) .empty (Consumer.withhold batch.extents limits) := by
  have ledger : ledgerOf flushes.toNat (calls ++ [.close]) = (ledgerOf flushes.toNat calls).close false := by
    simp [ledgerOf_append, Ledger.note, some]
  have last := tallies.inserts_rows (List.getLast_mem some)
  constructor
  · exact tallies.lawful.concat tallies.settled
  · simp [owedAfter_append, Intake.note]
  · rw [ledger, Ledger.close_closedRows, List.getLast?_eq_some_getLast some, last]
    simp [rowsOf_append, Intake.note, tallies.rows, Batch.empty]
  · simp [ledger, Ledger.close, extentsOf, Batch.empty]
  · simp [ledger, Ledger.drops, Ledger.close, limitsOf_concat, tallies.extents, tallies.limits]
  · simp [ledger, Ledger.close, Batch.empty]
  · simp [ledger, Ledger.close]

end Tallies

def Consumer.Tallies (c : Consumer (Recorded σ)) : Prop :=
  EventRelay.Tallies c.settings.maxFlushes c.world.calls c.batch c.limits

theorem Consumer.Move.tallies {io : Ports σ} {c d : Consumer (Recorded σ)} (move : Move io c d)
    (tallies : c.Tallies) : d.Tallies := by
  cases move with
  | look => exact tallies.other tallies.settled rfl rfl
  | stamp => exact tallies.other (by simp [Follows, tallies.settled]) rfl rfl
  | idle consuming fine => exact tallies.other ⟨tallies.settled, tallies.inserts_eq_nil fine⟩ rfl rfl
  | trouble consuming fine => exact tallies.other ⟨tallies.settled, tallies.inserts_eq_nil fine⟩ rfl rfl
  | skip consuming fine undecodable => exact tallies.skip fine undecodable _ _
  | take consuming fine decoded => exact tallies.take fine decoded _ _ _ _
  | write some => exact tallies.write some _ _
  | retain some short left => exact tallies.retain some short left
  | drop some short spent => exact tallies.drop some short spent
  | wane active => exact tallies
  | stop draining none =>
    have fine : (ledgerOf c.settings.maxFlushes.toNat c.world.calls).inserts = [] := by
      by_contra some
      exact (tallies.spare some).1 none
    exact tallies.other tallies.settled (by simp [Ledger.note, fine]) rfl
  | @abandon written _ draining some short left =>
    have kept := tallies.retain some short left
    have closed := kept.abandon (by
      rw [← List.length_pos_iff, kept.failures, tallies.failures_succ]
      omega)
    simpa [Consumer.Tallies, failed, dropBatch, Recorded.after] using closed

theorem ConsumerReach.tallies {io : Ports σ} {settings : BatchPolicy} {metrics : Metrics} {world : σ}
    {c : Consumer (Recorded σ)} (reach : ConsumerReach io (.fresh settings metrics world) c) : c.Tallies :=
  reach.preserves (fun move => move.tallies) (fun _ tallies => tallies) (fun tallies => tallies)
    (.start settings.maxFlushes)

end EventRelay
