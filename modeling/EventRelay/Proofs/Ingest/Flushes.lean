import EventRelay.Proofs.Ingest.Dues
import EventRelay.Proofs.Ingest.Feed

/-!
How long a store that fails can hold a consumer up. No row is handed over more often than the flushes
of a batch allow, so many turns at most go by without a poll, and a run over a source that runs dry ends.
-/

namespace EventRelay

variable {σ : Type}

namespace Call

/-- Whether a call hands a row to the store. Rows are numbered in the order in which they were made, and an
insert takes the last of those made before it. -/
def hands (row made : Nat) : Call → Bool
  | .insert rows _ => made ≤ row + rows.length && row < made
  | _ => false

end Call

/-- How often a row was handed to the store. -/
def timesHanded (row : Nat) (calls : List Call) : Nat :=
  calls.zipIdx.countP fun entry => entry.1.hands row (rowsOf (calls.take entry.2)).length

theorem timesHanded_concat (row : Nat) (calls : List Call) (call : Call) :
    timesHanded row (calls ++ [call]) =
      timesHanded row calls + if call.hands row (rowsOf calls).length then 1 else 0 := by
  rw [timesHanded, List.zipIdx_append, List.countP_append, timesHanded]
  congr 1
  · refine List.countP_congr fun entry member => ?_
    have place := (List.mem_zipIdx member).2.1
    rw [List.take_append_of_le_length (by omega)]
  · simp [List.countP_singleton]

theorem timesHanded_other (row : Nat) (calls : List Call) {call : Call}
    (other : ∀ rows written, call ≠ .insert rows written) :
    timesHanded row (calls ++ [call]) = timesHanded row calls := by
  rw [timesHanded_concat]
  cases call with
  | insert rows written => exact absurd rfl (other rows written)
  | _ => rfl

/-- An insert of all rows that are in no batch that is done with hands these over. -/
theorem timesHanded_insert {row done : Nat} {calls : List Call} {rows : List Envelope}
    (whole : (rowsOf calls).length = done + rows.length) (written : Nat) :
    timesHanded row (calls ++ [.insert rows written]) =
      timesHanded row calls + if done ≤ row ∧ row < (rowsOf calls).length then 1 else 0 := by
  rw [timesHanded_concat, Call.hands, whole]
  simp

theorem length_rowsOf_le (calls : List Call) (call : Call) :
    (rowsOf calls).length ≤ (rowsOf (calls ++ [call])).length := by
  rw [rowsOf_append, Intake.foldl_rows, List.length_append]
  exact Nat.le_add_right _ _

/-- A batch that is done with after an insert leaves no row open. -/
theorem Ledger.length_close_insert (l : Ledger) (rows : List Envelope) (written : Bool) :
    ({ l with inserts := l.inserts ++ [rows] }.close written).closedRows.length =
      l.closedRows.length + rows.length := by
  rw [close_closedRows, List.getLast?_concat, Option.getD_some, List.length_append]
  rfl

/-- A row was handed over no more often than the flushes of a batch allow. If it is in no batch that is done
with, this was once for each insert of the batch in hand, and not at all if it is still to be made. -/
theorem Lawful.timesHanded_le {flushes : Nat} {calls : List Call} (lawful : Lawful flushes calls) (row : Nat) :
    timesHanded row calls ≤ max 1 flushes ∧
      ((ledgerOf flushes calls).closedRows.length ≤ row →
        timesHanded row calls ≤ (ledgerOf flushes calls).inserts.length) ∧
      ((rowsOf calls).length ≤ row → timesHanded row calls = 0) := by
  induction calls using List.reverseRecOn with
  | nil => simp [timesHanded]
  | append_singleton calls call ih =>
    obtain ⟨bound, inHand, unmade⟩ := ih lawful.front
    obtain ⟨held, made, same, _⟩ := lawful.front.open_rows
    have follows := lawful.last
    have grown := length_rowsOf_le calls call
    have spare := (ledger_flushes flushes calls).1
    have length := (congrArg List.length made).trans List.length_append
    -- an insert hands over the rows that are in no batch that is done with
    have handed {rows : List Envelope} {written : Nat} (inserted : call = .insert rows written) :
        rows = held ∧ timesHanded row (calls ++ [call]) = timesHanded row calls +
          if (ledgerOf flushes calls).closedRows.length ≤ row ∧ row < (rowsOf calls).length then 1 else 0 := by
      subst inserted
      have rest : rows = held := List.append_cancel_left (follows.2.2.symm.trans made)
      exact ⟨rest, timesHanded_insert (rest ▸ length) written⟩
    have noted := ledgerOf_noted flushes calls call
    generalize ledgerOf flushes (calls ++ [call]) = next at noted
    have closing (l : Ledger) (written : Bool) : (l.close written).inserts.length = 0 := rfl
    cases noted with
    | write rows =>
      obtain ⟨rfl, count⟩ := handed rfl
      rw [closing, Ledger.length_close_insert]
      split at count <;> omega
    | drop short =>
      obtain ⟨rfl, count⟩ := handed rfl
      rw [closing, Ledger.length_close_insert]
      split at count <;> omega
    | @retain rows written short =>
      obtain ⟨rfl, count⟩ := handed rfl
      change _ ∧ ((ledgerOf flushes calls).closedRows.length ≤ row → _) ∧ _
      rw [List.length_append, List.length_singleton]
      split at count <;> omega
    | read wait payload position =>
      rw [timesHanded_other row calls (by simp)]
      exact ⟨bound, inHand, by omega⟩
    | abandon some =>
      rw [timesHanded_other row calls (by simp), closing, Ledger.close_closedRows,
        List.getLast?_eq_some_getLast some, Option.getD_some, same _ (List.getLast_mem some), List.length_append]
      omega
    | other different =>
      rw [timesHanded_other row calls different]
      exact ⟨bound, inHand, by omega⟩

namespace Consumer

/-- How many more turns can go by without a poll: the inserts that are left for the rows held, but for the first
one of them. -/
def respite (c : Consumer (Recorded σ)) : Nat :=
  if c.batch.rows = [] then 0 else c.settings.maxFlushes.toNat - max 1 c.batch.failures.toNat

theorem respite_le (c : Consumer (Recorded σ)) : c.respite ≤ max 1 c.settings.maxFlushes.toNat - 1 := by
  unfold respite
  split <;> omega

/-- A flush does not add to the respite, and the flush of a batch that was kept takes from it. -/
theorem flush_respite (io : Ports σ) {c : Consumer (Recorded σ)} (retains : c.Retains) :
    (c.flush io.recorded).2.respite ≤ c.respite ∧
      (c.batch.failures ≠ 0 → (c.flush io.recorded).2.respite < c.respite) := by
  by_cases none : c.batch.rows = []
  · rw [flush_of_rows_eq_nil io.recorded none]
    exact ⟨Nat.le_refl _, fun failed => absurd none (retains failed).1⟩
  have before : c.respite = c.settings.maxFlushes.toNat - max 1 c.batch.failures.toNat := if_neg none
  have left (failed : c.batch.failures ≠ 0) :
      c.batch.failures.toNat ≠ 0 ∧ c.batch.failures.toNat < c.settings.maxFlushes.toNat :=
    ⟨fun zero => failed (UInt32.toNat_inj.mp zero), UInt32.lt_iff_toNat_lt.mp (retains failed).2⟩
  rcases flush_cases io none with ⟨_, d, _, run, _, emptied, _⟩ | ⟨written, w, _, spare, _, run⟩
  · have after : d.respite = 0 := if_pos (by rw [emptied]; rfl)
    rw [run]
    change d.respite ≤ _ ∧ (_ → d.respite < _)
    rw [after, before]
    exact ⟨Nat.zero_le _, fun failed => by have := left failed; omega⟩
  · have next := retains.toNat_failures_succ
    have after : (c.failed (c.world.after w [.insert c.batch.rows written])).respite =
        c.settings.maxFlushes.toNat - max 1 (c.batch.failures + 1).toNat := if_neg none
    rw [run]
    change (c.failed _).respite ≤ _ ∧ (_ → (c.failed _).respite < _)
    rw [after, before, next]
    exact ⟨by omega, fun failed => by have := left failed; omega⟩

/-- A turn that has nothing to flush again polls. -/
theorem step_polls_of_fine (io : Ports σ) {c : Consumer (Recorded σ)} (consuming : c.phase = .consuming)
    (fine : c.batch.failures = 0) :
    ∃ delivery, pollsOf (c.step io.recorded).world.calls = pollsOf c.world.calls ++ [delivery] := by
  have keeps : io.recorded.Keeps fun r => pollsOf r.calls := by
    constructor <;> intros <;> simp [Ports.recorded, pollsOf]
  rcases polled : io.reader.poll c.settings.pollWait c.world.world with ⟨delivery, w⟩
  refine ⟨delivery, ?_⟩
  rw [step_polled consuming fine polled]
  exact (congrArg Prod.snd (react_shown keeps delivery _)).trans List.filterMap_append

theorem decode_respite (io : Ports σ) (payload : Bytes) (c : Consumer (Recorded σ)) :
    (c.decode io.recorded payload).2.respite = c.respite := by
  unfold decode
  split <;> rfl

end Consumer

theorem ConsumerReach.retains {io : Ports σ} {start c : Consumer (Recorded σ)} (reach : ConsumerReach io start c)
    (begun : start.Retains) : c.Retains :=
  reach.preserves (fun move => move.retains) (fun _ retains => retains) (fun retains => retains) begun

theorem ConsumerReach.calls {io : Ports σ} {start c : Consumer (Recorded σ)} (reach : ConsumerReach io start c) :
    start.world.calls <+: c.world.calls :=
  reach.preserves (P := fun c => start.world.calls <+: c.world.calls) (fun move earlier => earlier.trans move.calls)
    (fun _ earlier => earlier) (fun earlier => earlier) List.prefix_rfl

/-- Turns that go by without a poll use up the respite, whatever is flushed or decoded in between. -/
theorem ConsumerHistory.steps_le {io : Ports σ} {c d : Consumer (Recorded σ)} {ops : List Operation}
    (history : ConsumerHistory io c ops d) (retains : c.Retains) (consuming : d.phase = .consuming)
    (unpolled : pollsOf d.world.calls = pollsOf c.world.calls) : ops.count .step + d.respite ≤ c.respite := by
  have polled {b d : Consumer (Recorded σ)} (before : ConsumerReach io c b) (after : ConsumerReach io b d)
      (unpolled : pollsOf d.world.calls = pollsOf c.world.calls) :
      pollsOf b.world.calls = pollsOf c.world.calls := by
    have first : pollsOf c.world.calls <+: pollsOf b.world.calls := before.calls.filterMap _
    have second : pollsOf b.world.calls <+: pollsOf d.world.calls := after.calls.filterMap _
    exact (first.eq_of_length_le (unpolled ▸ second.length_le)).symm
  induction history with
  | start => simp
  | pause w _ ih => exact ih consuming unpolled
  | @step ops b before ih =>
    have same := polled before.reach (.step .start) unpolled
    have active : b.phase = .consuming := (Consumer.step_phase io.recorded b).symm.trans consuming
    have used := ih active same
    have failed : b.batch.failures ≠ 0 := by
      intro fine
      obtain ⟨delivery, more⟩ := Consumer.step_polls_of_fine io active fine
      simp [more, same] at unpolled
    have fewer := (Consumer.flush_respite io (before.reach.retains retains)).2 failed
    rw [Consumer.step_again io.recorded active failed, List.count_append, List.count_singleton_self]
    omega
  | @flush ops b before ih =>
    have same := polled before.reach (.flush .start) unpolled
    have phase : (b.flush io.recorded).2.phase = b.phase :=
      congrArg Prod.fst (Consumer.flush_shown (Consumer.keeps_phase io.recorded) b)
    have used := ih (phase.symm.trans consuming) same
    have fewer := (Consumer.flush_respite io (before.reach.retains retains)).1
    rw [List.count_append]
    exact Nat.le_trans (Nat.add_le_add_left fewer _) used
  | drain before ih => simp [Consumer.drain_phase] at consuming
  | @decode ops b payload before ih =>
    have same := polled before.reach (.decode payload .start) unpolled
    have phase : (b.decode io.recorded payload).2.phase = b.phase :=
      congrArg Prod.fst (Consumer.decode_shown (Consumer.keeps_phase io.recorded) payload b)
    rw [List.count_append, Consumer.decode_respite]
    exact ih (phase.symm.trans consuming) same
  | run raised turns before run ih => simp [Consumer.runFor_phase run] at consuming

/-- Whatever the store answers: a batch is inserted no more often than its flushes allow, or once if they allow
none, be it by turns, by flushes that are asked for or by the last one of a drain, and an insert takes the last of
the rows made, so that no row is handed over more often either. One turn less than that can go by without a poll
while the consumer consumes, with any flushes in between. A run ends within so many turns if the source runs dry. -/
theorem ConsumerReach.flushes_bounded {io : Ports σ} {settings : BatchPolicy} {metrics : Metrics} {world : σ}
    {c : Consumer (Recorded σ)} (reach : ConsumerReach io (.fresh settings metrics world) c) :
    (∀ lot ∈ (ledgerOf settings.maxFlushes.toNat c.world.calls).batches,
      (∀ rows ∈ lot.inserts, rows = lot.rows) ∧ lot.inserts.length ≤ max 1 settings.maxFlushes.toNat) ∧
    (∀ before rows written after, c.world.calls = before ++ .insert rows written :: after →
      rows <:+ rowsOf before) ∧
    (∀ row, timesHanded row c.world.calls ≤ max 1 settings.maxFlushes.toNat) ∧
    (∀ ops d, ConsumerHistory io c ops d → d.phase = .consuming →
      pollsOf d.world.calls = pollsOf c.world.calls → ops.count .step ≤ max 1 settings.maxFlushes.toNat - 1) ∧
    ∀ (raised : σ → Bool) (left : σ → List Delivery), io.RunsDry raised left →
      ∃ d, c.runFor io.recorded (fun r => raised r.world)
        (Consumer.turnsFor settings (left c.world.world).length) = some d ∧ d.phase = .stopped := by
  have lawful := reach.lawful
  have retains : c.Retains := reach.retains fun failed => absurd rfl failed
  obtain ⟨held, conserved⟩ := lawful.conserved
  refine ⟨conserved.batch_inserts, ?_, fun row => (lawful.timesHanded_le row).1, ?_, ?_⟩
  · intro before rows written after split
    obtain ⟨_, _, whole⟩ := lawful before _ after split
    exact ⟨_, whole.symm⟩
  · intro ops d history consuming unpolled
    have used := history.steps_le retains consuming unpolled
    have bound := c.respite_le
    rw [reach.settings_eq] at bound
    omega
  · intro raised left dry
    obtain ⟨d, run⟩ := Consumer.exists_runFor dry retains (c.turnsLeft_lt left)
    exact ⟨d, reach.settings_eq ▸ run, Consumer.runFor_phase run⟩

/-- Two messages, and a store that writes nothing. -/
def unwritable : Script where
  arrivals :=
    [{ delivery := .message threeTexts ⟨⟨"t", 0⟩, 0⟩ }, { delivery := .message threeTexts ⟨⟨"t", 0⟩, 1⟩ }]
  inserts := List.replicate 6 (some 0)

/-- The batch of the first message is kept after its first insert. -/
def keptOnce : Consumer (Recorded Script) :=
  (Consumer.fresh thrice { started := .epoch } unwritable).step Script.ports.recorded

theorem flushes_bounded_keptOnce :
    ConsumerHistory Script.ports keptOnce [.step, .step]
        ((keptOnce.step Script.ports.recorded).step Script.ports.recorded) ∧
      [Operation.step, .step].count .step ≤ 2 ∧
      ∃ d, keptOnce.runFor Script.ports.recorded (fun r => r.world.shutdown)
          (Consumer.turnsFor thrice keptOnce.world.world.left.length) = some d ∧
        d.phase = .stopped ∧ timesHanded 0 d.world.calls ≤ 3 ∧ (insertsOf d.world.calls).length = 6 := by
  have reach : ConsumerReach Script.ports (.fresh thrice { started := .epoch } unwritable) keptOnce := .step .start
  have twice : ConsumerHistory Script.ports keptOnce [.step, .step]
      ((keptOnce.step Script.ports.recorded).step Script.ports.recorded) :=
    .step (.step .start)
  obtain ⟨_, _, _, turns, ends⟩ := reach.flushes_bounded
  obtain ⟨d, run, stopped⟩ := ends Script.shutdown Script.left Script.ports_feeds.runsDry
  have inserts : (keptOnce.runFor Script.ports.recorded (fun r => r.world.shutdown)
      (Consumer.turnsFor thrice keptOnce.world.world.left.length)).map
        (fun d => (insertsOf d.world.calls).length) = some 6 := by
    decide +kernel
  rw [run, Option.map_some, Option.some.injEq] at inserts
  have later : ConsumerReach Script.ports (.fresh thrice { started := .epoch } unwritable) d :=
    .run _ _ reach run
  exact ⟨twice, turns _ _ twice (by decide +kernel) (by decide +kernel), d, run, stopped,
    later.flushes_bounded.2.2.1 0, inserts⟩

end EventRelay
