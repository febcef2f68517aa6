import EventRelay.Proofs.Ingest.Commits

/-!
No row is lost, written twice or moved out of its place: batch after batch, what is handed to the
store and what is held are the rows made of the messages, in the order of delivery.
-/

namespace EventRelay

variable {σ : Type}

def insertsOf (calls : List Call) : List (List Envelope) :=
  calls.filterMap fun
    | .insert rows _ => some rows
    | _ => none

/-- The inserts that were made, each with the number of rows that were written. -/
def insertions (calls : List Call) : List (List Envelope × Nat) :=
  calls.filterMap fun
    | .insert rows written => some (rows, written)
    | _ => none

/-- The rows of each insert that wrote all of them. -/
def writesOf (calls : List Call) : List (List Envelope) :=
  calls.filterMap fun
    | .insert rows written => if written = rows.length then some rows else none
    | _ => none

theorem insertions_append (calls more : List Call) :
    insertions (calls ++ more) = insertions calls ++ insertions more :=
  List.filterMap_append

def Ledger.droppedRows (l : Ledger) : List Envelope :=
  (l.closed.filter (!·.written)).flatMap Lot.rows

theorem ledger_inserts (flushes : Nat) (calls : List Call) :
    (ledgerOf flushes calls).closed.flatMap Lot.inserts ++ (ledgerOf flushes calls).inserts = insertsOf calls := by
  induction calls using List.reverseRecOn with
  | nil => rfl
  | append_singleton calls call ih =>
    have split : insertsOf (calls ++ [call]) = insertsOf calls ++ insertsOf [call] := List.filterMap_append
    have noted := ledgerOf_noted flushes calls call
    generalize ledgerOf flushes (calls ++ [call]) = next at noted
    rw [split, ← ih]
    cases noted with
    | read wait payload position => simp [insertsOf]
    | write rows => simp [Ledger.close, insertsOf]
    | drop short => simp [Ledger.close, insertsOf]
    | retain short => simp [insertsOf]
    | abandon some => simp [Ledger.close, insertsOf]
    | other different => cases call <;> simp_all [insertsOf]

theorem ledger_writes (flushes : Nat) (calls : List Call) :
    ((ledgerOf flushes calls).closed.filter (·.written)).map Lot.rows = writesOf calls := by
  induction calls using List.reverseRecOn with
  | nil => rfl
  | append_singleton calls call ih =>
    have split : writesOf (calls ++ [call]) = writesOf calls ++ writesOf [call] := List.filterMap_append
    have noted := ledgerOf_noted flushes calls call
    generalize ledgerOf flushes (calls ++ [call]) = next at noted
    rw [split, ← ih]
    cases noted with
    | read wait payload position => simp [writesOf]
    | write rows => simp [Ledger.close, writesOf, Lot.rows]
    | drop short => simp [Ledger.close, writesOf, short]
    | retain short => simp [writesOf, short]
    | abandon some => simp [Ledger.close, writesOf]
    | other different => cases call <;> simp_all [writesOf]

/-- All inserts of one batch have the same rows. -/
theorem Lawful.lot_inserts {flushes : Nat} {calls : List Call} (lawful : Lawful flushes calls) {lot : Lot}
    (member : lot ∈ (ledgerOf flushes calls).closed) :
    lot.inserts ≠ [] ∧ ∀ rows ∈ lot.inserts, rows = lot.rows := by
  induction calls using List.reverseRecOn with
  | nil => simp [ledgerOf] at member
  | append_singleton calls call ih =>
    obtain ⟨held, made, same, _⟩ := lawful.front.open_rows
    have older := ih lawful.front
    have newer {reads : List Position} {inserts : List (List Envelope)} {written : Bool}
        (member : lot ∈ (ledgerOf flushes calls).closed ++ [⟨reads, inserts, written⟩])
        (some : inserts ≠ []) (equal : ∀ rows ∈ inserts, rows = held) :
        lot.inserts ≠ [] ∧ ∀ rows ∈ lot.inserts, rows = lot.rows := by
      rcases List.mem_append.mp member with old | new
      · exact older old
      obtain rfl := List.mem_singleton.mp new
      refine ⟨some, fun rows given => ?_⟩
      rw [Lot.rows, List.getLast?_eq_some_getLast some, Option.getD_some, equal _ (List.getLast_mem some),
        equal rows given]
    have whole {rows : List Envelope} {written : Nat} (follows : Follows flushes calls (.insert rows written)) :
        ∀ given ∈ (ledgerOf flushes calls).inserts ++ [rows], given = held := by
      have last : rows = held := List.append_cancel_left (follows.2.2.symm.trans made)
      simpa [or_imp, forall_and, last] using same
    have noted := ledgerOf_noted flushes calls call
    generalize ledgerOf flushes (calls ++ [call]) = next at member noted
    cases noted with
    | write rows => exact newer member (by simp) (whole lawful.last)
    | drop short => exact newer member (by simp) (whole lawful.last)
    | abandon some => exact newer member some same
    | _ => exact older member

theorem Ledger.closedRows_perm (l : Ledger) :
    (((l.closed.filter (·.written)).map Lot.rows).flatten ++ l.droppedRows).Perm l.closedRows := by
  rw [← List.flatMap_def, droppedRows, closedRows, ← List.flatMap_append]
  exact (List.filter_append_perm (·.written) l.closed).flatMap_right Lot.rows

/-- What has become of the rows that were made so far, `held` of which are still in the batch: each
insert is one of a batch, all of the same rows; every batch that is done with was written by its last
insert or dropped; batch after batch, its rows and those held are the rows made. -/
structure Conserved (flushes : Nat) (calls : List Call) (held : List Envelope) : Prop where
  made : rowsOf calls = (ledgerOf flushes calls).closedRows ++ held
  inserts :
    (ledgerOf flushes calls).closed.flatMap Lot.inserts ++ (ledgerOf flushes calls).inserts = insertsOf calls
  kept : ∀ rows ∈ (ledgerOf flushes calls).inserts, rows = held
  repeated : ∀ lot ∈ (ledgerOf flushes calls).closed, lot.inserts ≠ [] ∧ ∀ rows ∈ lot.inserts, rows = lot.rows
  writes : ((ledgerOf flushes calls).closed.filter (·.written)).map Lot.rows = writesOf calls
  once : ((writesOf calls).flatten ++ (ledgerOf flushes calls).droppedRows ++ held).Perm (rowsOf calls)

theorem Lawful.conserved {flushes : Nat} {calls : List Call} (lawful : Lawful flushes calls) :
    ∃ held, Conserved flushes calls held := by
  obtain ⟨held, made, kept, _⟩ := lawful.open_rows
  refine ⟨held, made, ledger_inserts flushes calls, kept, fun lot => lawful.lot_inserts,
    ledger_writes flushes calls, ?_⟩
  rw [made, ← ledger_writes flushes calls]
  exact (Ledger.closedRows_perm _).append_right held

theorem Conserved.held_eq {flushes : Nat} {calls : List Call} {held rows : List Envelope}
    (conserved : Conserved flushes calls held)
    (made : rowsOf calls = (ledgerOf flushes calls).closedRows ++ rows) : rows = held :=
  List.append_cancel_left (made.symm.trans conserved.made)

section Reach

variable {io : Ports σ} {settings : BatchPolicy} {metrics : Metrics} {world : σ} {c : Consumer (Recorded σ)}

/-- At every moment of a run the rows made of the messages are conserved, and an insert is given all
that are held. At its end the batch holds them. No message that can be decoded goes without its row:
the time for it is asked for before anything else is done. -/
theorem ConsumerReach.rows_conserved (reach : ConsumerReach io (.fresh settings metrics world) c) :
    (∀ seen later, c.world.calls = seen ++ later → ∃ held, Conserved settings.maxFlushes.toNat seen held ∧
      ∀ rows written rest, later = .insert rows written :: rest → rows = held ∧ rows ≠ []) ∧
    Conserved settings.maxFlushes.toNat c.world.calls c.batch.rows ∧
    ∀ seen wait payload position e later, c.world.calls = seen ++ .poll wait (.message payload position) :: later →
      Envelope.decode payload = .ok e → ∃ now rest, later = .instant now :: rest ∧
        rowsOf c.world.calls = rowsOf seen ++ e.normalized now :: rowsOf rest := by
  have lawful := reach.lawful
  have tallies := reach.tallied
  refine ⟨?_, ?_, ?_⟩
  · intro seen later split
    rw [split] at lawful
    obtain ⟨held, conserved⟩ := lawful.front.conserved
    refine ⟨held, conserved, ?_⟩
    rintro rows written rest rfl
    obtain ⟨_, some, whole⟩ := lawful _ _ _ rfl
    exact ⟨conserved.held_eq whole, some⟩
  · obtain ⟨held, conserved⟩ := lawful.conserved
    exact conserved.held_eq tallies.rows ▸ conserved
  · intro seen wait payload position e later split decoded
    have awaiting : owedAfter (seen ++ [.poll wait (.message payload position)]) = .event e := by
      simp [owedAfter_append, Intake.note, decoded]
    cases later with
    | nil =>
      have settled := tallies.settled
      rw [split, awaiting] at settled
      cases settled
    | cons next rest =>
      have follows := lawful (seen ++ [.poll wait (.message payload position)]) next rest (by simp [split])
      obtain ⟨now, rfl⟩ := follows.instant (by simp [awaiting]) (by simp [awaiting])
      exact ⟨now, rest, rfl, split ▸ rowsOf_message decoded seen wait position now rest⟩

/-- The first message is written by its second insert, the other one dropped at the end. -/
def retrying : Script where
  arrivals :=
    [{ delivery := .message threeTexts ⟨⟨"t", 0⟩, 0⟩ }, { delivery := .message threeTexts ⟨⟨"t", 0⟩, 1⟩ }]
  inserts := [some 0, none, some 0, some 0]

def retried : Consumer (Recorded Script) :=
  let io := Script.ports.recorded
  let policy : BatchPolicy := { maxSize := 1, maxFlushes := 3 }
  ((((Consumer.fresh policy { started := .epoch } retrying).step io).flush io).2.step io).drain io

theorem rows_conserved_retried :
    Conserved 3 retried.world.calls retried.batch.rows ∧
      (writesOf retried.world.calls).length = 1 ∧ (insertsOf retried.world.calls).length = 4 ∧
      (ledgerOf 3 retried.world.calls).droppedRows.length = 1 ∧ retried.batch.rows = [] := by
  have reach : ConsumerReach Script.ports
      (.fresh { maxSize := 1, maxFlushes := 3 } { started := .epoch } retrying) retried :=
    .drain (.step (.flush (.step .start)))
  exact ⟨reach.rows_conserved.2.1, by decide +kernel⟩

end Reach

end EventRelay
