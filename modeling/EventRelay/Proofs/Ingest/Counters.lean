import EventRelay.Proofs.Ingest.Annotations
import Mathlib.Algebra.BigOperators.Group.List.Basic

/-!
What the counters count. Events are consumed once and are then inserted, dropped or held; every other
thing that goes wrong is an error of its own. The flags tell of the last poll and the last insert.
-/

namespace EventRelay

variable {σ ν : Type}

def isReadable (payload : Bytes) : Bool :=
  (Envelope.decode payload).isOk

namespace Call

/-- Whether a call brings a message that can be decoded. -/
def bringsEvent : Call → Bool
  | .poll _ (.message payload _) => isReadable payload
  | _ => false

/-- Whether a call by itself is an error: a message that cannot be decoded, a poll or a commit that
fails. -/
def isError : Call → Bool
  | .poll _ (.message payload _) => !isReadable payload
  | .poll _ (.error _) => true
  | .commit _ succeeded => !succeeded
  | _ => false

end Call

def pollsOf (calls : List Call) : List Delivery :=
  calls.filterMap fun
    | .poll _ delivery => some delivery
    | _ => none

/-- What the last poll tells of the bus, given whether the reader was connected after each. -/
def busAfter (polls : List (Delivery × Bool)) : Bool :=
  match polls.getLast? with
  | none => false
  | some (.message _ _, _) => true
  | some (.timeout, connected) => connected
  | some (.error _, _) => false

/-- The same ports. It is noted of each poll whether the reader is connected right after it. -/
def Ports.watched (io : Ports σ) : Ports (Annotated σ (Delivery × Bool)) where
  reader := { io.reader.annotated with
    poll := fun wait s =>
      let (delivery, w) := io.reader.poll wait s.world
      (delivery, ⟨w, s.notes ++ [(delivery, io.reader.isConnected w)]⟩) }
  store := io.store.annotated
  clocks := io.clocks.annotated

def Owed.events : Owed → Nat
  | .event _ => 1
  | _ => 0

/-- A row is made of each message that can be decoded, as soon as the time for it is known. -/
theorem Lawful.length_rowsOf {flushes : Nat} {calls : List Call} (lawful : Lawful flushes calls) :
    (rowsOf calls).length + (owedAfter calls).events = calls.countP Call.bringsEvent := by
  induction calls using List.reverseRecOn with
  | nil => rfl
  | append_singleton calls call ih =>
    have before := ih lawful.front
    have follows := lawful.last
    rw [rowsOf_append, owedAfter_append, List.countP_append, ← before]
    simp only [List.foldl_cons, List.foldl_nil, List.countP_singleton]
    cases call with
    | poll wait delivery =>
      rw [follows.1]
      cases delivery with
      | message payload position =>
        cases decoded : Envelope.decode payload <;>
          simp [Intake.note, decoded, Owed.events, Call.bringsEvent, isReadable, Except.isOk, Except.toBool]
      | _ => rfl
    | insert rows written =>
      rw [follows.1]
      by_cases full : written = rows.length <;> simp [Intake.note, full, Owed.events, Call.bringsEvent]
    | instant now =>
      cases owed : owedAfter calls <;> simp [Intake.note, Owed.events, Call.bringsEvent]
    | commit positions succeeded =>
      rw [follows.owed_commit]
      rfl
    | close => 
      rw [show owedAfter calls = .nothing from follows]
      rfl
    | moment now =>
      rw [show owedAfter calls = .nothing from follows]
      rfl

/-- Each message that was taken in is written, dropped or held. -/
theorem Tallies.length_rows {flushes : UInt32} {calls : List Call} {batch : Batch}
    {limits : List (Partition × Int64)} (tallies : Tallies flushes calls batch limits) :
    calls.countP Call.bringsEvent = (writesOf calls).flatten.length +
      (ledgerOf flushes.toNat calls).droppedRows.length + batch.rows.length := by
  obtain ⟨held, conserved⟩ := tallies.lawful.conserved
  have made := tallies.lawful.length_rowsOf
  have shares := conserved.once.length_eq
  rw [tallies.settled] at made
  rw [← conserved.held_eq tallies.rows, List.length_append, List.length_append] at shares
  rw [← made, ← shares]
  rfl

/-- The counters and flags that go with some calls, with polls of which the connection is known and
with payloads decoded by themselves. Counters are words, so they go round at 64 bits. -/
structure Metered (flushes : Nat) (calls : List Call) (polls : List (Delivery × Bool)) (apart : List Bytes)
    (m : Metrics) : Prop where
  consumed : m.consumed = .ofNat (calls.countP Call.bringsEvent)
  inserted : m.inserted = .ofNat (writesOf calls).flatten.length
  batches : m.batches = .ofNat (writesOf calls).length
  errors : m.errors = .ofNat (calls.countP Call.isError + apart.countP (!isReadable ·) +
    (ledgerOf flushes calls).droppedRows.length)
  store : m.storeUp = true ↔ ∃ rows, (insertions calls).getLast? = some (rows, rows.length)
  bus : m.busUp = busAfter polls
  polled : polls.map Prod.fst = pollsOf calls

theorem Ports.watched_poll {io : Ports σ} {wait : Span} {s w : Annotated σ (Delivery × Bool)} {delivery : Delivery}
    (polled : io.watched.reader.poll wait s = (delivery, w)) :
    w.notes = s.notes ++ [(delivery, io.reader.isConnected w.world)] := by
  cases polled
  rfl

theorem writesOf_append (calls more : List Call) : writesOf (calls ++ more) = writesOf calls ++ writesOf more :=
  List.filterMap_append

theorem busAfter_concat (polls : List (Delivery × Bool)) (delivery : Delivery) (connected : Bool) :
    busAfter (polls ++ [(delivery, connected)]) = busAfter [(delivery, connected)] := by
  simp [busAfter]

section Append

variable {flushes : UInt32} {calls more : List Call} {batch batch' : Batch}
  {limits limits' : List (Partition × Int64)} {polls : List (Delivery × Bool)} {apart : List Bytes} {m m' : Metrics}

/-- More calls, in which rows are lost. What they take in and what was held before is written, lost
or held afterwards. -/
theorem Metered.append (metered : Metered flushes.toNat calls polls apart m)
    (before : Tallies flushes calls batch limits) (after : Tallies flushes (calls ++ more) batch' limits')
    (lost : Nat) {polls' : List (Delivery × Bool)}
    (balance : more.countP Call.bringsEvent + batch.rows.length =
      (writesOf more).flatten.length + lost + batch'.rows.length)
    (consumed : m'.consumed = m.consumed + .ofNat (more.countP Call.bringsEvent))
    (inserted : m'.inserted = m.inserted + .ofNat (writesOf more).flatten.length)
    (batches : m'.batches = m.batches + .ofNat (writesOf more).length)
    (errors : m'.errors = m.errors + .ofNat (more.countP Call.isError + lost))
    (store : m'.storeUp = true ↔ ∃ rows, (insertions (calls ++ more)).getLast? = some (rows, rows.length))
    (bus : m'.busUp = busAfter polls') (polled : polls'.map Prod.fst = pollsOf (calls ++ more)) :
    Metered flushes.toNat (calls ++ more) polls' apart m' := by
  have held := before.length_rows
  have rest := after.length_rows
  rw [List.countP_append, writesOf_append, List.flatten_append, List.length_append] at rest
  constructor
  · rw [consumed, metered.consumed, List.countP_append, UInt64.ofNat_add]
  · rw [inserted, metered.inserted, writesOf_append, List.flatten_append, List.length_append, UInt64.ofNat_add]
  · rw [batches, metered.batches, writesOf_append, List.length_append, UInt64.ofNat_add]
  · rw [errors, metered.errors, ← UInt64.ofNat_add, List.countP_append]
    congr 1
    omega
  · exact store
  · exact bus
  · exact polled

/-- A call that says nothing of messages or rows. -/
theorem Metered.aside (metered : Metered flushes.toNat calls polls apart m)
    (before : Tallies flushes calls batch limits) {call : Call}
    (after : Tallies flushes (calls ++ [call]) batch limits')
    (silent : call.bringsEvent = false ∧ call.isError = false) (none : insertions [call] = [])
    (unwritten : writesOf [call] = []) (unasked : pollsOf [call] = []) :
    Metered flushes.toNat (calls ++ [call]) polls apart m := by
  have same : pollsOf (calls ++ [call]) = pollsOf calls := by
    rw [pollsOf, List.filterMap_append]
    exact (congrArg (pollsOf calls ++ ·) unasked).trans (List.append_nil _)
  refine metered.append before after 0 ?_ ?_ ?_ ?_ ?_ ?_ metered.bus (same ▸ metered.polled)
  · simp [silent, unwritten]
  · simp [silent]
  · simp [unwritten]
  · simp [unwritten]
  · simp [silent]
  · rw [insertions_append, none, List.append_nil]
    exact metered.store

/-- A poll and what is done with what it brings, up to an insert. -/
theorem Metered.poll (metered : Metered flushes.toNat calls polls apart m)
    (before : Tallies flushes calls batch limits) (after : Tallies flushes (calls ++ more) batch' limits')
    {delivery : Delivery} {connected : Bool} {polls' : List (Delivery × Bool)}
    (noted : polls' = polls ++ [(delivery, connected)]) (none : insertions more = [])
    (unwritten : writesOf more = []) (asked : pollsOf more = [delivery])
    (balance : more.countP Call.bringsEvent + batch.rows.length = batch'.rows.length)
    (consumed : m'.consumed = m.consumed + .ofNat (more.countP Call.bringsEvent))
    (same : m'.inserted = m.inserted ∧ m'.batches = m.batches ∧ m'.storeUp = m.storeUp)
    (errors : m'.errors = m.errors + .ofNat (more.countP Call.isError))
    (bus : m'.busUp = busAfter [(delivery, connected)]) :
    Metered flushes.toNat (calls ++ more) polls' apart m' := by
  subst noted
  refine metered.append before after 0 ?_ consumed ?_ ?_ errors ?_ ?_ ?_
  · simpa [unwritten] using balance
  · simp [unwritten, same.1]
  · simp [unwritten, same.2.1]
  · rw [same.2.2, insertions_append, none, List.append_nil]
    exact metered.store
  · rw [busAfter_concat, bus]
  · have split : pollsOf (calls ++ more) = pollsOf calls ++ pollsOf more := List.filterMap_append
    rw [List.map_append, metered.polled, split, asked]
    rfl

/-- An insert that fails, and what is lost by it. At most the end of the subscription comes after it. -/
theorem Metered.short (metered : Metered flushes.toNat calls polls apart m)
    (before : Tallies flushes calls batch limits) {written : Nat} {rest : List Call}
    (short : written ≠ batch.rows.length) (last : rest = [] ∨ rest = [.close])
    (after : Tallies flushes (calls ++ .insert batch.rows written :: rest) batch' limits') (lost : Nat)
    (balance : batch.rows.length = lost + batch'.rows.length) :
    Metered flushes.toNat (calls ++ .insert batch.rows written :: rest) polls apart
      ((m.withStore false).countErrors (.ofNat lost)) := by
  have polled : pollsOf (calls ++ .insert batch.rows written :: rest) = pollsOf calls := by
    rcases last with rfl | rfl <;> simp [pollsOf]
  have unwritten : writesOf (.insert batch.rows written :: rest) = [] := by
    rcases last with rfl | rfl <;> simp [writesOf, short]
  have insertion : insertions (.insert batch.rows written :: rest) = [(batch.rows, written)] := by
    rcases last with rfl | rfl <;> rfl
  have events : (.insert batch.rows written :: rest).countP Call.bringsEvent = 0 := by
    rcases last with rfl | rfl <;> rfl
  have errors : (.insert batch.rows written :: rest).countP Call.isError = 0 := by
    rcases last with rfl | rfl <;> rfl
  refine metered.append before after lost ?_ ?_ ?_ ?_ ?_ ?_ metered.bus (polled ▸ metered.polled)
  · simpa [events, unwritten] using balance
  · simp [events, Metrics.withStore, Metrics.countErrors]
  · simp [unwritten, Metrics.withStore, Metrics.countErrors]
  · simp [unwritten, Metrics.withStore, Metrics.countErrors]
  · simp [errors, Metrics.withStore, Metrics.countErrors]
  · simp [insertions_append, insertion, short, Metrics.withStore, Metrics.countErrors]

end Append

def Consumer.Metered (apart : List Bytes) (c : Consumer (Recorded (Annotated σ (Delivery × Bool)))) : Prop :=
  c.Tallies ∧ EventRelay.Metered c.settings.maxFlushes.toNat c.world.calls c.world.world.notes apart c.metrics

theorem Consumer.Move.metered {io : Ports σ} {apart : List Bytes}
    {c d : Consumer (Recorded (Annotated σ (Delivery × Bool)))} (move : Move io.watched c d)
    (metered : c.Metered apart) : d.Metered apart := by
  obtain ⟨tallies, metered⟩ := metered
  have after := move.tallies tallies
  refine ⟨after, ?_⟩
  cases move with
  | look told =>
    rw [← Clocks.moment_notes told] at metered
    exact metered.aside tallies after ⟨rfl, rfl⟩ rfl rfl rfl
  | stamp told =>
    rw [← Clocks.instant_notes told] at metered
    exact metered.aside tallies after ⟨rfl, rfl⟩ rfl rfl rfl
  | idle consuming fine told =>
    exact metered.poll tallies after (Ports.watched_poll told) rfl rfl rfl (Nat.zero_add _)
      (UInt64.add_zero _).symm ⟨rfl, rfl, rfl⟩ (UInt64.add_zero _).symm rfl
  | trouble consuming fine told =>
    exact metered.poll tallies after (Ports.watched_poll told) rfl rfl rfl (Nat.zero_add _)
      (UInt64.add_zero _).symm ⟨rfl, rfl, rfl⟩ rfl rfl
  | skip consuming fine undecodable told =>
    have unreadable : isReadable _ = false := congrArg Except.isOk undecodable
    refine metered.poll tallies after (Ports.watched_poll told) rfl rfl rfl ?_ ?_ ⟨rfl, rfl, rfl⟩ ?_ rfl
    · simp [Call.bringsEvent, unreadable, Batch.markRead]
    · simp [Call.bringsEvent, unreadable, Metrics.withBus, Metrics.countErrors]
    · simp [Call.isError, unreadable, Metrics.withBus, Metrics.countErrors]
  | take consuming fine decoded told timed looked =>
    have notes := (Clocks.moment_notes looked).trans ((Clocks.instant_notes timed).trans (Ports.watched_poll told))
    have readable : isReadable _ = true := congrArg Except.isOk decoded
    refine metered.poll tallies after notes rfl rfl rfl ?_ ?_ ⟨rfl, rfl, rfl⟩ ?_ rfl
    · simp [Call.bringsEvent, readable, Batch.push, Batch.markRead, Nat.add_comm]
    · simp [Call.bringsEvent, readable, Metrics.withBus, Metrics.countConsumed]
    · simp [Call.isError, readable, Metrics.withBus, Metrics.countConsumed]
  | @write now result _ _ _ some inserted timed committed =>
    have notes := (BusReader.commit_notes committed).trans
      ((Clocks.instant_notes timed).trans (RowStore.insert_notes inserted))
    refine metered.append tallies after 0 ?_ ?_ ?_ ?_ ?_ ?_ ?_ ?_
    · simp [Call.bringsEvent, writesOf, Batch.empty]
    · cases result <;>
        simp [Call.bringsEvent, Metrics.withStore, Metrics.countBatch, Metrics.countErrors, Except.isOk,
          Except.toBool]
    · cases result <;>
        simp [writesOf, Metrics.withStore, Metrics.countBatch, Metrics.countErrors, Except.isOk, Except.toBool,
          Batch.size]
    · cases result <;>
        simp [writesOf, Metrics.withStore, Metrics.countBatch, Metrics.countErrors, Except.isOk, Except.toBool]
    · cases result <;>
        simp [Call.isError, Metrics.withStore, Metrics.countBatch, Metrics.countErrors, Except.isOk, Except.toBool]
    · cases result <;>
        simp [insertions, Metrics.withStore, Metrics.countBatch, Metrics.countErrors, Except.isOk, Except.toBool]
    · cases result <;> exact notes ▸ metered.bus
    · simpa [pollsOf, Recorded.after, notes] using metered.polled
  | retain some short left inserted =>
    have kept := metered.short tallies short (.inl rfl) after 0 (Nat.zero_add _).symm
    simpa [RowStore.insert_notes inserted, Recorded.after, failed, Metrics.countErrors, Metrics.withStore] using kept
  | drop some short spent inserted =>
    have lost := metered.short tallies short (.inl rfl) after _ rfl
    rw [← RowStore.insert_notes inserted] at lost
    exact lost
  | wane active => exact metered
  | stop draining none => exact metered.aside tallies after ⟨rfl, rfl⟩ rfl rfl rfl
  | abandon draining some short left inserted =>
    have lost := metered.short tallies short (.inr rfl) after _ rfl
    rw [← RowStore.insert_notes inserted] at lost
    exact lost

section Run

variable {io : Ports σ} {settings : BatchPolicy} {started : Instant} {world : σ} {apart : List Bytes}
  {c : Consumer (Recorded (Annotated σ (Delivery × Bool)))}

theorem ConsumerRun.metered (run : ConsumerRun io.watched (.fresh settings { started } ⟨world, []⟩) apart c) :
    Metered settings.maxFlushes.toNat c.world.calls c.world.world.notes apart c.metrics := by
  have metered : c.Metered apart := by
    refine run.preserves (fun move => move.metered) (fun _ metered => metered) ?_ ?_ ?_
    · intro apart c payload e decoded ⟨tallies, metered⟩
      have readable : isReadable payload = true := congrArg Except.isOk decoded
      refine ⟨tallies, { metered with errors := ?_ }⟩
      simpa [readable] using metered.errors
    · intro apart payload error c undecodable ⟨tallies, metered⟩
      have unreadable : isReadable payload = false := congrArg Except.isOk undecodable
      refine ⟨tallies, { metered with errors := ?_ }⟩
      simp only [Metrics.countErrors, metered.errors, List.countP_append, List.countP_singleton, unreadable]
      rw [← UInt64.ofNat_one, ← UInt64.ofNat_add]
      congr 1
      simp only [Bool.not_false, if_true]
      omega
    · exact ⟨.start settings.maxFlushes, rfl, rfl, rfl, rfl, by simp [Consumer.fresh, insertions], rfl, rfl⟩
  exact run.reach.settings_eq ▸ metered.2

/-- Each insert takes at least one row. -/
theorem Lawful.length_writesOf {flushes : Nat} {calls : List Call} (lawful : Lawful flushes calls) :
    (writesOf calls).length ≤ (writesOf calls).flatten.length := by
  have filled : ∀ rows ∈ writesOf calls, 1 ≤ rows.length := by
    intro rows member
    obtain ⟨call, made, whole⟩ := List.mem_filterMap.mp member
    obtain ⟨before, after, split⟩ := List.append_of_mem made
    have follows := lawful before call after split
    cases call with
    | insert given written =>
      obtain ⟨_, some, _⟩ := follows
      simp only [Option.ite_none_right_eq_some, Option.some.injEq] at whole
      exact whole.2 ▸ List.length_pos_iff.mpr some
    | _ => cases whole
  rw [List.length_flatten, ← List.length_map List.length]
  exact List.length_le_sum_of_one_le _ (by simpa using filled)

/-- The counters are in balance after any operations, as long as the sums are words. -/
theorem ConsumerRun.counters_balanced
    (run : ConsumerRun io.watched (.fresh settings { started } ⟨world, []⟩) apart c)
    (few : c.world.calls.countP Call.bringsEvent < UInt64.size)
    (fits : c.world.calls.countP Call.isError + apart.countP (!isReadable ·) +
      (ledgerOf settings.maxFlushes.toNat c.world.calls).droppedRows.length < UInt64.size) :
    c.metrics.consumed.toNat = c.world.calls.countP Call.bringsEvent ∧
    c.metrics.consumed.toNat = c.metrics.inserted.toNat +
      (ledgerOf settings.maxFlushes.toNat c.world.calls).droppedRows.length + c.batch.size ∧
    c.metrics.batches.toNat = (writesOf c.world.calls).length ∧
    c.metrics.errors.toNat = c.world.calls.countP Call.isError + apart.countP (!isReadable ·) +
      (ledgerOf settings.maxFlushes.toNat c.world.calls).droppedRows.length ∧
    (c.metrics.storeUp = true ↔ ∃ rows, (insertions c.world.calls).getLast? = some (rows, rows.length)) ∧
    c.metrics.busUp = busAfter c.world.world.notes ∧ c.world.world.notes.map Prod.fst = pollsOf c.world.calls := by
  have metered := run.metered
  have tallies := run.reach.tallied
  have shares := tallies.length_rows
  have batches := tallies.lawful.length_writesOf
  have consumed : c.metrics.consumed.toNat = c.world.calls.countP Call.bringsEvent := by
    rw [metered.consumed, UInt64.toNat_ofNat_of_lt' few]
  have inserted : c.metrics.inserted.toNat = (writesOf c.world.calls).flatten.length := by
    rw [metered.inserted, UInt64.toNat_ofNat_of_lt' (by omega)]
  refine ⟨consumed, ?_, ?_, ?_, metered.store, metered.bus, metered.polled⟩
  · rw [consumed, inserted, shares]
    rfl
  · rw [metered.batches, UInt64.toNat_ofNat_of_lt' (by omega)]
  · rw [metered.errors, UInt64.toNat_ofNat_of_lt' fits]

/-- The first message is dropped by its second insert. After a payload that cannot be decoded and a
poll that fails, another message is written but not committed; the last one is held. -/
def eventful : Script where
  arrivals :=
    [{ delivery := .message threeTexts ⟨⟨"t", 0⟩, 0⟩ }, { delivery := .message [] ⟨⟨"t", 0⟩, 1⟩ },
      { delivery := .error "down" }, { delivery := .message threeTexts ⟨⟨"t", 0⟩, 2⟩ },
      { delivery := .message threeTexts ⟨⟨"t", 0⟩, 3⟩ }]
  inserts := [some 0, some 0, none, some 0]
  commits := [some "refused"]

/-- After six turns one more payload, that is no event, is decoded by itself. -/
def counted : Consumer (Recorded (Annotated Script (Delivery × Bool))) :=
  let io := Script.ports.watched.recorded
  let fresh := Consumer.fresh twice { started := .epoch } ⟨eventful, []⟩
  (((((((fresh.step io).step io).step io).step io).step io).step io).decode io []).2

theorem counters_balanced_eventful :
    counted.metrics.consumed.toNat = 3 ∧ counted.metrics.inserted.toNat = 1 ∧
      (ledgerOf twice.maxFlushes.toNat counted.world.calls).droppedRows.length = 1 ∧ counted.batch.size = 1 ∧
      counted.metrics.consumed.toNat = counted.metrics.inserted.toNat +
        (ledgerOf twice.maxFlushes.toNat counted.world.calls).droppedRows.length + counted.batch.size ∧
      counted.metrics.errors.toNat = 5 ∧ counted.metrics.busUp = true ∧ counted.metrics.storeUp = false := by
  have run : ConsumerRun Script.ports.watched
      (.fresh twice { started := .epoch } ⟨eventful, []⟩) [[]] counted :=
    .decode [] (.step (.step (.step (.step (.step (.step .start))))))
  have balanced := run.counters_balanced (by decide +kernel) (by decide +kernel)
  exact ⟨by decide +kernel, by decide +kernel, by decide +kernel, by decide +kernel, balanced.2.1, by decide +kernel⟩

end Run

end EventRelay
