import EventRelay.Proofs.Ingest.Shutdown
import EventRelay.Proofs.Ingest.Turns

/-!
How old a batch gets. A turn whose poll does not fail hands the batch to the store, unless it finds at its
end that the first row of the batch is younger than the greatest age. A turn whose poll fails does not look
at the age, so a batch stays through any number of such turns.
-/

namespace EventRelay

variable {σ : Type}

/-- The first of the rows held was added at this time: all rows but those held were made before the message
that it was made of. -/
def OpenedAt (calls : List Call) (held : List Envelope) (time : Moment) : Prop :=
  ∃ before wait payload position e now after,
    calls = before ++ .poll wait (.message payload position) :: .instant now :: .moment time :: after ∧
      Envelope.decode payload = .ok e ∧ rowsOf calls = rowsOf before ++ held

theorem OpenedAt.append {calls more : List Call} {held made : List Envelope} {time : Moment}
    (opened : OpenedAt calls held time) (rows : rowsOf (calls ++ more) = rowsOf calls ++ made) :
    OpenedAt (calls ++ more) (held ++ made) time := by
  obtain ⟨before, wait, payload, position, e, now, after, split, decoded, all⟩ := opened
  exact ⟨before, wait, payload, position, e, now, after ++ more, by simp [split], decoded, by simp [rows, all]⟩

/-- What is done in a turn about the age of a batch, by the end of which these rows are held: an insert, or
nothing if there are no rows, or else the last thing done is to see that the first row is younger than the age. -/
def Tended (maxAge : Span) (calls : List Call) (held : List Envelope) (turn : List Call) : Prop :=
  insertsOf turn ≠ [] ∨ held = [] ∨
    ∃ seen time, turn.getLast? = some (.moment seen) ∧ OpenedAt calls held time ∧ seen.since time < maxAge.toNanos

namespace Consumer

/-- A consumer whose batch tells when the first of its rows was added. -/
structure Dated (c : Consumer (Recorded σ)) : Prop where
  tallies : c.Tallies
  opened : c.batch.rows ≠ [] → ∃ time, c.batch.opened = some time ∧ OpenedAt c.world.calls c.batch.rows time

theorem Dated.aside {c : Consumer (Recorded σ)} (dated : c.Dated) {more : List Call}
    (rows : rowsOf (c.world.calls ++ more) = rowsOf c.world.calls) (some : c.batch.rows ≠ []) :
    ∃ time, c.batch.opened = .some time ∧ OpenedAt (c.world.calls ++ more) c.batch.rows time := by
  obtain ⟨time, opened, first⟩ := dated.opened some
  have kept : rowsOf (c.world.calls ++ more) = rowsOf c.world.calls ++ [] := by rw [rows, List.append_nil]
  exact ⟨time, opened, by simpa using first.append kept⟩

theorem Move.dated {io : Ports σ} {c d : Consumer (Recorded σ)} (move : Move io c d) (dated : c.Dated) : d.Dated := by
  refine ⟨move.tallies dated.tallies, ?_⟩
  have settled := dated.tallies.settled
  cases move with
  | look => exact dated.aside (by simp [rowsOf_append, settled, Intake.note])
  | stamp => exact dated.aside (by simp [rowsOf_append, settled, Intake.note])
  | idle => exact dated.aside (by simp [rowsOf_append, settled, Intake.note])
  | trouble => exact dated.aside (by simp [rowsOf_append, settled, Intake.note])
  | skip _ _ undecodable => exact dated.aside (by simp [rowsOf_append, Intake.note, undecodable])
  | @take payload position e now opened _ _ _ _ _ decoded =>
    intro _
    have made : rowsOf (c.world.calls ++ [.poll c.settings.pollWait (.message payload position), .instant now,
        .moment opened]) = rowsOf c.world.calls ++ [e.normalized now] := by
      simp [rowsOf_append, Intake.note, decoded]
    by_cases none : c.batch.rows = []
    · refine ⟨opened, by simp [Batch.push, Batch.markRead, Batch.isEmpty, none],
        c.world.calls, c.settings.pollWait, payload, position, e, now, [], rfl, decoded, ?_⟩
      simpa [Batch.push, Batch.markRead, none, Recorded.after] using made
    · obtain ⟨time, dating, first⟩ := dated.opened none
      exact ⟨time, by simp [Batch.push, Batch.markRead, Batch.isEmpty, none, dating], first.append made⟩
  | write => exact fun some => absurd rfl some
  | retain _ short => exact dated.aside (by simp [rowsOf_append, settled, Intake.note])
  | drop => exact fun some => absurd rfl some
  | wane => exact dated.opened
  | stop _ none => exact fun some => absurd none some
  | abandon => exact fun some => absurd rfl some

/-- How a turn ends of a consumer that has polled: no other poll is made, whatever is inserted has all rows, and
the age of the batch is seen to. -/
structure Ends (c d : Consumer (Recorded σ)) (turn : List Call) : Prop where
  calls : d.world.calls = c.world.calls ++ turn
  unpolled : pollsOf turn = []
  whole : ∀ rows ∈ insertsOf turn, c.batch.rows <+: rows
  tended : Tended c.settings.maxAge d.world.calls d.batch.rows turn

theorem Ends.after {b c d : Consumer (Recorded σ)} {first turn : List Call} (ends : c.Ends d turn)
    (settings : c.settings = b.settings) (calls : c.world.calls = b.world.calls ++ first)
    (quiet : pollsOf first = [] ∧ insertsOf first = []) (rows : b.batch.rows <+: c.batch.rows) :
    b.Ends d (first ++ turn) where
  calls := by rw [ends.calls, calls, List.append_assoc]
  unpolled := by
    rw [pollsOf, List.filterMap_append]
    exact List.append_eq_nil_iff.mpr ⟨quiet.1, ends.unpolled⟩
  whole given member := by
    rw [insertsOf, List.filterMap_append] at member
    rcases List.mem_append.mp member with early | late
    · exact absurd (quiet.2 ▸ early : given ∈ []) List.not_mem_nil
    · exact rows.trans (ends.whole given late)
  tended := by
    rcases ends.tended with inserted | none | ⟨seen, time, last, opened, young⟩
    · left
      rw [insertsOf, List.filterMap_append]
      exact fun empty => inserted (List.append_eq_nil_iff.mp empty).2
    · exact .inr (.inl none)
    · exact .inr (.inr ⟨seen, time, by simp [last], opened, settings ▸ young⟩)

section Turn

variable {io : Ports σ} {c : Consumer (Recorded σ)}

theorem flush_ends (io : Ports σ) (c : Consumer (Recorded σ)) : ∃ turn, c.Ends (c.flush io.recorded).2 turn := by
  by_cases none : c.batch.rows = []
  · rw [flush_of_rows_eq_nil io.recorded none]
    exact ⟨[], (List.append_nil _).symm, rfl, by simp [insertsOf], .inr (.inl none)⟩
  obtain ⟨written, rest, calls, single, _, unpolled⟩ := flush_inserts io none
  have inserted : insertsOf (.insert c.batch.rows written :: rest) = [c.batch.rows] :=
    congrArg (c.batch.rows :: ·) single
  refine ⟨_, calls, unpolled, ?_, .inl (by simp [inserted])⟩
  simp [inserted]

theorem Dated.flushOverdue_ends (dated : c.Dated) (io : Ports σ) :
    ∃ turn, c.Ends (c.flushOverdue io.recorded) turn := by
  obtain ⟨seen, w, reading, looked⟩ := flushOverdue_eq io c
  rw [looked]
  split
  · obtain ⟨turn, ends⟩ := flush_ends io { c with world := c.world.after w [.moment seen] }
    exact ⟨_, ends.after rfl rfl ⟨rfl, rfl⟩ List.prefix_rfl⟩
  · rename_i young
    refine ⟨[.moment seen], rfl, rfl, by simp [insertsOf], .inr ?_⟩
    by_cases none : c.batch.rows = []
    · exact .inl none
    have still : Dated { c with world := c.world.after w [.moment seen] } := (Move.look c reading).dated dated
    obtain ⟨time, opened, first⟩ := still.opened none
    refine .inr ⟨seen, time, rfl, first, ?_⟩
    have dating : c.batch.opened = some time := opened
    simpa [Batch.isOverdue, dating] using young

/-- The end of a turn that brings a message. -/
theorem Dated.receive_ends (dated : c.Dated) (consuming : c.phase = .consuming) (fine : c.batch.failures = 0)
    {payload : Bytes} {position : Position} {w : σ}
    (polled : io.reader.poll c.settings.pollWait c.world.world = (.message payload position, w)) :
    ∃ turn, (c.polled (.message payload position) w).Ends
      (receive io.recorded payload position (c.polled (.message payload position) w)) turn := by
  cases decoded : Envelope.decode payload with
  | error error =>
    have skipped : Dated ((c.polled (.message payload position) w).skipped position) :=
      (Move.skip c consuming fine decoded polled).dated dated
    have same {d : Consumer (Recorded σ)} {turn : List Call}
        (ends : ((c.polled (.message payload position) w).skipped position).Ends d turn) :
        (c.polled (.message payload position) w).Ends d turn :=
      ⟨ends.calls, ends.unpolled, ends.whole, ends.tended⟩
    rw [receive_undecodable io decoded]
    split
    · exact (flush_ends io _).imp fun turn => same
    · exact (skipped.flushOverdue_ends io).imp fun turn => same
  | ok e =>
    obtain ⟨now, taken, w₁, w₂, stamped, looked, received⟩ :=
      receive_decoded io decoded position (c.polled (.message payload position) w)
    have took : Dated ((c.polled (.message payload position) w).took e position now taken w₂) := by
      have moved := (Move.take c consuming fine decoded polled stamped looked).dated dated
      simpa [Consumer.took, Consumer.polled, Recorded.after] using moved
    have longer {d : Consumer (Recorded σ)} {turn : List Call}
        (ends : ((c.polled (.message payload position) w).took e position now taken w₂).Ends d turn) :
        (c.polled (.message payload position) w).Ends d ([.instant now, .moment taken] ++ turn) :=
      ends.after rfl rfl ⟨rfl, rfl⟩ (List.prefix_append _ _)
    rw [received]
    split
    · obtain ⟨turn, ends⟩ := flush_ends io ((c.polled (.message payload position) w).took e position now taken w₂)
      exact ⟨_, longer ends⟩
    · obtain ⟨turn, ends⟩ := took.flushOverdue_ends io
      exact ⟨_, longer ends⟩

/-- The end of a turn whose poll does not fail. -/
theorem Dated.step_ends (dated : c.Dated) (consuming : c.phase = .consuming) (fine : c.batch.failures = 0)
    {delivery : Delivery} {w : σ} (polled : io.reader.poll c.settings.pollWait c.world.world = (delivery, w))
    (brought : ∀ reason, delivery ≠ .error reason) :
    ∃ turn, (c.polled delivery w).Ends (c.step io.recorded) turn := by
  rw [step_polled consuming fine polled]
  cases delivery with
  | message payload position => exact dated.receive_ends consuming fine polled
  | timeout =>
    obtain ⟨turn, ends⟩ := ((Move.idle c consuming fine polled).dated dated).flushOverdue_ends io
    exact ⟨turn, ends.calls, ends.unpolled, ends.whole, ends.tended⟩
  | error reason => exact absurd rfl (brought reason)

end Turn

end Consumer

theorem ConsumerReach.dated {io : Ports σ} {settings : BatchPolicy} {metrics : Metrics} {world : σ}
    {c : Consumer (Recorded σ)} (reach : ConsumerReach io (.fresh settings metrics world) c) : c.Dated :=
  reach.preserves (fun move => move.dated) (fun _ dated => ⟨dated.tallies, dated.opened⟩)
    (fun dated => ⟨dated.tallies, dated.opened⟩) ⟨.start settings.maxFlushes, fun some => absurd rfl some⟩

/-- Calls each poll of which, if it does not fail, is followed by a turn that sees to the age of the batch. -/
inductive Attended (maxAge : Span) (flushes : Nat) : List Call → Prop
  | start : Attended maxAge flushes []
  | aside {calls more} : Attended maxAge flushes calls → pollsOf more = [] → Attended maxAge flushes (calls ++ more)
  | failed {calls wait reason} : Attended maxAge flushes calls →
      Attended maxAge flushes (calls ++ [.poll wait (.error reason)])
  | turn {calls wait delivery turn held} : Attended maxAge flushes calls → pollsOf turn = [] →
      rowsOf (calls ++ .poll wait delivery :: turn) =
        (ledgerOf flushes (calls ++ .poll wait delivery :: turn)).closedRows ++ held →
      Tended maxAge (calls ++ .poll wait delivery :: turn) held turn →
      Attended maxAge flushes (calls ++ .poll wait delivery :: turn)

/-- A turn in which the poll fails does nothing else. -/
theorem Consumer.step_failed {io : Ports σ} {c : Consumer (Recorded σ)} (consuming : c.phase = .consuming)
    (fine : c.batch.failures = 0) {reason : String} {w : σ}
    (polled : io.reader.poll c.settings.pollWait c.world.world = (.error reason, w)) :
    (c.step io.recorded).world.calls = c.world.calls ++ [.poll c.settings.pollWait (.error reason)] ∧
      (c.step io.recorded).batch = c.batch := by
  rw [step_polled consuming fine polled]
  exact ⟨rfl, rfl⟩

section Reach

variable {io : Ports σ} {settings : BatchPolicy} {metrics : Metrics} {world : σ} {c : Consumer (Recorded σ)}

theorem ConsumerReach.step_attended (reach : ConsumerReach io (.fresh settings metrics world) c)
    (attended : Attended settings.maxAge settings.maxFlushes.toNat c.world.calls) :
    Attended settings.maxAge settings.maxFlushes.toNat (c.step io.recorded).world.calls := by
  by_cases consuming : c.phase = .consuming
  swap
  · simpa [Consumer.step, consuming] using attended
  by_cases fine : c.batch.failures = 0
  swap
  · obtain ⟨more, calls, _, _, unpolled⟩ := Consumer.flush_calls io c
    rw [Consumer.step_again io.recorded consuming fine, calls]
    exact attended.aside unpolled
  rcases polled : io.reader.poll c.settings.pollWait c.world.world with ⟨delivery, w⟩
  by_cases brought : ∀ reason, delivery ≠ .error reason
  · obtain ⟨turn, ends⟩ := reach.dated.step_ends consuming fine polled brought
    have calls : (c.step io.recorded).world.calls = c.world.calls ++ .poll c.settings.pollWait delivery :: turn := by
      simpa [Consumer.polled, Recorded.after] using ends.calls
    have rows := reach.step.tallied.rows
    have tended : Tended settings.maxAge _ _ turn := reach.settings_eq ▸ ends.tended
    rw [calls] at rows tended ⊢
    exact attended.turn ends.unpolled rows tended
  · obtain ⟨reason, failed⟩ := Classical.not_forall.mp brought
    obtain rfl := Classical.not_not.mp failed
    rw [(Consumer.step_failed consuming fine polled).1]
    exact attended.failed

theorem ConsumerReach.attended (reach : ConsumerReach io (.fresh settings metrics world) c) :
    Attended settings.maxAge settings.maxFlushes.toNat c.world.calls := by
  refine reach.operations (fun reach => reach.step_attended) ?_ ?_ ?_ (fun _ attended => attended) .start
  · intro c attended
    obtain ⟨more, calls, _, _, unpolled⟩ := Consumer.flush_calls io c
    exact calls ▸ attended.aside unpolled
  · intro c attended
    by_cases stopped : c.phase = .stopped
    · simpa [Consumer.drain, stopped] using attended
    · obtain ⟨more, calls, _, _, unpolled⟩ := Consumer.drain_calls io stopped
      rw [calls]
      exact (attended.aside unpolled).aside rfl
  · intro c payload attended
    unfold Consumer.decode
    cases Envelope.decode payload with
    | ok e => exact attended.aside (rfl : pollsOf [.instant _] = [])
    | error _ => exact attended

/-- The age of a batch is seen to in each turn whose poll brings a message or times out: the turn inserts all
rows, or the last thing it does is to see that the first of them is younger than the greatest age. A turn whose
poll fails leaves a batch of any age as it is. -/
theorem ConsumerReach.age_bounded (reach : ConsumerReach io (.fresh settings metrics world) c) :
    Attended settings.maxAge settings.maxFlushes.toNat c.world.calls ∧
    (c.phase = .consuming → c.batch.failures = 0 →
      ∀ delivery w, io.reader.poll c.settings.pollWait c.world.world = (delivery, w) →
        ((∀ reason, delivery ≠ .error reason) →
          ∃ turn, (c.step io.recorded).world.calls = c.world.calls ++ .poll c.settings.pollWait delivery :: turn ∧
            pollsOf turn = [] ∧ (∀ rows ∈ insertsOf turn, c.batch.rows <+: rows) ∧
            Tended settings.maxAge (c.step io.recorded).world.calls (c.step io.recorded).batch.rows turn) ∧
        ∀ reason, delivery = .error reason →
          (c.step io.recorded).world.calls = c.world.calls ++ [.poll c.settings.pollWait (.error reason)] ∧
            (c.step io.recorded).batch = c.batch) := by
  refine ⟨reach.attended, fun consuming fine delivery w polled => ⟨fun brought => ?_, ?_⟩⟩
  · obtain ⟨turn, ends⟩ := reach.dated.step_ends consuming fine polled brought
    refine ⟨turn, ?_, ends.unpolled, ends.whole, reach.settings_eq ▸ ends.tended⟩
    simpa [Consumer.polled, Recorded.after] using ends.calls
  · rintro reason rfl
    exact Consumer.step_failed consuming fine polled

def oneSecond : BatchPolicy where
  maxAge := .ofSeconds 1

/-- A message was taken two seconds ago, and polls will bring this twice. -/
def waiting (delivery : Delivery) : Consumer (Recorded Script) :=
  let script : Script :=
    { arrivals := [{ delivery := .message threeTexts ⟨⟨"t", 0⟩, 0⟩ }, { delivery }, { delivery }] }
  let c := (Consumer.fresh oneSecond { started := .epoch } script).step Script.ports.recorded
  { c with world := { c.world with world := c.world.world.wait 2000 } }

theorem waiting_reach (delivery : Delivery) : ∃ script,
    ConsumerReach Script.ports (.fresh oneSecond { started := .epoch } script) (waiting delivery) :=
  ⟨_, .pause _ (.step .start)⟩

theorem age_bounded_idle :
    (waiting .timeout).phase = .consuming ∧ (waiting .timeout).batch.failures = 0 ∧
      ∃ turn, ((waiting .timeout).step Script.ports.recorded).world.calls =
          (waiting .timeout).world.calls ++ .poll (waiting .timeout).settings.pollWait .timeout :: turn ∧
        Tended oneSecond.maxAge ((waiting .timeout).step Script.ports.recorded).world.calls
          ((waiting .timeout).step Script.ports.recorded).batch.rows turn ∧
        (insertsOf ((waiting .timeout).step Script.ports.recorded).world.calls).length = 1 := by
  obtain ⟨_, reach⟩ := waiting_reach .timeout
  have consuming : (waiting .timeout).phase = .consuming := by decide +kernel
  have fine : (waiting .timeout).batch.failures = 0 := by decide +kernel
  have idle : (Script.ports.reader.poll (waiting .timeout).settings.pollWait (waiting .timeout).world.world).1 =
      .timeout := by
    decide +kernel
  rcases polled : Script.ports.reader.poll (waiting .timeout).settings.pollWait (waiting .timeout).world.world with
    ⟨delivery, w⟩
  obtain rfl : delivery = .timeout := (congrArg Prod.fst polled).symm.trans idle
  obtain ⟨turn, calls, _, _, tended⟩ := (reach.age_bounded.2 consuming fine .timeout w polled).1 (by simp)
  exact ⟨consuming, fine, turn, calls, tended, by decide +kernel⟩

/-- Its first row is a second older than allowed, and two turns whose polls fail leave the batch where it is. -/
theorem overdue_kept :
    (waiting (.error "down")).phase = .consuming ∧ (waiting (.error "down")).batch.failures = 0 ∧
      (waiting (.error "down")).batch.rows ≠ [] ∧
      OpenedAt (waiting (.error "down")).world.calls (waiting (.error "down")).batch.rows ⟨0⟩ ∧
      oneSecond.maxAge.toNanos <
        (Script.ports.clocks.moment (waiting (.error "down")).world.world).1.since ⟨0⟩ ∧
      insertsOf (((waiting (.error "down")).step Script.ports.recorded).step Script.ports.recorded).world.calls = [] ∧
      (((waiting (.error "down")).step Script.ports.recorded).step Script.ports.recorded).batch.rows =
        (waiting (.error "down")).batch.rows := by
  obtain ⟨_, reach⟩ := waiting_reach (.error "down")
  have held : (waiting (.error "down")).batch.rows ≠ [] := by decide +kernel
  have start : (waiting (.error "down")).batch.opened = some ⟨0⟩ := by decide +kernel
  obtain ⟨time, dating, opened⟩ := reach.dated.opened held
  obtain rfl : (⟨0⟩ : Moment) = time := Option.some.inj (start.symm.trans dating)
  exact ⟨by decide +kernel, by decide +kernel, held, opened, by decide +kernel, by decide +kernel, by decide +kernel⟩

end Reach

end EventRelay
