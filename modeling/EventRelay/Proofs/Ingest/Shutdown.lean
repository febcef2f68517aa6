import EventRelay.Proofs.Ingest.Counters

/-!
The end of a consumer. It consumes until it is drained for the first time, and from then on nothing
that is asked of it reaches the bus or the store again. A run polls only while the flag that ends it
is down.
-/

namespace EventRelay

variable {σ α : Type}

namespace Call

/-- Whether a call does more than to read a clock. -/
def isEffect : Call → Bool
  | .moment _ | .instant _ => false
  | _ => true

end Call

/-- All that is done outside, but polls and the end of the subscription, leaves what a view shows of it. -/
structure Ports.Keeps (io : Ports σ) (view : σ → α) : Prop where
  insert : ∀ rows w, view (io.store.insert rows w).2 = view w
  commit : ∀ positions w, view (io.reader.commit positions w).2 = view w
  moment : ∀ w, view (io.clocks.moment w).2 = view w
  instant : ∀ w, view (io.clocks.instant w).2 = view w

namespace Consumer

/-- The phase of a consumer, and what a view shows of the outside. -/
def shown (view : σ → α) (c : Consumer σ) : ConsumerPhase × α :=
  (c.phase, view c.world)

section Shown

variable {io : Ports σ} {view : σ → α} (keeps : io.Keeps view)

include keeps

theorem flush_shown (c : Consumer σ) : (c.flush io).2.shown view = c.shown view := by
  simp only [flush]
  split
  · rfl
  have inserted := keeps.insert c.batch.rows c.world
  split
  · split <;> simp only [shown, keeps.commit, keeps.instant, inserted]
  · split <;> simp only [shown, dropBatch, inserted]

theorem flushOverdue_shown (c : Consumer σ) : (c.flushOverdue io).shown view = c.shown view := by
  have looked := keeps.moment c.world
  simp only [flushOverdue]
  split
  · rw [flush_shown keeps, shown, looked]
    rfl
  · rw [shown, looked]
    rfl

theorem decode_shown (payload : Bytes) (c : Consumer σ) : (c.decode io payload).2.shown view = c.shown view := by
  simp only [decode]
  split
  · simp only [shown, keeps.instant]
  · rfl

theorem receive_shown (payload : Bytes) (position : Position) (c : Consumer σ) :
    (c.receive io payload position).shown view = c.shown view := by
  have rest (d : Consumer σ) (same : d.shown view = c.shown view) :
      (if d.settings.maxSize ≤ d.batch.size then (d.flush io).2 else d.flushOverdue io).shown view =
        c.shown view := by
    split
    · rw [flush_shown keeps, same]
    · rw [flushOverdue_shown keeps, same]
  unfold receive decode
  cases Envelope.decode payload with
  | ok e => exact rest _ (by simp only [shown, keeps.moment, keeps.instant])
  | error _ => exact rest _ rfl

theorem react_shown (delivery : Delivery) (c : Consumer σ) : (c.react io delivery).shown view = c.shown view := by
  cases delivery with
  | message payload position => exact receive_shown keeps payload position c
  | timeout => exact flushOverdue_shown keeps _
  | error _ => rfl

/-- A step polls at once or not at all, and only while it consumes. -/
theorem step_shown (c : Consumer σ) :
    (c.step io).shown view = c.shown view ∨
      (c.step io).shown view = (c.phase, view (io.reader.poll c.settings.pollWait c.world).2) := by
  unfold step
  split
  · exact .inl rfl
  split
  · exact .inl (flush_shown keeps c)
  · exact .inr (react_shown keeps _ _)

theorem drain_view (closes : ∀ w, view (io.reader.close w) = view w) (c : Consumer σ) :
    view (c.drain io).world = view c.world := by
  simp only [drain]
  split
  · rfl
  rw [closes]
  split
  · rfl
  have flushed : view (flush io { c with phase := .draining }).2.world = view c.world :=
    congrArg Prod.snd (flush_shown keeps { c with phase := .draining })
  generalize flush io { c with phase := .draining } = result at flushed
  obtain ⟨outcome, d⟩ := result
  cases outcome <;> exact flushed

end Shown

theorem keeps_phase (io : Ports σ) : io.Keeps fun _ => () :=
  ⟨fun _ _ => rfl, fun _ _ => rfl, fun _ => rfl, fun _ => rfl⟩

theorem step_phase (io : Ports σ) (c : Consumer σ) : (c.step io).phase = c.phase := by
  rcases step_shown (keeps_phase io) c with same | same <;> exact congrArg Prod.fst same

theorem drain_phase (io : Ports σ) (c : Consumer σ) : (c.drain io).phase = .stopped := by
  unfold drain
  split
  · assumption
  · rfl

theorem runFor_phase {io : Ports σ} {raised : σ → Bool} {turns : Nat} {c d : Consumer σ}
    (run : c.runFor io raised turns = some d) : d.phase = .stopped := by
  induction turns generalizing c with
  | zero => simp [runFor] at run
  | succ turns ih =>
    simp only [runFor] at run
    split at run
    · exact ih run
    · cases run
      exact drain_phase io c

/-- A flush keeps the rows only of a batch that it retains. -/
theorem flush_rows (io : Ports σ) (c : Consumer σ) :
    (c.flush io).1 = .retained ∨ (c.flush io).2.batch.rows = [] := by
  simp only [flush]
  split
  · rename_i none
    exact .inr (List.isEmpty_iff.mp none)
  split
  · split <;> exact .inr rfl
  · split
    · exact .inr rfl
    · exact .inl rfl

theorem drain_rows (io : Ports σ) {c : Consumer σ} (active : c.phase ≠ .stopped) :
    (c.drain io).batch.rows = [] := by
  simp only [drain, if_neg active]
  split
  · rename_i none
    exact List.isEmpty_iff.mp none
  have flushed := flush_rows io { c with phase := .draining }
  generalize flush io { c with phase := .draining } = result at flushed
  obtain ⟨outcome, d⟩ := result
  cases outcome with
  | retained => rfl
  | _ => exact flushed.resolve_left (by simp)

/-- A flush of a batch with rows is one insert of them, after which at most a time and a commit come. -/
theorem flush_inserts (io : Ports σ) {c : Consumer (Recorded σ)} (some : c.batch.rows ≠ []) :
    ∃ written rest, (c.flush io.recorded).2.world.calls = c.world.calls ++ .insert c.batch.rows written :: rest ∧
      insertsOf rest = [] ∧ .close ∉ rest ∧ pollsOf rest = [] := by
  rcases insertion : io.store.insert c.batch.rows c.world.world with ⟨written, w⟩
  by_cases whole : written = c.batch.rows.length
  · rcases reading : io.clocks.instant w with ⟨now, w'⟩
    rcases commission : io.reader.commit (nextPositions c.batch.extents c.limits) w' with ⟨result, w''⟩
    rw [flush_whole some insertion whole reading commission]
    exact ⟨_, _, rfl, rfl, by simp, rfl⟩
  · refine ⟨written, [], ?_, rfl, List.not_mem_nil, rfl⟩
    by_cases spent : c.settings.maxFlushes ≤ c.batch.failures + 1
    · rw [flush_spent some insertion whole spent]
      rfl
    · rw [flush_spare some insertion whole spent]
      rfl

/-- What a flush asks for: nothing without rows, or one insert, after which at most a time and a commit. -/
theorem flush_calls (io : Ports σ) (c : Consumer (Recorded σ)) :
    ∃ more, (c.flush io.recorded).2.world.calls = c.world.calls ++ more ∧ (insertsOf more).length ≤ 1 ∧
      .close ∉ more ∧ pollsOf more = [] := by
  by_cases none : c.batch.rows = []
  · rw [flush_of_rows_eq_nil io.recorded none]
    exact ⟨[], (List.append_nil _).symm, Nat.zero_le _, List.not_mem_nil, rfl⟩
  obtain ⟨written, rest, made, single, opened, unpolled⟩ := flush_inserts io none
  refine ⟨.insert c.batch.rows written :: rest, made, ?_, by simpa using opened, unpolled⟩
  have one : insertsOf (.insert c.batch.rows written :: rest) = c.batch.rows :: insertsOf rest := rfl
  simp [one, single]

/-- A drain ends with the close, before which one insert is made at most and nothing is polled. -/
theorem drain_calls (io : Ports σ) {c : Consumer (Recorded σ)} (active : c.phase ≠ .stopped) :
    ∃ more, (c.drain io.recorded).world.calls = c.world.calls ++ more ++ [.close] ∧
      (insertsOf more).length ≤ 1 ∧ .close ∉ more ∧ pollsOf more = [] := by
  simp only [drain, if_neg active]
  split
  · exact ⟨[], by simp [Ports.recorded], Nat.zero_le _, List.not_mem_nil, rfl⟩
  obtain ⟨more, made, rest⟩ := flush_calls io { c with phase := .draining }
  refine ⟨more, ?_, rest⟩
  generalize flush io.recorded { c with phase := .draining } = result at made
  obtain ⟨outcome, d⟩ := result
  cases outcome <;> simp_all [Ports.recorded, dropBatch]

end Consumer

/-- A consumer that has stopped, after calls that were made until then: it has no rows, and since then
only clocks were read. -/
structure Consumer.AtRest (before : List Call) (c : Consumer (Recorded σ)) : Prop where
  stopped : c.phase = .stopped
  rows : c.batch.rows = []
  calls : ∃ after, c.world.calls = before ++ after ∧ ∀ call ∈ after, call.isEffect = false

theorem Consumer.AtRest.clock {before : List Call} {c : Consumer (Recorded σ)} (rest : c.AtRest before) {w : σ}
    {call : Call} (clock : call.isEffect = false) : AtRest before { c with world := c.world.after w [call] } := by
  obtain ⟨after, made, quiet⟩ := rest.calls
  refine ⟨rest.stopped, rest.rows, after ++ [call], by simp [Recorded.after, made], ?_⟩
  simpa [or_imp, forall_and, clock] using quiet

/-- Nothing can be done to a consumer that has stopped but to read a clock. -/
theorem Consumer.Move.atRest {io : Ports σ} {before : List Call} {c d : Consumer (Recorded σ)}
    (move : Move io c d) (rest : c.AtRest before) : d.AtRest before := by
  have stopped := rest.stopped
  cases move with
  | look => exact rest.clock rfl
  | stamp => exact rest.clock rfl
  | idle consuming => simp [stopped] at consuming
  | trouble consuming => simp [stopped] at consuming
  | skip consuming => simp [stopped] at consuming
  | take consuming => simp [stopped] at consuming
  | write some => exact absurd rest.rows some
  | retain some => exact absurd rest.rows some
  | drop some => exact absurd rest.rows some
  | wane active => exact absurd stopped active
  | stop draining => simp [stopped] at draining
  | abandon draining => simp [stopped] at draining

/-- The source is closed when the consumer stops, and not before. -/
def Consumer.Sealed (c : Consumer (Recorded σ)) : Prop :=
  (c.phase ≠ .stopped ∧ .close ∉ c.world.calls) ∨
    ∃ before, .close ∉ before ∧ c.AtRest (before ++ [.close])

theorem Consumer.Move.sealed {io : Ports σ} {c d : Consumer (Recorded σ)} (move : Move io c d)
    (sealed : c.Sealed) : d.Sealed := by
  rcases sealed with ⟨active, opened⟩ | ⟨before, opened, rest⟩
  · cases move with
    | wane => exact .inl ⟨by simp, opened⟩
    | stop _ none =>
      exact .inr ⟨c.world.calls, opened, rfl, none, [], by simp [Recorded.after], by simp⟩
    | @abandon written =>
      exact .inr ⟨c.world.calls ++ [.insert c.batch.rows written], by simpa using opened, rfl, rfl, [],
        by simp [dropBatch, failed, Recorded.after], by simp⟩
    | _ => exact .inl ⟨active, by simpa [Recorded.after, failed, dropBatch] using opened⟩
  · exact .inr ⟨before, opened, move.atRest rest⟩

theorem ConsumerReach.atRest {io : Ports σ} {before : List Call} {c d : Consumer (Recorded σ)}
    (reach : ConsumerReach io c d) (rest : c.AtRest before) : d.AtRest before :=
  reach.preserves (fun move => move.atRest) (fun _ rest => ⟨rest.stopped, rest.rows, rest.calls⟩)
    (fun rest => ⟨rest.stopped, rest.rows, rest.calls⟩) rest

theorem ConsumerReach.sealed {io : Ports σ} {settings : BatchPolicy} {metrics : Metrics} {world : σ}
    {c : Consumer (Recorded σ)} (reach : ConsumerReach io (.fresh settings metrics world) c) : c.Sealed := by
  refine reach.preserves (fun move => move.sealed) ?_ ?_ (.inl ⟨by simp [Consumer.fresh], by simp [Consumer.fresh]⟩)
  · rintro c w (active | ⟨before, opened, rest⟩)
    · exact .inl active
    · exact .inr ⟨before, opened, rest.stopped, rest.rows, rest.calls⟩
  · rintro c (active | ⟨before, opened, rest⟩)
    · exact .inl active
    · exact .inr ⟨before, opened, rest.stopped, rest.rows, rest.calls⟩

/-- The same ports. It is noted of each poll whether a flag was raised when it was made. -/
def Ports.flagged (io : Ports σ) (raised : σ → Bool) : Ports (Annotated σ Bool) where
  reader := { io.reader.annotated with
    poll := fun wait s =>
      let (delivery, w) := io.reader.poll wait s.world
      (delivery, ⟨w, s.notes ++ [raised s.world]⟩) }
  store := io.store.annotated
  clocks := io.clocks.annotated

/-- What is noted of the polls, beside the polls themselves. -/
def Recorded.polling (r : Recorded (Annotated σ Bool)) : List Bool × List Delivery :=
  (r.world.notes, pollsOf r.calls)

theorem Ports.flagged_keeps (io : Ports σ) (raised : σ → Bool) :
    (io.flagged raised).recorded.Keeps Recorded.polling := by
  constructor <;> intros <;>
    simp [Recorded.polling, recorded, flagged, BusReader.annotated, RowStore.annotated, Clocks.annotated, pollsOf]

/-- A step polls once at most, before all else that it does. -/
theorem Consumer.step_polls (io : Ports σ) (raised : σ → Bool) (c : Consumer (Recorded (Annotated σ Bool))) :
    (c.step (io.flagged raised).recorded).world.polling = c.world.polling ∨
      ∃ delivery, (c.step (io.flagged raised).recorded).world.polling =
        (c.world.world.notes ++ [raised c.world.world.world], pollsOf c.world.calls ++ [delivery]) := by
  rcases step_shown (io.flagged_keeps raised) c with same | polled
  · exact .inl (congrArg Prod.snd same)
  · refine .inr ⟨(io.reader.poll c.settings.pollWait c.world.world.world).1, (congrArg Prod.snd polled).trans ?_⟩
    simp [Recorded.polling, Ports.recorded, Ports.flagged, pollsOf]

theorem Consumer.drain_polls (io : Ports σ) (raised : σ → Bool) (c : Consumer (Recorded (Annotated σ Bool))) :
    (c.drain (io.flagged raised).recorded).world.polling = c.world.polling := by
  refine drain_view (io.flagged_keeps raised) (fun r => ?_) c
  simp [Recorded.polling, Ports.recorded, Ports.flagged, BusReader.annotated, pollsOf]

/-- Each poll of a run is made while its flag is down. -/
theorem Consumer.runFor_polls {io : Ports σ} {raised : σ → Bool} {turns : Nat}
    {c d : Consumer (Recorded (Annotated σ Bool))}
    (run : c.runFor (io.flagged raised).recorded (fun r => raised r.world.world) turns = some d) :
    ∃ polls, pollsOf d.world.calls = pollsOf c.world.calls ++ polls ∧
      d.world.world.notes = c.world.world.notes ++ List.replicate polls.length false := by
  induction turns generalizing c with
  | zero => simp [runFor] at run
  | succ turns ih =>
    simp only [runFor] at run
    split at run
    · rename_i active
      have down : raised c.world.world.world = false := by
        simp only [Bool.and_eq_true, Bool.not_eq_true'] at active
        exact active.1
      obtain ⟨polls, made, notes⟩ := ih run
      rcases step_polls io raised c with same | ⟨delivery, polled⟩
      · obtain ⟨noted, asked⟩ := Prod.mk.inj same
        exact ⟨polls, by rw [made, asked], by rw [notes, noted]⟩
      · obtain ⟨noted, asked⟩ := Prod.mk.inj polled
        refine ⟨delivery :: polls, ?_, ?_⟩
        · rw [made, asked, List.append_assoc]
          rfl
        · rw [notes, noted, down, List.append_assoc]
          rfl
    · cases run
      obtain ⟨noted, asked⟩ := Prod.mk.inj (drain_polls io raised c)
      exact ⟨[], by rw [asked, List.append_nil], by rw [noted]; exact (List.append_nil _).symm⟩

/-- What can be asked of a consumer. -/
inductive Operation
  | step
  | flush
  | drain
  | decode
  | run
  deriving DecidableEq

/-- Whether a consumer is drained by an operation. -/
def Operation.drains : Operation → Bool
  | .drain | .run => true
  | _ => false

/-- The states of a consumer after given operations. Between them, whatever lies outside may change. -/
inductive ConsumerHistory (io : Ports σ) (start : Consumer (Recorded σ)) :
    List Operation → Consumer (Recorded σ) → Prop
  | start : ConsumerHistory io start [] start
  | pause {ops c} (w : σ) : ConsumerHistory io start ops c →
      ConsumerHistory io start ops { c with world := { c.world with world := w } }
  | step {ops c} : ConsumerHistory io start ops c →
      ConsumerHistory io start (ops ++ [.step]) (c.step io.recorded)
  | flush {ops c} : ConsumerHistory io start ops c →
      ConsumerHistory io start (ops ++ [.flush]) (c.flush io.recorded).2
  | drain {ops c} : ConsumerHistory io start ops c →
      ConsumerHistory io start (ops ++ [.drain]) (c.drain io.recorded)
  | decode {ops c} (payload : Bytes) : ConsumerHistory io start ops c →
      ConsumerHistory io start (ops ++ [.decode]) (c.decode io.recorded payload).2
  | run {ops c d} (raised : Recorded σ → Bool) (turns : Nat) : ConsumerHistory io start ops c →
      c.runFor io.recorded raised turns = some d → ConsumerHistory io start (ops ++ [.run]) d

namespace ConsumerHistory

variable {io : Ports σ} {start c : Consumer (Recorded σ)} {ops : List Operation}

theorem reach (history : ConsumerHistory io start ops c) : ConsumerReach io start c := by
  induction history with
  | start => exact .start
  | pause w _ ih => exact .pause w ih
  | step _ ih => exact .step ih
  | flush _ ih => exact .flush ih
  | drain _ ih => exact .drain ih
  | decode payload _ ih => exact .decode payload ih
  | run raised turns _ run ih => exact .run raised turns ih run

theorem phase_eq (history : ConsumerHistory io start ops c) :
    c.phase = if ops.any Operation.drains then .stopped else start.phase := by
  have keeps := Consumer.keeps_phase io.recorded
  induction history with
  | start => rfl
  | pause w _ ih => exact ih
  | step _ ih => simpa [Operation.drains, Consumer.step_phase] using ih
  | @flush ops c _ ih =>
    have same : (c.flush io.recorded).2.phase = c.phase := congrArg Prod.fst (Consumer.flush_shown keeps c)
    simpa [Operation.drains, same] using ih
  | drain _ ih => simp [Operation.drains, Consumer.drain_phase]
  | @decode ops c payload _ ih =>
    have same : (c.decode io.recorded payload).2.phase = c.phase :=
      congrArg Prod.fst (Consumer.decode_shown keeps payload c)
    simpa [Operation.drains, same] using ih
  | run raised turns _ run ih => simp [Operation.drains, Consumer.runFor_phase run]

end ConsumerHistory

/-- A consumer consumes until it is drained for the first time and has stopped for ever after. A drain
inserts once at most, and whatever comes of that no rows are left; the last thing it does is to close
the source. This is done once. Nothing that is asked of the consumer afterwards polls, inserts,
commits or closes again. A run polls only while its flag is down. -/
theorem ConsumerHistory.stopped_for_good {io : Ports σ} {settings : BatchPolicy} {metrics : Metrics} {world : σ}
    {ops : List Operation} {c : Consumer (Recorded σ)}
    (history : ConsumerHistory io (.fresh settings metrics world) ops c) :
    c.phase = (if ops.any Operation.drains then .stopped else .consuming) ∧
    (c.drain io.recorded).phase = .stopped ∧ (c.drain io.recorded).batch.rows = [] ∧
    (c.phase = .consuming → .close ∉ c.world.calls ∧
      ∃ more, (c.drain io.recorded).world.calls = c.world.calls ++ more ++ [.close] ∧
        (insertsOf more).length ≤ 1 ∧ .close ∉ more ∧ pollsOf more = []) ∧
    (c.phase = .stopped →
      (∃ before after, c.world.calls = before ++ .close :: after ∧ .close ∉ before ∧
        ∀ call ∈ after, call.isEffect = false) ∧
      ∀ d, ConsumerReach io c d → d.phase = .stopped ∧ d.batch.rows = [] ∧
        ∃ after, d.world.calls = c.world.calls ++ after ∧ ∀ call ∈ after, call.isEffect = false) ∧
    ∀ (raised : σ → Bool) (turns : Nat) (b d : Consumer (Recorded (Annotated σ Bool))),
      b.runFor (io.flagged raised).recorded (fun r => raised r.world.world) turns = some d →
      d.phase = .stopped ∧ ∃ polls, pollsOf d.world.calls = pollsOf b.world.calls ++ polls ∧
        d.world.world.notes = b.world.world.notes ++ List.replicate polls.length false := by
  have sealed := history.reach.sealed
  refine ⟨history.phase_eq, Consumer.drain_phase _ c, ?_, ?_, ?_, ?_⟩
  · by_cases stopped : c.phase = .stopped
    · rcases sealed with ⟨active, _⟩ | ⟨_, _, rest⟩
      · exact absurd stopped active
      · simpa [Consumer.drain, stopped] using rest.rows
    · exact Consumer.drain_rows _ stopped
  · intro consuming
    have active : c.phase ≠ .stopped := by simp [consuming]
    rcases sealed with ⟨_, opened⟩ | ⟨_, _, rest⟩
    · exact ⟨opened, Consumer.drain_calls io active⟩
    · exact absurd rest.stopped active
  · intro stopped
    rcases sealed with ⟨active, _⟩ | ⟨before, opened, rest⟩
    · exact absurd stopped active
    obtain ⟨after, made, quiet⟩ := rest.calls
    refine ⟨⟨before, after, by simpa using made, opened, quiet⟩, fun d later => ?_⟩
    have still : d.AtRest c.world.calls := later.atRest ⟨stopped, rest.rows, [], by simp, by simp⟩
    exact ⟨still.stopped, still.rows, still.calls⟩
  · intro raised turns b d run
    exact ⟨Consumer.runFor_phase run, Consumer.runFor_polls run⟩

/-- Two messages of which the second one raises the flag. -/
def interrupted : Script where
  arrivals :=
    [{ delivery := .message threeTexts ⟨⟨"t", 0⟩, 0⟩ },
      { delivery := .message threeTexts ⟨⟨"t", 0⟩, 1⟩, shutdown := true },
      { delivery := .message threeTexts ⟨⟨"t", 0⟩, 2⟩ }]
  inserts := [some 0, some 0]

def thrice : BatchPolicy where
  maxSize := 1
  maxFlushes := 3

/-- The batch of the first message is retained, and given up when the consumer is drained. -/
def shutDown : Consumer (Recorded Script) :=
  let io := Script.ports.recorded
  (((((Consumer.fresh thrice { started := .epoch } interrupted).step io).drain io).step io).flush io).2.drain io

theorem stopped_for_good_shutDown :
    shutDown.phase = .stopped ∧ (insertsOf shutDown.world.calls).length = 2 ∧
      (∃ before after, shutDown.world.calls = before ++ .close :: after ∧ .close ∉ before ∧
        ∀ call ∈ after, call.isEffect = false) ∧
      ∃ d, (Consumer.fresh thrice { started := .epoch } ⟨interrupted, []⟩).runFor
          (Script.ports.flagged Script.shutdown).recorded (fun r => r.world.world.shutdown) 5 = some d ∧
        (pollsOf d.world.calls).length = 2 ∧ d.world.world.notes = [false, false] := by
  have history : ConsumerHistory Script.ports (.fresh thrice { started := .epoch } interrupted)
      [.step, .drain, .step, .flush, .drain] shutDown :=
    .drain (.flush (.step (.drain (.step .start))))
  obtain ⟨phase, _, _, _, ended, runs⟩ := history.stopped_for_good
  obtain ⟨whole, _⟩ := ended phase
  have polled : ((Consumer.fresh thrice { started := .epoch } ⟨interrupted, []⟩).runFor
      (Script.ports.flagged Script.shutdown).recorded (fun r => r.world.world.shutdown) 5).map
        (fun d => (pollsOf d.world.calls).length) = some 2 := by
    decide +kernel
  obtain ⟨d, run, two⟩ := Option.map_eq_some_iff.mp polled
  obtain ⟨_, polls, asked, noted⟩ := runs Script.shutdown 5 _ d run
  have count : polls.length = 2 := by rw [← two, asked]; rfl
  exact ⟨phase, by decide +kernel, whole, d, run, two, by rw [noted, count]; rfl⟩

end EventRelay
