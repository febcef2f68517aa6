import EventRelay.Proofs.Ingest.Noise
import EventRelay.Proofs.Ingest.Rows

/-!
Two runs over the same deliveries, with noise among those of the second. What the store and the reader answer is the
same in both, and batches are looked at in time. The second run takes more turns, and otherwise goes on as the first:
its inserts have the same rows but for the times at which they were stamped.
-/

namespace EventRelay

variable {σ τ : Type}

/-- The second deliveries are the first with this noise among them. -/
inductive Mixed : List Delivery → List Delivery → List Delivery → Prop
  | done : Mixed [] [] []
  | keep {ds noise ds'} (delivery : Delivery) : Mixed ds noise ds' → Mixed (delivery :: ds) noise (delivery :: ds')
  | noise {ds noise ds'} {delivery : Delivery} : delivery.isNoise → Mixed ds noise ds' →
      Mixed ds (delivery :: noise) (delivery :: ds')

/-- The same, of deliveries the last of which is in both. -/
inductive Ahead : List Delivery → List Delivery → List Delivery → Prop
  | done : Ahead [] [] []
  | keep {ds noise ds'} (delivery : Delivery) : Ahead ds noise ds' → Ahead (delivery :: ds) noise (delivery :: ds')
  | noise {next ds noise ds'} {delivery : Delivery} : delivery.isNoise → Ahead (next :: ds) noise ds' →
      Ahead (next :: ds) (delivery :: noise) (delivery :: ds')

theorem Mixed.ahead {ds noise ds' : List Delivery} (mixed : Mixed ds noise ds') (last : Delivery) :
    Ahead (ds ++ [last]) noise (ds' ++ [last]) := by
  induction mixed with
  | done => exact .keep last .done
  | keep delivery _ ih => exact .keep delivery ih
  | @noise ds noise ds' delivery noisy _ ih =>
    cases ds with
    | nil => exact .noise noisy ih
    | cons => exact .noise noisy ih

theorem Ahead.both {ds noise ds' : List Delivery} (ahead : Ahead ds noise ds') :
    ds = [] ∧ noise = [] ∧ ds' = [] ∨ ds ≠ [] ∧ ds' ≠ [] := by
  cases ahead with
  | done => exact .inl ⟨rfl, rfl, rfl⟩
  | keep => exact .inr ⟨by simp, by simp⟩
  | noise => exact .inr ⟨by simp, by simp⟩

/-- Rows that are made of one event, each at a time of its own. -/
def Restamped (row row' : Envelope) : Prop :=
  ∃ (e : Envelope) (now now' : Instant), row = e.normalized now ∧ row' = e.normalized now'

/-- Whether each of the commits succeeded. -/
def resultsOf (calls : List Call) : List Bool :=
  calls.filterMap fun
    | .commit _ succeeded => some succeeded
    | _ => none

theorem resultsOf_append (calls more : List Call) : resultsOf (calls ++ more) = resultsOf calls ++ resultsOf more :=
  List.filterMap_append

/-- Calls that insert the same rows but for their times, with as many of them written, and whose commits come out
the same. -/
structure Matched (calls calls' : List Call) : Prop where
  inserts : List.Forall₂ (fun made made' => List.Forall₂ Restamped made.1 made'.1 ∧ made'.2 = made.2)
    (insertions calls) (insertions calls')
  commits : resultsOf calls' = resultsOf calls

namespace Matched

variable {calls calls' more more' : List Call}

theorem append (matched : Matched calls calls') (later : Matched more more') :
    Matched (calls ++ more) (calls' ++ more') where
  inserts := by
    rw [insertions_append, insertions_append]
    exact List.rel_append matched.inserts later.inserts
  commits := by rw [resultsOf_append, resultsOf_append, matched.commits, later.commits]

/-- Calls that store nothing may come on either side. -/
theorem later (matched : Matched calls calls') (first : Quiet calls more) (second : Quiet calls' more') :
    Matched more more' := by
  have none {calls : List Call} (quiet : ∀ call ∈ calls, call.stores = false) :
      insertions calls = [] ∧ resultsOf calls = [] := by
    constructor <;>
    · refine List.filterMap_eq_nil_iff.mpr fun call member => ?_
      cases call <;> first | rfl | cases quiet _ member
  obtain ⟨more, rfl, quiet⟩ := first
  obtain ⟨more', rfl, quiet'⟩ := second
  obtain ⟨inserts, commits⟩ := none quiet
  obtain ⟨inserts', commits'⟩ := none quiet'
  exact matched.append ⟨by rw [inserts, inserts']; exact .nil, by rw [commits, commits']⟩

theorem insert {rows rows' : List Envelope} (same : List.Forall₂ Restamped rows rows') (written : Nat) :
    Matched [.insert rows written] [.insert rows' written] :=
  ⟨.cons ⟨same, rfl⟩ .nil, rfl⟩

theorem write {rows rows' : List Envelope} (same : List.Forall₂ Restamped rows rows') (now now' : Instant)
    (positions positions' : List Position) (succeeded : Bool) :
    Matched [.insert rows rows.length, .instant now, .commit positions succeeded]
      [.insert rows' rows'.length, .instant now', .commit positions' succeeded] :=
  ⟨.cons ⟨same, same.length_eq.symm⟩ .nil, rfl⟩

end Matched

namespace Consumer

/-- What two consumers have stored and counted is the same but for the times of rows, and for errors of which the
second has so many more. -/
structure Alike (more : Nat) (c : Consumer (Recorded σ)) (c' : Consumer (Recorded τ)) : Prop where
  stored : Matched c.world.calls c'.world.calls
  counts : c'.metrics.counts = c.metrics.counts
  errors : c'.metrics.errors = c.metrics.errors + .ofNat more

/-- Two consumers that are alike, hold the same rows but for their times, and are going to be answered the same. -/
structure Even (answers : σ → Answers) (answers' : τ → Answers) (more : Nat) (c : Consumer (Recorded σ))
    (c' : Consumer (Recorded τ)) : Prop where
  alike : Alike more c c'
  settings : c'.settings = c.settings
  rows : List.Forall₂ Restamped c.batch.rows c'.batch.rows
  failures : c'.batch.failures = c.batch.failures
  answers : answers' c'.world.world = answers c.world.world

namespace Even

variable {answers : σ → Answers} {answers' : τ → Answers} {k l m n : Nat} {c d : Consumer (Recorded σ)}
  {c' d' : Consumer (Recorded τ)}

/-- Noise on either side. -/
theorem passed (even : Even answers answers' k c c') (first : Passed answers m c d) (second : Passed answers' n c' d')
    (balance : k + n = m + l) : Even answers answers' l d d' where
  alike := by
    refine ⟨even.alike.stored.later first.calls second.calls, ?_, ?_⟩
    · rw [second.counts, first.counts, even.alike.counts]
    · rw [second.errors, first.errors, even.alike.errors, UInt64.add_assoc, UInt64.add_assoc, ← UInt64.ofNat_add,
        ← UInt64.ofNat_add, balance]
  settings := by rw [second.settings, first.settings, even.settings]
  rows := by rw [second.rows, first.rows]; exact even.rows
  failures := by rw [second.failures, first.failures, even.failures]
  answers := by rw [second.answers, first.answers, even.answers]

/-- The same event on both sides. -/
theorem taken (even : Even answers answers' k c c') {e : Envelope} (first : Taken answers e c d)
    (second : Taken answers' e c' d') : Even answers answers' k d d' where
  alike := ⟨even.alike.stored.later first.calls second.calls,
    by rw [second.counts, first.counts, even.alike.counts], by rw [second.errors, first.errors, even.alike.errors]⟩
  settings := by rw [second.settings, first.settings, even.settings]
  rows := by
    obtain ⟨now, added⟩ := first.rows
    obtain ⟨now', added'⟩ := second.rows
    rw [added, added']
    exact List.rel_append even.rows (.cons ⟨e, now, now', rfl, rfl⟩ .nil)
  failures := by rw [second.failures, first.failures, even.failures]
  answers := by rw [second.answers, first.answers, even.answers]

theorem wane (even : Even answers answers' k c c') :
    Even answers answers' k { c with phase := .draining } { c' with phase := .draining } :=
  ⟨⟨even.alike.stored, even.alike.counts, even.alike.errors⟩, even.settings, even.rows, even.failures, even.answers⟩

theorem dropBatch (even : Even answers answers' k c c') : Even answers answers' k c.dropBatch c'.dropBatch where
  alike := by
    refine ⟨even.alike.stored, even.alike.counts, ?_⟩
    have errors := even.alike.errors
    have size := even.rows.length_eq
    simp only [Consumer.dropBatch, Metrics.countErrors, Batch.size, ← size, errors]
    ac_rfl
  settings := even.settings
  rows := .nil
  failures := rfl
  answers := even.answers

theorem failed (even : Even answers answers' k c c') (written : Nat) {w : σ} {w' : τ}
    (same : answers' w' = answers w) :
    Even answers answers' k (c.failed (c.world.after w [.insert c.batch.rows written]))
      (c'.failed (c'.world.after w' [.insert c'.batch.rows written])) where
  alike := ⟨even.alike.stored.append (.insert even.rows written), even.alike.counts, even.alike.errors⟩
  settings := even.settings
  rows := even.rows
  failures := congrArg (· + 1) even.failures
  answers := same

theorem wrote (even : Even answers answers' k c c') (now now' : Instant) {result result' : Except BusError Unit}
    (agreed : result'.isOk = result.isOk) {w : σ} {w' : τ} (same : answers' w' = answers w) :
    Even answers answers' k (c.wrote now result w) (c'.wrote now' result' w') where
  alike := by
    have size := even.rows.length_eq
    refine ⟨?_, ?_, ?_⟩
    · rw [wrote_calls, wrote_calls, agreed]
      exact even.alike.stored.append (.write even.rows ..)
    · rw [wrote_counts, wrote_counts, even.alike.counts, Batch.size, Batch.size, size]
    · rw [wrote_errors, wrote_errors, even.alike.errors, agreed]
      ac_rfl
  settings := even.settings
  rows := .nil
  failures := rfl
  answers := same

end Even

section Runs

variable {io : Ports σ} {raised : σ → Bool} {left : σ → List Delivery} {answers : σ → Answers}
  (plays : io.Plays raised left answers) {io' : Ports τ} {raised' : τ → Bool} {left' : τ → List Delivery}
  {answers' : τ → Answers} (plays' : io'.Plays raised' left' answers') {more : Nat} {c d : Consumer (Recorded σ)}
  {c' d' : Consumer (Recorded τ)}

include plays plays'

/-- A flush comes out the same on both sides. -/
theorem Even.flush (even : Even answers answers' more c c') :
    ((c.flush io.recorded).1 = .retained ↔ (c'.flush io'.recorded).1 = .retained) ∧
      Even answers answers' more (c.flush io.recorded).2 (c'.flush io'.recorded).2 := by
  have size := even.rows.length_eq
  by_cases none : c.batch.rows = []
  · have none' : c'.batch.rows = [] := List.length_eq_zero_iff.mp (by rw [← size, none]; rfl)
    rw [flush_of_rows_eq_nil _ none, flush_of_rows_eq_nil _ none']
    exact ⟨Iff.rfl, even⟩
  have some' : c'.batch.rows ≠ [] := fun none' => none (List.length_eq_zero_iff.mp (by rw [size, none']; rfl))
  have answered : (answers' c'.world.world).written c'.batch.rows.length =
      (answers c.world.world).written c.batch.rows.length := by
    rw [even.answers, size]
  rcases flush_answered plays none rfl with ⟨whole, now, result, w, next, agreed, run⟩ | ⟨short, w, next, run⟩ <;>
    rcases flush_answered plays' some' answered with
      ⟨whole', now', result', w', next', agreed', run'⟩ | ⟨short', w', next', run'⟩
  · rw [even.answers] at next' agreed'
    have results : result'.isOk = result.isOk := agreed'.trans agreed.symm
    rw [run, run', results]
    exact ⟨Iff.rfl, even.wrote now now' results (next'.trans next.symm)⟩
  · exact absurd (whole.trans size) short'
  · exact absurd (whole'.trans size.symm) short
  · rw [even.answers] at next'
    have failed := even.failed ((answers c.world.world).written c.batch.rows.length) (next'.trans next.symm)
    rw [run, run', even.settings, even.failures]
    split
    · exact ⟨Iff.rfl, failed.dropBatch⟩
    · exact ⟨Iff.rfl, failed⟩

theorem Even.drain (even : Even answers answers' more c c') (active : c.phase ≠ .stopped)
    (active' : c'.phase ≠ .stopped) : Alike more (c.drain io.recorded) (c'.drain io'.recorded) := by
  obtain ⟨retained, flushed⟩ := even.wane.flush plays plays'
  rcases run : Consumer.flush io.recorded { c with phase := .draining } with ⟨result, d⟩
  rcases run' : Consumer.flush io'.recorded { c' with phase := .draining } with ⟨result', d'⟩
  rw [run, run'] at retained flushed
  have given : Even answers answers' more (if result = .retained then d.dropBatch else d)
      (if result' = .retained then d'.dropBatch else d') := by
    by_cases kept : result = .retained
    · rw [if_pos kept, if_pos (retained.mp kept)]
      exact flushed.dropBatch
    · rw [if_neg kept, if_neg (fun kept' => kept (retained.mpr kept'))]
      exact flushed
  rw [drain_eq active run, drain_eq active' run']
  exact ⟨flushed.alike.stored.later (.of_append (by simp [Call.stores])) (.of_append (by simp [Call.stores])),
    given.alike.counts, given.alike.errors⟩

/-- A turn on both sides, with the same delivery if it polls. -/
theorem Even.step (even : Even answers answers' more c c') (ready : c.Ready) (ready' : c'.Ready)
    (consuming : c.phase = .consuming) (consuming' : c'.phase = .consuming)
    (prompt : Prompt c.settings.maxAge (c.step io.recorded).world.calls)
    (prompt' : Prompt c'.settings.maxAge (c'.step io'.recorded).world.calls)
    (brought : c.batch.failures = 0 → (io'.reader.poll c'.settings.pollWait c'.world.world).1 =
      (io.reader.poll c.settings.pollWait c.world.world).1) :
    Even answers answers' more (c.step io.recorded) (c'.step io'.recorded) := by
  by_cases fine : c.batch.failures = 0
  swap
  · have failed' : c'.batch.failures ≠ 0 := by rwa [even.failures]
    rw [step_again io.recorded consuming fine, step_again io'.recorded consuming' failed']
    exact (even.flush plays plays').2
  have fine' : c'.batch.failures = 0 := by rw [even.failures, fine]
  rcases polled : io.reader.poll c.settings.pollWait c.world.world with ⟨delivery, w⟩
  rcases polled' : io'.reader.poll c'.settings.pollWait c'.world.world with ⟨delivery', w'⟩
  obtain rfl : delivery' = delivery := by simpa [polled, polled'] using brought fine
  by_cases noise : delivery'.isNoise
  · exact even.passed (step_noise plays ready consuming fine polled noise prompt)
      (step_noise plays' ready' consuming' fine' polled' noise prompt') (Nat.add_comm _ _)
  obtain ⟨payload, position, e, rfl, decoded⟩ := Delivery.exists_message noise
  obtain ⟨d, took, _, taken⟩ := step_event plays ready consuming fine decoded polled prompt
  obtain ⟨d', took', _, taken'⟩ := step_event plays' ready' consuming' fine' decoded polled' prompt'
  have both := even.taken took took'
  rw [even.settings, ← even.rows.length_eq] at taken'
  split at taken
  next full =>
    rw [if_pos full] at taken'
    rw [taken, taken']
    exact (both.flush plays plays').2
  next spare =>
    rw [if_neg spare] at taken'
    exact both.passed taken taken' (Nat.add_comm _ _)

/-- The second run takes a turn by itself for noise, once there is nothing to flush again. So the induction is on
its turns, of which the first run takes no more. -/
theorem Even.run {turns turns' : Nat} {noise : List Delivery} (even : Even answers answers' more c c')
    (fits : 0 < c.settings.maxSize) (ready : c.Ready) (ready' : c'.Ready)
    (consuming : c.phase = .consuming) (consuming' : c'.phase = .consuming)
    (ahead : Ahead (left c.world.world) noise (left' c'.world.world))
    (run : c.runFor io.recorded (fun r => raised r.world) turns = some d)
    (run' : c'.runFor io'.recorded (fun r => raised' r.world) turns' = some d')
    (prompt : Prompt c.settings.maxAge d.world.calls) (prompt' : Prompt c.settings.maxAge d'.world.calls) :
    Alike (more + noise.countP Delivery.isFault) d d' := by
  induction turns' generalizing turns noise more c c' with
  | zero => simp [runFor] at run'
  | succ turns' ih =>
    rcases ahead.both with ⟨none, quiet, none'⟩ | ⟨some, some'⟩
    · have up : raised c.world.world = true := by rw [plays.feeds.raised, none, List.isEmpty_nil]
      have up' : raised' c'.world.world = true := by rw [plays'.feeds.raised, none', List.isEmpty_nil]
      obtain rfl := runFor_raised up run
      obtain rfl := runFor_raised up' run'
      rw [quiet]
      exact even.drain plays plays' (by simp [consuming]) (by simp [consuming'])
    have fits' : 0 < c'.settings.maxSize := by rwa [even.settings]
    have early' := prompt'.front
      (runFor_moves io' _ (runFor_step plays'.feeds consuming' some' run')).calls
    rw [← even.settings] at early'
    have next' := ready'.step plays' fits' consuming' early'
    have later' := (step_phase io'.recorded c').trans consuming'
    -- A turn of the first run too.
    have together (brought : c.batch.failures = 0 →
        (io'.reader.poll c'.settings.pollWait c'.world.world).1 = (io.reader.poll c.settings.pollWait c.world.world).1)
        (ahead : Ahead (left (c.step io.recorded).world.world) noise (left' (c'.step io'.recorded).world.world)) :
        Alike (more + noise.countP Delivery.isFault) d d' := by
      cases turns with
      | zero => simp [runFor] at run
      | succ turns =>
        have rest := runFor_step plays.feeds consuming some run
        have early := prompt.front (runFor_moves io _ rest).calls
        refine ih (even.step plays plays' ready ready' consuming consuming' early early' brought) ?_
          (ready.step plays fits consuming early) next' ((step_phase io.recorded c).trans consuming) later' ahead rest
          (runFor_step plays'.feeds consuming' some' run') ?_ ?_
        all_goals rwa [step_settings]
    by_cases fine : c.batch.failures = 0
    swap
    · have failed' : c'.batch.failures ≠ 0 := by rwa [even.failures]
      refine together (fun zero => absurd zero fine) ?_
      rwa [step_left_of_failed plays.feeds.keeps consuming fine,
        step_left_of_failed plays'.feeds.keeps consuming' failed']
    have fine' : c'.batch.failures = 0 := by rw [even.failures, fine]
    generalize found : left c.world.world = deliveries at ahead some
    generalize found' : left' c'.world.world = deliveries' at ahead some'
    cases ahead with
    | done => exact absurd rfl some
    | keep delivery ahead =>
      obtain ⟨brought, shorter⟩ := plays.feeds.poll c.settings.pollWait _ _ _ found
      obtain ⟨brought', shorter'⟩ := plays'.feeds.poll c'.settings.pollWait _ _ _ found'
      refine together (fun _ => brought'.trans brought.symm) ?_
      rwa [step_left plays.feeds.keeps consuming fine, shorter, step_left plays'.feeds.keeps consuming' fine', shorter']
    | @noise next ds noise ds' delivery noisy ahead =>
      obtain ⟨w', polled', shorter', rest'⟩ := runFor_turn plays'.feeds consuming' fine' found' run'
      have passed' := step_noise plays' ready' consuming' fine' polled' noisy early'
      have still := even.passed (.refl answers c) passed' (Nat.zero_add _).symm
      have ended := ih still fits ready next' consuming later' (by rwa [found, shorter']) run rest' prompt prompt'
      rw [List.countP_cons]
      convert ended using 1
      omega

/-- Noise among the deliveries of a run changes nothing about what is stored, as long as batches have room for an
event and are looked at before they are overdue. All of it that is faulty is counted, and nothing else is. Both runs
end with the delivery with which the flag is raised. -/
theorem noise_transparent {settings : BatchPolicy} (fits : 0 < settings.maxSize) (metrics : Metrics)
    {ds noise ds' : List Delivery} (mixed : Mixed ds noise ds') (last : Delivery) {w : σ} {w' : τ}
    (brings : left w = ds ++ [last]) (brings' : left' w' = ds' ++ [last]) (answered : answers' w' = answers w) :
    (∃ d, (fresh settings metrics w).runFor io.recorded (fun r => raised r.world)
        (turnsFor settings (left w).length) = some d) ∧
      (∃ d', (fresh settings metrics w').runFor io'.recorded (fun r => raised' r.world)
        (turnsFor settings (left' w').length) = some d') ∧
      ∀ turns turns' d d',
        (fresh settings metrics w).runFor io.recorded (fun r => raised r.world) turns = some d →
        (fresh settings metrics w').runFor io'.recorded (fun r => raised' r.world) turns' = some d' →
        Prompt settings.maxAge d.world.calls → Prompt settings.maxAge d'.world.calls →
        Alike (noise.countP Delivery.isFault) d d' := by
  refine ⟨exists_runFor_turnsFor plays.feeds settings metrics w,
    exists_runFor_turnsFor plays'.feeds settings metrics w', ?_⟩
  intro turns turns' d d' run run' prompt prompt'
  have even : Even answers answers' 0 (fresh settings metrics w) (fresh settings metrics w') :=
    ⟨⟨⟨.nil, rfl⟩, rfl, by simp [fresh]⟩, rfl, .nil, rfl, answered⟩
  have ahead : Ahead (left w) noise (left' w') := by
    rw [brings, brings']
    exact mixed.ahead last
  have alike := even.run plays plays' fits (fresh_ready settings metrics w fits) (fresh_ready settings metrics w' fits)
    rfl rfl ahead run run' prompt prompt'
  rwa [Nat.zero_add] at alike

end Runs

/-- Three events; the first insert writes nothing and is made again, and its commit fails. -/
def calm : Script where
  arrivals :=
    [{ delivery := .message threeTexts ⟨⟨"t", 0⟩, 0⟩ }, { delivery := .message threeTexts ⟨⟨"t", 0⟩, 1⟩ },
      { delivery := .message threeTexts ⟨⟨"t", 0⟩, 2⟩ }]
  inserts := [some 0]
  commits := [some "refused"]

/-- The same a second later, with all kinds of noise, up to where the last of the events is still held. -/
def noisy : Script where
  arrivals :=
    [{ delivery := .error "down" }, { delivery := .message threeTexts ⟨⟨"t", 0⟩, 0⟩ },
      { delivery := .message [] ⟨⟨"u", 3⟩, 9⟩ }, { delivery := .message threeTexts ⟨⟨"t", 0⟩, 1⟩ },
      { delivery := .message threeTexts ⟨⟨"t", 0⟩, 2⟩ }, { delivery := .timeout }]
  inserts := [some 0]
  commits := [some "refused"]
  instant := ⟨1, 0, by decide, by decide, Instant.epoch.nanos_lt⟩

def pairsTwice : BatchPolicy where
  maxSize := 2
  maxFlushes := 2

/-- The consumer at the end of its run. -/
def ended (script : Script) : Option (Consumer (Recorded Script)) :=
  (fresh pairsTwice { started := .epoch } script).runFor Script.ports.recorded (fun r => r.world.shutdown)
    (turnsFor pairsTwice (Script.left script).length)

theorem noise_transparent_refused :
    ∃ d d', ended calm = some d ∧ ended noisy = some d' ∧ Alike 2 d d' ∧
      (insertions d.world.calls).map Prod.snd = [0, 2, 1] ∧ d.metrics.errors = 1 := by
  have mixed : Mixed (calm.arrivals.map (·.delivery))
      [.error "down", .message [] ⟨⟨"u", 3⟩, 9⟩, .timeout] (noisy.arrivals.map (·.delivery)) :=
    .noise rfl (.keep _ (.noise (by decide +kernel) (.keep _ (.keep _ (.noise rfl .done)))))
  have fits : 0 < pairsTwice.maxSize := by decide
  have brings : Script.left calm = calm.arrivals.map (·.delivery) ++ [.timeout] := rfl
  have brings' : Script.left noisy = noisy.arrivals.map (·.delivery) ++ [.timeout] := rfl
  obtain ⟨⟨d, run⟩, ⟨d', run'⟩, alike⟩ := noise_transparent Script.ports_plays Script.ports_plays fits
    { started := .epoch } mixed .timeout brings brings' rfl
  have facts : (ended calm).map (fun d => (d.world.calls.all (Call.isWithin pairsTwice.maxAge),
      (insertions d.world.calls).map Prod.snd, d.metrics.errors)) = some (true, [0, 2, 1], 1) := by
    decide +kernel
  have facts' : (ended noisy).map (fun d => d.world.calls.all (Call.isWithin pairsTwice.maxAge)) = some true := by
    decide +kernel
  have first : ended calm = some d := run
  have second : ended noisy = some d' := run'
  rw [first, Option.map_some, Option.some.injEq, Prod.mk.injEq, Prod.mk.injEq] at facts
  rw [second, Option.map_some, Option.some.injEq] at facts'
  exact ⟨d, d', first, second, alike _ _ d d' run run' (.of_within facts.1) (.of_within facts'), facts.2⟩

end Consumer

end EventRelay
