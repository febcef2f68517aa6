import EventRelay.Publisher.Script

/-!
What a publisher leaves on the bus. The records that the bus accepts are told by the answers that the
callers get: one on the primary topic for each identifier that is answered, and none without one.
Records on other topics are copies of these.
-/

namespace EventRelay

variable {σ : Type}

/-- The event as a record on a topic. -/
def Envelope.recordOn (e : Envelope) (topic : String) : BusRecord :=
  ⟨topic, e.partitionKey, e.encode⟩

/-- A bus with the records that were sent to it, in order, and whether it accepted them. -/
structure Sending (σ : Type) where
  world : σ
  sends : List (BusRecord × Bool) := []

/-- The records that were accepted. -/
def acceptedOf (sends : List (BusRecord × Bool)) : List BusRecord :=
  (sends.filter Prod.snd).map Prod.fst

/-- The same ports, keeping a record of what is sent. A connector finds the publisher that it is
called by, and all that it can change of it is the bus. -/
def PublisherPorts.recorded (io : PublisherPorts σ) : PublisherPorts (Sending σ) where
  connect p :=
    let (result, q) := io.connect ⟨p.settings, p.connection, p.bus.world⟩
    (result, { p with bus := { p.bus with world := q.bus } })
  writer :=
    { send := fun r b =>
        let (result, w) := io.writer.send r b.world
        (result, ⟨w, b.sends ++ [(r, result.isOk)]⟩)
      poll := fun b => { b with world := io.writer.poll b.world }
      flush := fun wait b =>
        let (result, w) := io.writer.flush wait b.world
        (result, { b with world := w }) }
  now b := io.now b.world

/-- A call that publishes: its event, its answer and what was sent in the course of it. -/
structure Publication where
  event : Envelope
  answer : Option String
  sends : List (BusRecord × Bool)

/-- All that can come of publishing an event on a bus to which there may be a connection: the answer,
what is sent, and the bus afterwards. -/
inductive Publishes (io : PublisherPorts σ) (settings : PublisherSettings) (e : Envelope) (w : σ) :
    Option String → List (BusRecord × Bool) → σ → Prop
  | missed : Publishes io settings e w none [] w
  | refused {error : PublishError} {w' : σ} :
      io.writer.send (e.recordOn settings.topic) w = (.error error, w') →
      Publishes io settings e w none [(e.recordOn settings.topic, false)] w'
  | alone {w' : σ} :
      io.writer.send (e.recordOn settings.topic) w = (.ok (), w') →
      settings.topicOfCategory e.eventCategory = none →
      Publishes io settings e w (some e.eventId) [(e.recordOn settings.topic, true)] (io.writer.poll w')
  | copied {topic : String} {result : Except PublishError Unit} {w₁ w₂ : σ} :
      io.writer.send (e.recordOn settings.topic) w = (.ok (), w₁) →
      settings.topicOfCategory e.eventCategory = some topic →
      io.writer.send (e.recordOn topic) w₁ = (result, w₂) →
      Publishes io settings e w (some e.eventId)
        [(e.recordOn settings.topic, true), (e.recordOn topic, result.isOk)] (io.writer.poll w₂)

namespace Publisher

def fresh (settings : PublisherSettings) (world : σ) : Publisher (Sending σ) where
  settings := settings
  bus := ⟨world, []⟩

/-- Getting hold of the bus may change it by a connect, and sends nothing. -/
theorem acquire_recorded (io : PublisherPorts σ) (p : Publisher (Sending σ)) :
    ∃ held connection w, p.acquire io.recorded = (held, { p with connection, bus := { p.bus with world := w } }) ∧
      (w = p.bus.world ∨ w = (io.connect ⟨p.settings, .connecting, p.bus.world⟩).2.bus) := by
  unfold acquire
  rcases claimed : p.connection.claim p.settings.cooldown (io.recorded.now p.bus) with ⟨verdict, connection⟩
  cases verdict with
  | send => exact ⟨_, _, _, rfl, .inl rfl⟩
  | skip => exact ⟨_, _, _, rfl, .inl rfl⟩
  | connect =>
    obtain rfl := Connection.claim_connect claimed
    exact ⟨_, _, _, rfl, .inr rfl⟩

theorem send_recorded {io : PublisherPorts σ} {topic : String} {e : Envelope} {p : Publisher (Sending σ)}
    {result : Except PublishError Unit} {w : σ} (sent : io.writer.send (e.recordOn topic) p.bus.world = (result, w)) :
    p.send io.recorded topic e =
      (result, { p with bus := ⟨w, p.bus.sends ++ [(e.recordOn topic, result.isOk)]⟩ }) := by
  rw [Envelope.recordOn] at sent
  simp [send, PublisherPorts.recorded, sent, Envelope.recordOn]

/-- What becomes of an event is what `Publishes` tells, on the bus as it was or as a connect has left it. -/
theorem publish_recorded (io : PublisherPorts σ) (e : Envelope) (p : Publisher (Sending σ)) :
    ∃ w sends connection w', (w = p.bus.world ∨ w = (io.connect ⟨p.settings, .connecting, p.bus.world⟩).2.bus) ∧
      Publishes io p.settings e w (p.publish io.recorded e).1 sends w' ∧
      (p.publish io.recorded e).2 = { p with connection, bus := ⟨w', p.bus.sends ++ sends⟩ } := by
  obtain ⟨held, connection, w, acquired, found⟩ := acquire_recorded io p
  unfold publish
  rw [acquired]
  cases held with
  | false => exact ⟨w, [], connection, w, found, .missed, by simp⟩
  | true =>
    dsimp only
    rcases primary : io.writer.send (e.recordOn p.settings.topic) w with ⟨result, w₁⟩
    rw [send_recorded primary]
    cases result with
    | error error => exact ⟨w, _, connection, w₁, found, .refused primary, rfl⟩
    | ok _ =>
      dsimp only
      cases routed : p.settings.topicOfCategory e.eventCategory with
      | none => exact ⟨w, _, connection, _, found, .alone primary routed, rfl⟩
      | some topic =>
        dsimp only
        rcases copy : io.writer.send (e.recordOn topic) w₁ with ⟨result, w₂⟩
        rw [send_recorded copy]
        refine ⟨w, _, connection, _, found, .copied primary routed copy, ?_⟩
        simp [PublisherPorts.recorded, Except.isOk, Except.toBool]

/-- The call that publishes an event: what it answers, and what the bus was sent in the course of it. -/
def publication (io : PublisherPorts σ) (e : Envelope) (p : Publisher (Sending σ)) : Publication :=
  let (answer, q) := p.publish io.recorded e
  ⟨e, answer, q.bus.sends.drop p.bus.sends.length⟩

theorem publication_publishes (io : PublisherPorts σ) (e : Envelope) (p : Publisher (Sending σ)) :
    ∃ w connection w', (w = p.bus.world ∨ w = (io.connect ⟨p.settings, .connecting, p.bus.world⟩).2.bus) ∧
      Publishes io p.settings e w (p.publication io e).answer (p.publication io e).sends w' ∧
      (p.publish io.recorded e).2 = { p with connection, bus := ⟨w', p.bus.sends ++ (p.publication io e).sends⟩ } := by
  obtain ⟨w, sends, connection, w', found, publishes, left⟩ := publish_recorded io e p
  have same : (p.publication io e).sends = sends := by simp [publication, left]
  exact ⟨w, connection, w', found, same.symm ▸ publishes, same.symm ▸ left⟩

end Publisher

/-- The states of a publisher after calls, and what came of those that published. Between calls the
bus may change in the ways that are allowed. -/
inductive PublisherRun (io : PublisherPorts σ) (allowed : σ → σ → Prop) (start : Publisher (Sending σ)) :
    List Publication → Publisher (Sending σ) → Prop
  | start : PublisherRun io allowed start [] start
  | pause {log p w} : PublisherRun io allowed start log p → allowed p.bus.world w →
      PublisherRun io allowed start log { p with bus := { p.bus with world := w } }
  | publish {log p} (e : Envelope) : PublisherRun io allowed start log p →
      PublisherRun io allowed start (log ++ [p.publication io e]) (p.publish io.recorded e).2
  | poll {log p} : PublisherRun io allowed start log p → PublisherRun io allowed start log (p.poll io.recorded)
  | flush {log p} : PublisherRun io allowed start log p →
      PublisherRun io allowed start log (p.flush io.recorded).2
  | reset {log p} : PublisherRun io allowed start log p → PublisherRun io allowed start log p.reset

theorem acceptedOf_append (sends more : List (BusRecord × Bool)) :
    acceptedOf (sends ++ more) = acceptedOf sends ++ acceptedOf more := by
  simp [acceptedOf]

theorem acceptedOf_flatMap (log : List Publication) :
    acceptedOf (log.flatMap (·.sends)) = log.flatMap fun c => acceptedOf c.sends := by
  induction log with
  | nil => rfl
  | cons c log ih => rw [List.flatMap_cons, List.flatMap_cons, acceptedOf_append, ih]

/-- A call contributes a record or none, and so the records are those of the calls that contribute. -/
theorem flatMap_eq_map_filter {log : List Publication} {part : Publication → List BusRecord}
    {chosen : Publication → Bool} {record : Publication → BusRecord}
    (each : ∀ c ∈ log, part c = if chosen c then [record c] else []) :
    log.flatMap part = (log.filter chosen).map record := by
  induction log with
  | nil => rfl
  | cons c log ih =>
    obtain ⟨first, rest⟩ := List.forall_mem_cons.mp each
    rw [List.flatMap_cons, first, ih rest]
    cases found : chosen c <;> simp [found]

theorem PublisherSettings.topicOfCategory_ne {settings : PublisherSettings} {category topic : String}
    (routed : settings.topicOfCategory category = some topic) : topic ≠ settings.topic := by
  simp only [topicOfCategory] at routed
  split at routed
  · cases routed
  split at routed
  · cases routed
  · cases routed
    assumption

namespace Publishes

variable {io : PublisherPorts σ} {settings : PublisherSettings} {e : Envelope} {w w' : σ} {answer : Option String}
  {sends : List (BusRecord × Bool)}

theorem primary (publishes : Publishes io settings e w answer sends w') :
    (acceptedOf sends).filter (·.topic = settings.topic) =
      if answer.isSome then [e.recordOn settings.topic] else [] := by
  cases publishes with
  | missed => rfl
  | refused => rfl
  | alone => simp [acceptedOf, Envelope.recordOn]
  | @copied topic result _ _ _ routed =>
    have other := PublisherSettings.topicOfCategory_ne routed
    cases result <;> simp [acceptedOf, Envelope.recordOn, Except.isOk, Except.toBool, other]

theorem answer_eq (publishes : Publishes io settings e w answer sends w') {id : String} (answered : answer = some id) :
    id = e.eventId := by
  cases publishes with
  | missed => cases answered
  | refused => cases answered
  | alone => exact (Option.some.inj answered).symm
  | copied => exact (Option.some.inj answered).symm

theorem unanswered (publishes : Publishes io settings e w answer sends w') (none : answer = none) :
    acceptedOf sends = [] := by
  cases publishes with
  | missed => rfl
  | refused => rfl
  | alone => cases none
  | copied => cases none

/-- A record on another topic comes after the one on the primary topic that it is a copy of. -/
theorem copy (publishes : Publishes io settings e w answer sends w') {r : BusRecord} (member : r ∈ acceptedOf sends)
    (other : r.topic ≠ settings.topic) :
    settings.topicOfCategory e.eventCategory = some r.topic ∧
      acceptedOf sends = [e.recordOn settings.topic, e.recordOn r.topic] := by
  cases publishes with
  | missed => cases member
  | refused => cases member
  | alone =>
    obtain rfl := List.mem_singleton.mp member
    exact absurd rfl other
  | @copied topic result _ _ _ routed =>
    cases result with
    | error _ =>
      obtain rfl := List.mem_singleton.mp member
      exact absurd rfl other
    | ok _ =>
      have pair : r = e.recordOn settings.topic ∨ r = e.recordOn topic := by
        simpa [acceptedOf, Except.isOk, Except.toBool] using member
      rcases pair with rfl | rfl
      · exact absurd rfl other
      · exact ⟨routed, rfl⟩

/-- Unless the copy is refused, it is there whenever there is an answer and a topic for it. -/
theorem carried (publishes : Publishes io settings e w answer sends w') {topic : String}
    (other : topic ≠ settings.topic) (taken : ∀ s ∈ sends, s.1.topic ≠ settings.topic → s.2 = true) :
    (acceptedOf sends).filter (·.topic = topic) =
      if answer.isSome ∧ settings.topicOfCategory e.eventCategory = some topic then [e.recordOn topic] else [] := by
  cases publishes with
  | missed => rfl
  | refused => rfl
  | alone _ routed => simp [acceptedOf, Envelope.recordOn, routed, other.symm]
  | @copied topic' result _ _ _ routed =>
    have accepted : result.isOk = true :=
      taken (e.recordOn topic', result.isOk) (by simp) (PublisherSettings.topicOfCategory_ne routed)
    by_cases same : topic' = topic
    · simp [acceptedOf, accepted, routed, same, Envelope.recordOn, other.symm]
    · simp [acceptedOf, accepted, routed, same, Envelope.recordOn, other.symm]

end Publishes

/-- What the bus was sent is told by the calls that published: it accepted one record on the primary
topic for each answer, with the identifier of the event, and none for a call without an answer. A
record on another topic is a copy of one on the primary topic that the same call sent before it. -/
structure Agrees (settings : PublisherSettings) (log : List Publication) (sends : List (BusRecord × Bool)) : Prop where
  whole : sends = log.flatMap (·.sends)
  primary : (acceptedOf sends).filter (·.topic = settings.topic) =
    (log.filter (·.answer.isSome)).map fun c => c.event.recordOn settings.topic
  answers : ∀ c ∈ log, ∀ id, c.answer = some id → id = c.event.eventId
  unanswered : ∀ c ∈ log, c.answer = none → acceptedOf c.sends = []
  copies : ∀ c ∈ log, ∀ r ∈ acceptedOf c.sends, r.topic ≠ settings.topic →
    settings.topicOfCategory c.event.eventCategory = some r.topic ∧
      acceptedOf c.sends = [c.event.recordOn settings.topic, c.event.recordOn r.topic]
  /-- Copies are complete unless one of them is refused. -/
  carried : (∀ s ∈ sends, s.1.topic ≠ settings.topic → s.2 = true) → ∀ topic, topic ≠ settings.topic →
    (acceptedOf sends).filter (·.topic = topic) =
      ((log.filter (·.answer.isSome)).filter fun c =>
        settings.topicOfCategory c.event.eventCategory = some topic).map fun c => c.event.recordOn topic

/-- Polls send nothing of their own. -/
theorem Publisher.poll_recorded (io : PublisherPorts σ) (p : Publisher (Sending σ)) :
    p.poll io.recorded = p ∨
      p.poll io.recorded = { p with bus := { p.bus with world := io.writer.poll p.bus.world } } := by
  unfold poll
  split
  · exact .inr rfl
  · exact .inl rfl

theorem Publisher.flush_recorded (io : PublisherPorts σ) (p : Publisher (Sending σ)) :
    (p.flush io.recorded).2 = p ∨
      (p.flush io.recorded).2 =
        { p with bus := { p.bus with world := (io.writer.flush p.settings.flushWait p.bus.world).2 } } := by
  unfold flush
  split
  · exact .inr rfl
  · exact .inl rfl

namespace PublisherRun

variable {io : PublisherPorts σ} {allowed : σ → σ → Prop} {start p : Publisher (Sending σ)} {log : List Publication}

/-- What holds of the settings, the calls and the sends after any run, and of the bus in between. -/
theorem preserves {P : List Publication → Publisher (Sending σ) → Prop} (run : PublisherRun io allowed start log p)
    (paused : ∀ {log p w}, allowed p.bus.world w → P log p → P log { p with bus := { p.bus with world := w } })
    (polled : ∀ {log p}, P log p → P log { p with bus := { p.bus with world := io.writer.poll p.bus.world } })
    (flushed : ∀ {log p}, P log p →
      P log { p with bus := { p.bus with world := (io.writer.flush p.settings.flushWait p.bus.world).2 } })
    (published : ∀ {log p e answer w connection sends w'},
      (w = p.bus.world ∨ w = (io.connect ⟨p.settings, .connecting, p.bus.world⟩).2.bus) →
      Publishes io p.settings e w answer sends w' → P log p →
      P (log ++ [⟨e, answer, sends⟩]) { p with connection, bus := ⟨w', p.bus.sends ++ sends⟩ })
    (forgot : ∀ {log p}, P log p → P log p.reset) (begun : P [] start) : P log p := by
  induction run with
  | start => exact begun
  | pause _ change ih => exact paused change ih
  | @publish log p e _ ih =>
    obtain ⟨w, connection, w', found, publishes, left⟩ := p.publication_publishes io e
    rw [left]
    exact published found publishes ih
  | @poll log p _ ih =>
    rcases p.poll_recorded io with same | same <;> rw [same]
    · exact ih
    · exact polled ih
  | @flush log p _ ih =>
    rcases p.flush_recorded io with same | same <;> rw [same]
    · exact ih
    · exact flushed ih
  | reset _ ih => exact forgot ih

theorem told (run : PublisherRun io allowed start log p) :
    p.settings = start.settings ∧ p.bus.sends = start.bus.sends ++ log.flatMap (·.sends) ∧
      ∀ c ∈ log, ∃ w w', Publishes io start.settings c.event w c.answer c.sends w' := by
  refine run.preserves (P := fun log p => p.settings = start.settings ∧
    p.bus.sends = start.bus.sends ++ log.flatMap (·.sends) ∧
      ∀ c ∈ log, ∃ w w', Publishes io start.settings c.event w c.answer c.sends w')
    (fun _ told => told) (fun told => told) (fun told => told) ?_ (fun told => told) (by simp)
  rintro log p e answer w connection sends w' _ publishes ⟨settings, whole, each⟩
  refine ⟨settings, by simp [whole], fun c member => ?_⟩
  rcases List.mem_append.mp member with old | new
  · exact each c old
  · obtain rfl := List.mem_singleton.mp new
    exact ⟨w, w', settings ▸ publishes⟩

theorem agrees {settings : PublisherSettings} {world : σ}
    (run : PublisherRun io allowed (.fresh settings world) log p) : Agrees settings log p.bus.sends := by
  have whole : p.bus.sends = log.flatMap (·.sends) := run.told.2.1
  have each : ∀ c ∈ log, ∃ w w', Publishes io settings c.event w c.answer c.sends w' := run.told.2.2
  have accepted : acceptedOf p.bus.sends = log.flatMap fun c => acceptedOf c.sends := by
    rw [whole, acceptedOf_flatMap]
  refine ⟨whole, ?_, ?_, ?_, ?_, ?_⟩
  · rw [accepted, List.filter_flatMap]
    refine flatMap_eq_map_filter fun c member => ?_
    obtain ⟨_, _, publishes⟩ := each c member
    exact publishes.primary
  · intro c member id answered
    obtain ⟨_, _, publishes⟩ := each c member
    exact publishes.answer_eq answered
  · intro c member none
    obtain ⟨_, _, publishes⟩ := each c member
    exact publishes.unanswered none
  · intro c member r sent other
    obtain ⟨_, _, publishes⟩ := each c member
    exact publishes.copy sent other
  · intro taken topic other
    rw [accepted, List.filter_flatMap, List.filter_filter]
    refine flatMap_eq_map_filter fun c member => ?_
    obtain ⟨_, _, publishes⟩ := each c member
    have mine : ∀ s ∈ c.sends, s.1.topic ≠ settings.topic → s.2 = true :=
      fun s sent => taken s (whole ▸ List.mem_flatMap.mpr ⟨c, member, sent⟩)
    simpa [and_comm] using publishes.carried other mine

end PublisherRun

namespace LocalBus

/-- The bus is taken offline or brought back. -/
def Switched (before after : LocalBus) : Prop :=
  ∃ available, after = { before with available }

theorem publishes_records {settings : PublisherSettings} {e : Envelope} {w w' : LocalBus} {answer : Option String}
    {sends : List (BusRecord × Bool)} (publishes : Publishes ports settings e w answer sends w') :
    w'.records = w.records ++ acceptedOf sends ∧ ∀ s ∈ sends, s.1.topic ≠ settings.topic → s.2 = true := by
  have accepts {r : BusRecord} {b b' : LocalBus} (sent : send r b = (.ok (), b')) :
      b.available = true ∧ b' = { b with records := b.records ++ [r] } := by
    unfold send at sent
    split at sent
    · cases sent
      exact ⟨‹_›, rfl⟩
    · cases sent
  cases publishes with
  | missed => simp [acceptedOf]
  | refused sent =>
    simp only [ports, writer, send] at sent
    split at sent
    · cases sent
    · cases sent
      simp [acceptedOf, Envelope.recordOn]
  | alone sent _ =>
    obtain ⟨_, rfl⟩ := accepts sent
    simp [acceptedOf, ports, writer]
  | copied sent routed copy =>
    obtain ⟨available, rfl⟩ := accepts sent
    simp only [ports, writer, send, available, if_true, Prod.mk.injEq] at copy
    obtain ⟨rfl, rfl⟩ := copy
    simp [acceptedOf, ports, writer, Except.isOk, Except.toBool]

theorem run_records {settings : PublisherSettings} {log : List Publication} {p : Publisher (Sending LocalBus)}
    (run : PublisherRun ports Switched (.fresh settings {}) log p) :
    p.bus.world.records = acceptedOf p.bus.sends ∧
      ∀ s ∈ p.bus.sends, s.1.topic ≠ settings.topic → s.2 = true := by
  have kept : p.settings = settings ∧ p.bus.world.records = acceptedOf p.bus.sends ∧
      ∀ s ∈ p.bus.sends, s.1.topic ≠ settings.topic → s.2 = true := by
    refine run.preserves (P := fun _ (p : Publisher (Sending LocalBus)) => p.settings = settings ∧
      p.bus.world.records = acceptedOf p.bus.sends ∧ ∀ s ∈ p.bus.sends, s.1.topic ≠ settings.topic → s.2 = true)
      ?_ (fun kept => kept) (fun kept => kept) ?_ (fun kept => kept) (by simp [Publisher.fresh, acceptedOf])
    · rintro log p w ⟨available, rfl⟩ kept
      exact kept
    · rintro log p e answer w connection sends w' found publishes ⟨rfl, records, taken⟩
      obtain ⟨added, more⟩ := publishes_records publishes
      have before : w.records = p.bus.world.records := by rcases found with rfl | rfl <;> rfl
      refine ⟨rfl, by rw [added, before, records, acceptedOf_append], fun s member => ?_⟩
      rcases List.mem_append.mp member with old | new
      · exact taken s old
      · exact more s new
  exact kept.2

end LocalBus

/-- Whatever connects and sends come to, and whatever happens to the bus between calls, its records
agree with the answers of the calls that published. A bus in memory, which accepts all that is sent
in the course of a call or nothing, has all copies, and no records but those. -/
theorem PublisherRun.bus_agrees :
    (∀ {σ : Type} {io : PublisherPorts σ} {allowed : σ → σ → Prop} {settings : PublisherSettings} {world : σ}
        {log : List Publication} {p : Publisher (Sending σ)},
      PublisherRun io allowed (.fresh settings world) log p → Agrees settings log p.bus.sends) ∧
    ∀ {settings : PublisherSettings} {log : List Publication} {p : Publisher (Sending LocalBus)},
      PublisherRun LocalBus.ports LocalBus.Switched (.fresh settings {}) log p →
        p.bus.world.records = acceptedOf p.bus.sends ∧
        ∀ topic, topic ≠ settings.topic → p.bus.world.recordsOn topic =
          ((log.filter (·.answer.isSome)).filter fun c =>
            settings.topicOfCategory c.event.eventCategory = some topic).map fun c => c.event.recordOn topic := by
  refine ⟨fun run => run.agrees, fun run => ?_⟩
  obtain ⟨records, taken⟩ := LocalBus.run_records run
  refine ⟨records, fun topic other => ?_⟩
  rw [LocalBus.recordsOn, records]
  exact run.agrees.carried taken topic other

def numbered (n : String) (category : String) : Envelope :=
  .ofFields fun
    | .eventId => n
    | .eventCategory => category
    | .orgId => "org"
    | _ => ""

/-- The first connect fails, the second one after the connector has used the publisher itself. The
first copy is refused, and so is the third event. -/
def capricious : ScriptedBus where
  connects := [{ outcome := some .notConfigured }, { reenters := true }]
  sends := [none, some (.kafka "full"), some (.kafka "full")]

/-- Four events, the connection forgotten after the first. -/
def troubled : List Publication × Publisher (Sending ScriptedBus) :=
  let io := ScriptedBus.ports
  let p := Publisher.fresh {} capricious
  let q := (p.publish io.recorded (numbered "1" "access")).2.reset
  let r := (q.publish io.recorded (numbered "2" "access")).2
  let s := (r.publish io.recorded (numbered "3" "access")).2
  ([p.publication io (numbered "1" "access"), q.publication io (numbered "2" "access"),
    r.publication io (numbered "3" "access"), s.publication io (numbered "4" " Access\n")],
    (s.publish io.recorded (numbered "4" " Access\n")).2)

/-- Three events, the bus offline for the second. -/
def switched : List Publication × Publisher (Sending LocalBus) :=
  let io := LocalBus.ports
  let p := Publisher.fresh {} {}
  let q := (p.publish io.recorded (numbered "1" "ACCESS")).2
  let offline := { q with bus := { q.bus with world := { q.bus.world with available := false } } }
  let r := (offline.publish io.recorded (numbered "2" "access")).2
  let online := { r with bus := { r.bus with world := { r.bus.world with available := true } } }
  ([p.publication io (numbered "1" "ACCESS"), offline.publication io (numbered "2" "access"),
    online.publication io (numbered "3" "policy")], (online.publish io.recorded (numbered "3" "policy")).2)

theorem bus_agrees_troubled :
    Agrees {} troubled.1 troubled.2.bus.sends ∧
      troubled.1.map (·.answer) = [none, some "2", none, some "4"] ∧
      (acceptedOf troubled.2.bus.sends).map (·.topic) =
        ["governance.events", "governance.events", "governance.events.access"] ∧
      switched.1.map (·.answer) = [some "1", none, some "3"] ∧
      switched.2.bus.world.recordsOn "governance.events.access" =
        [(numbered "1" "ACCESS").recordOn "governance.events.access"] := by
  have first : PublisherRun ScriptedBus.ports (fun _ _ => True) (.fresh {} capricious) troubled.1 troubled.2 :=
    .publish _ (.publish _ (.publish _ (.reset (.publish _ .start))))
  have second : PublisherRun LocalBus.ports LocalBus.Switched (.fresh {} {}) switched.1 switched.2 :=
    .publish _ (.pause (.publish _ (.pause (.publish _ .start) ⟨false, rfl⟩)) ⟨true, rfl⟩)
  refine ⟨PublisherRun.bus_agrees.1 first, by decide +kernel, by decide +kernel, by decide +kernel, ?_⟩
  rw [(PublisherRun.bus_agrees.2 second).2 _ (by decide)]
  decide +kernel

end EventRelay
