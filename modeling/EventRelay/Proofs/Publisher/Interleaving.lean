import EventRelay.Publisher.Script
import Mathlib.Logic.Function.Basic

/-!
A publisher that is used by several callers at once. A call looks at the connection under a lock, and
a caller that has connected stores the outcome under the lock. It connects without holding the lock, and
sends, polls and flushes without it too, so that other callers come in between. Each operation of
`Publisher` is the run of a call to which this does not happen.
-/

namespace EventRelay

variable {ι σ : Type}

/-- What callers ask of a publisher. -/
inductive Use
  | publish (e : Envelope)
  | poll
  | flush
  | reset
  | askDown

/-- What callers are answered. -/
inductive Answer
  | published (id : Option String)
  | flushed (result : Except PublishError Unit)
  | down (isDown : Bool)
  | done

/-- How far a call has come. -/
inductive Stage
  | begun (use : Use)
  /-- The call has taken on the task of connecting. -/
  | claimed (e : Envelope)
  | connecting (e : Envelope)
  /-- The connect has come to an end, and nobody else knows how. -/
  | connected (e : Envelope) (result : Except PublishError Unit)
  | sending (e : Envelope)
  | copying (e : Envelope) (topic : String)
  | driving (answer : Answer)
  | flushing
  | answered (answer : Answer)

/-- What a caller does at once. Of these only `checks` and `stores` hold the lock. -/
inductive Act
  | calls (use : Use)
  | checks (use : Use)
  | enters
  | leaves (result : Except PublishError Unit)
  | stores (result : Except PublishError Unit)
  | sends (topic : String)
  | polls
  | flushes
  | answers (answer : Answer)

namespace Use

/-- One of the operations of a publisher. -/
def perform (io : PublisherPorts σ) (use : Use) (p : Publisher σ) : Answer × Publisher σ :=
  match use with
  | .publish e =>
    let (id, p) := p.publish io e
    (.published id, p)
  | .poll => (.done, p.poll io)
  | .flush =>
    let (result, p) := p.flush io
    (.flushed result, p)
  | .reset => (.done, p.reset)
  | .askDown => (.down p.isDown, p)

/-- The answer of a call that finds another one connecting. -/
def passed : Use → Answer
  | .publish _ => .published none
  | .flush => .flushed (.ok ())
  | .askDown => .down false
  | .poll => .done
  | .reset => .done

/-- What a call does while it first holds the lock: how it goes on, and the connection that it leaves. -/
def check (settings : PublisherSettings) (now : Moment) (connection : Connection) : Use → Stage × Connection
  | .publish e =>
    let (verdict, connection) := connection.claim settings.cooldown now
    (match verdict with
      | .send => .sending e
      | .skip => .answered (.published none)
      | .connect => .claimed e,
      connection)
  | .poll => (if connection = .ready then .driving .done else .answered .done, connection)
  | .flush => (if connection = .ready then .flushing else .answered (.flushed (.ok ())), connection)
  | .reset => (.answered .done, connection.reset)
  | .askDown => (.answered (.down connection.isDown), connection)

end Use

namespace Stage

/-- Between the claim and the store. -/
def between : Stage → Bool
  | .claimed _ => true
  | .connecting _ => true
  | .connected _ _ => true
  | _ => false

/-- Between the entry into a connect and the store. -/
def entered : Stage → Bool
  | .connecting _ => true
  | .connected _ _ => true
  | _ => false

/-- Holds a connection to the bus. -/
def holds : Stage → Bool
  | .sending _ => true
  | .copying _ _ => true
  | .driving _ => true
  | .flushing => true
  | _ => false

/-- How a call goes on after its connect. -/
def resumed (e : Envelope) : Except PublishError Unit → Stage
  | .ok () => .sending e
  | .error _ => .answered (.published none)

/-- How a call goes on after the send on the primary topic. -/
def sent (settings : PublisherSettings) (e : Envelope) : Except PublishError Unit → Stage
  | .ok () =>
    match settings.topicOfCategory e.eventCategory with
    | none => .driving (.published (some e.eventId))
    | some topic => .copying e topic
  | .error _ => .answered (.published none)

end Stage

/-- Acts that reach the bus over a connection. -/
def Act.touches : Act → Bool
  | .sends _ => true
  | .polls => true
  | .flushes => true
  | _ => false

/-- A call comes one stage further. A connect may end in any way, with the bus in any state. -/
inductive Advance (io : PublisherPorts σ) : Act → Stage → Publisher σ → Stage → Publisher σ → Prop
  | check (use : Use) (p : Publisher σ) :
      Advance io (.checks use) (.begun use) p (use.check p.settings (io.now p.bus) p.connection).1
        { p with connection := (use.check p.settings (io.now p.bus) p.connection).2 }
  | enter (e : Envelope) (p : Publisher σ) : Advance io .enters (.claimed e) p (.connecting e) p
  | leave (e : Envelope) (p : Publisher σ) (result : Except PublishError Unit) (bus : σ) :
      Advance io (.leaves result) (.connecting e) p (.connected e result) { p with bus }
  | store (e : Envelope) (p : Publisher σ) (result : Except PublishError Unit) :
      Advance io (.stores result) (.connected e result) p (.resumed e result)
        { p with connection := .settle (io.now p.bus) result }
  | send (e : Envelope) (p : Publisher σ) :
      Advance io (.sends p.settings.topic) (.sending e) p (.sent p.settings e (p.send io p.settings.topic e).1)
        (p.send io p.settings.topic e).2
  | copy (e : Envelope) (topic : String) (p : Publisher σ) :
      Advance io (.sends topic) (.copying e topic) p (.driving (.published (some e.eventId))) (p.send io topic e).2
  | poll (answer : Answer) (p : Publisher σ) :
      Advance io .polls (.driving answer) p (.answered answer) { p with bus := io.writer.poll p.bus }
  | flush (p : Publisher σ) :
      Advance io .flushes .flushing p (.answered (.flushed (io.writer.flush p.settings.flushWait p.bus).1))
        { p with bus := (io.writer.flush p.settings.flushWait p.bus).2 }

/-- A publisher with the calls that its callers have not finished, the innermost ones first. -/
structure SharedPublisher (ι σ : Type) where
  publisher : Publisher σ
  calls : ι → List Stage

namespace SharedPublisher

def fresh (settings : PublisherSettings) (bus : σ) : SharedPublisher ι σ where
  publisher := { settings, bus }
  calls _ := []

/-- A caller may call that has finished its calls, or that is in the hands of the connector. -/
def Free (s : SharedPublisher ι σ) (c : ι) : Prop :=
  s.calls c = [] ∨ ∃ e rest, s.calls c = .connecting e :: rest

/-- The caller is between its claim and its store. -/
def Between (s : SharedPublisher ι σ) (c : ι) : Prop :=
  ∃ stage ∈ s.calls c, stage.between = true

variable [DecidableEq ι]

def put (s : SharedPublisher ι σ) (c : ι) (stages : List Stage) (p : Publisher σ) : SharedPublisher ι σ where
  publisher := p
  calls := Function.update s.calls c stages

@[simp]
theorem put_publisher (s : SharedPublisher ι σ) (c : ι) (stages : List Stage) (p : Publisher σ) :
    (s.put c stages p).publisher = p := rfl

@[simp]
theorem put_calls_self (s : SharedPublisher ι σ) (c : ι) (stages : List Stage) (p : Publisher σ) :
    (s.put c stages p).calls c = stages := by
  simp [put]

theorem put_calls_of_ne (s : SharedPublisher ι σ) {c d : ι} (stages : List Stage) (p : Publisher σ) (other : d ≠ c) :
    (s.put c stages p).calls d = s.calls d := by
  simp [put, other]

@[simp]
theorem put_put (s : SharedPublisher ι σ) (c : ι) (stages stages' : List Stage) (p p' : Publisher σ) :
    (s.put c stages p).put c stages' p' = s.put c stages' p' := by
  simp [put]

theorem put_same (s : SharedPublisher ι σ) {c : ι} {stages : List Stage} (same : s.calls c = stages) (p : Publisher σ) :
    s.put c stages p = { s with publisher := p } := by
  simp [put, ← same]

end SharedPublisher

variable [DecidableEq ι]

/-- A caller does something. -/
inductive SharedStep (io : PublisherPorts σ) (s : SharedPublisher ι σ) : ι → Act → SharedPublisher ι σ → Prop
  | call {c : ι} (use : Use) : s.Free c → SharedStep io s c (.calls use) (s.put c (.begun use :: s.calls c) s.publisher)
  | advance {c : ι} {act : Act} {stage stage' : Stage} {rest : List Stage} {p : Publisher σ} :
      s.calls c = stage :: rest → Advance io act stage s.publisher stage' p →
      SharedStep io s c act (s.put c (stage' :: rest) p)
  | answer {c : ι} {answer : Answer} {rest : List Stage} : s.calls c = .answered answer :: rest →
      SharedStep io s c (.answers answer) (s.put c rest s.publisher)

/-- What callers do one after another, in any order. In between anything may happen to the bus. -/
inductive SharedRun (io : PublisherPorts σ) (start : SharedPublisher ι σ) :
    List (ι × Act) → SharedPublisher ι σ → Prop
  | start : SharedRun io start [] start
  | pause {trace s} (bus : σ) : SharedRun io start trace s →
      SharedRun io start trace { s with publisher := { s.publisher with bus } }
  | next {trace s c act t} : SharedRun io start trace s → SharedStep io s c act t →
      SharedRun io start (trace ++ [(c, act)]) t

namespace SharedRun

variable {io : PublisherPorts σ} {s t u : SharedPublisher ι σ} {trace more : List (ι × Act)}

theorem append (first : SharedRun io s trace t) (second : SharedRun io t more u) : SharedRun io s (trace ++ more) u := by
  induction second with
  | start => simpa using first
  | pause bus _ ih => exact .pause bus ih
  | next _ step ih =>
    rw [← List.append_assoc]
    exact .next ih step

end SharedRun

/-- A call comes some stages further, and no other caller in between. -/
inductive Advances (io : PublisherPorts σ) (stage : Stage) (p : Publisher σ) : List Act → Stage → Publisher σ → Prop
  | start : Advances io stage p [] stage p
  | next {acts stage' p' act stage'' p''} : Advances io stage p acts stage' p' → Advance io act stage' p' stage'' p'' →
      Advances io stage p (acts ++ [act]) stage'' p''

theorem SharedRun.of_advances {io : PublisherPorts σ} {s : SharedPublisher ι σ} {c : ι} {stage stage' : Stage}
    {rest : List Stage} {acts : List Act} {p : Publisher σ} (top : s.calls c = stage :: rest)
    (advances : Advances io stage s.publisher acts stage' p) :
    SharedRun io s (acts.map (c, ·)) (s.put c (stage' :: rest) p) := by
  induction advances with
  | start =>
    rw [s.put_same top]
    exact .start
  | @next acts stage' p' act stage'' p'' _ advance ih =>
    have more := ih.next (.advance (s.put_calls_self c _ _) advance)
    simpa using more

/-- Every call begins with a check. -/
theorem Advances.checked (io : PublisherPorts σ) (use : Use) (p : Publisher σ) :
    Advances io (.begun use) p [.checks use] (use.check p.settings (io.now p.bus) p.connection).1
      { p with connection := (use.check p.settings (io.now p.bus) p.connection).2 } :=
  .next .start (.check use p)

namespace Publisher

/-- A connector does no more with the publisher than a call that passes, and so leaves a connection that
is being made as it is. -/
def Passing (io : PublisherPorts σ) : Prop :=
  ∀ p, p.connection = .connecting → ∃ bus, (io.connect p).2 = { p with bus }

/-- How a publisher gets hold of the bus, stage by stage. -/
theorem acquire_advances {io : PublisherPorts σ} (passing : Passing io) (e : Envelope) (p : Publisher σ) :
    ∃ acts, Advances io (.begun (.publish e)) p acts
      (if (p.acquire io).1 then .sending e else .answered (.published none)) (p.acquire io).2 := by
  have checked := Advances.checked io (.publish e) p
  rcases claimed : p.connection.claim p.settings.cooldown (io.now p.bus) with ⟨verdict, connection⟩
  simp only [Use.check, claimed] at checked
  cases verdict with
  | send => exact ⟨_, by simpa [acquire, claimed] using checked⟩
  | skip => exact ⟨_, by simpa [acquire, claimed] using checked⟩
  | connect =>
    rcases found : io.connect { p with connection } with ⟨result, q⟩
    obtain ⟨bus, left⟩ := passing { p with connection } (Connection.claim_connect claimed)
    obtain rfl : q = { p with connection, bus } := by rw [← left, found]
    have stored := ((checked.next (.enter e _)).next (.leave e _ result bus)).next (.store e _ result)
    refine ⟨[.checks (.publish e), .enters, .leaves result, .stores result], ?_⟩
    cases result <;> simpa [acquire, claimed, found, Stage.resumed] using stored

theorem publish_advances {io : PublisherPorts σ} (passing : Passing io) (e : Envelope) (p : Publisher σ) :
    ∃ acts, Advances io (.begun (.publish e)) p acts (.answered (.published (p.publish io e).1)) (p.publish io e).2 := by
  obtain ⟨acts, acquired⟩ := acquire_advances passing e p
  rcases held : p.acquire io with ⟨_ | _, q⟩
  · exact ⟨acts, by simpa [publish, held] using acquired⟩
  simp only [held, if_true] at acquired
  have sent := acquired.next (.send e q)
  rcases primary : q.send io q.settings.topic e with ⟨_ | _, r⟩
  · exact ⟨_, by simpa [publish, held, primary, Stage.sent] using sent⟩
  have same : r.settings = q.settings := (congrArg (·.2.settings) primary).symm
  simp only [primary, Stage.sent] at sent
  cases routed : q.settings.topicOfCategory e.eventCategory with
  | none =>
    simp only [routed] at sent
    exact ⟨_, by simpa [publish, held, primary, same, routed] using sent.next (.poll _ r)⟩
  | some topic =>
    simp only [routed] at sent
    have copied := sent.next (.copy e topic r)
    exact ⟨_, by simpa [publish, held, primary, same, routed] using copied.next (.poll _ _)⟩

theorem poll_of_ne (io : PublisherPorts σ) {p : Publisher σ} (absent : p.connection ≠ .ready) : p.poll io = p := by
  unfold poll
  split
  · contradiction
  · rfl

theorem flush_of_ne (io : PublisherPorts σ) {p : Publisher σ} (absent : p.connection ≠ .ready) :
    p.flush io = (.ok (), p) := by
  unfold flush
  split
  · contradiction
  · rfl

end Publisher

/-- Each operation of a publisher takes a call from its beginning to its answer. -/
theorem Use.perform_advances {io : PublisherPorts σ} (passing : Publisher.Passing io) (use : Use) (p : Publisher σ) :
    ∃ acts, Advances io (.begun use) p acts (.answered (use.perform io p).1) (use.perform io p).2 := by
  have checked := Advances.checked io use p
  cases use with
  | publish e => exact Publisher.publish_advances passing e p
  | poll =>
    by_cases ready : p.connection = .ready
    · simp only [Use.check, ready, if_true] at checked
      exact ⟨_, by simpa [perform, Publisher.poll, ready] using checked.next (.poll _ _)⟩
    · simp only [Use.check, ready, if_false] at checked
      exact ⟨_, by simpa [perform, Publisher.poll_of_ne io ready] using checked⟩
  | flush =>
    by_cases ready : p.connection = .ready
    · simp only [Use.check, ready, if_true] at checked
      exact ⟨_, by simpa [perform, Publisher.flush, ready] using checked.next (.flush _)⟩
    · simp only [Use.check, ready, if_false] at checked
      exact ⟨_, by simpa [perform, Publisher.flush_of_ne io ready] using checked⟩
  | reset => exact ⟨_, checked⟩
  | askDown => exact ⟨_, checked⟩

/-- An operation during which no other caller does anything is a run that leaves what the operation leaves: the call
goes through its stages, and its last act is the answer. -/
theorem Use.perform_run {io : PublisherPorts σ} (passing : Publisher.Passing io) {s : SharedPublisher ι σ} {c : ι}
    (free : s.Free c) (use : Use) :
    ∃ acts, Advances io (.begun use) s.publisher acts (.answered (use.perform io s.publisher).1)
        (use.perform io s.publisher).2 ∧
      SharedRun io s ((Act.calls use :: acts ++ [Act.answers (use.perform io s.publisher).1]).map (c, ·))
        { s with publisher := (use.perform io s.publisher).2 } := by
  obtain ⟨acts, advances⟩ := use.perform_advances passing s.publisher
  let begun := s.put c (.begun use :: s.calls c) s.publisher
  have calling : SharedRun io s [(c, .calls use)] begun := .next .start (.call use free)
  have running : SharedRun io begun (acts.map (c, ·)) _ := .of_advances (s.put_calls_self c _ _) advances
  have answering := SharedRun.next running (.answer (begun.put_calls_self c _ _))
  refine ⟨acts, advances, ?_⟩
  simpa [begun, s.put_same] using calling.append answering

end EventRelay
