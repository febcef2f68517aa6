import EventRelay.Proofs.Publisher.Interleaving
import Mathlib.Data.List.Induction

/-!
When a publisher connects. A connect that fails is not repeated before the cooldown has passed, unless the
failure is forgotten; one that succeeds is never repeated. What a publisher knows of its connection is told
by the calls that were made of it.
-/

namespace EventRelay

variable {σ : Type}

/-- What reaches the bus: a connect, and whether it succeeds, or what is done over a connection. -/
inductive Touch
  | connect (succeeds : Bool)
  | send (topic : String)
  | poll
  | flush
  deriving DecidableEq

/-- A bus with what has reached it, in order. -/
structure Touched (σ : Type) where
  world : σ
  touches : List Touch := []

/-- The same ports, keeping a record of what reaches the bus. A connector finds the publisher that it is called
by, and all that it can change of it is the bus. -/
def PublisherPorts.traced (io : PublisherPorts σ) : PublisherPorts (Touched σ) where
  connect p :=
    let (result, q) := io.connect ⟨p.settings, p.connection, p.bus.world⟩
    (result, { p with bus := ⟨q.bus, p.bus.touches ++ [.connect result.isOk]⟩ })
  writer :=
    { send := fun r b =>
        let (result, w) := io.writer.send r b.world
        (result, ⟨w, b.touches ++ [.send r.topic]⟩)
      poll := fun b => ⟨io.writer.poll b.world, b.touches ++ [.poll]⟩
      flush := fun wait b =>
        let (result, w) := io.writer.flush wait b.world
        (result, ⟨w, b.touches ++ [.flush]⟩) }
  now b := io.now b.world

/-- One use of a publisher: when it begins and ends, its answer, and what reaches the bus in the course of it. -/
structure Usage where
  use : Use
  begun : Moment
  ended : Moment
  answer : Answer
  touches : List Touch

/-- The connects among what reaches the bus, as whether they succeed. -/
def Usage.connects (u : Usage) : List Bool :=
  u.touches.filterMap fun
    | .connect succeeds => some succeeds
    | _ => none

def Publisher.usage (io : PublisherPorts σ) (use : Use) (p : Publisher (Touched σ)) : Usage :=
  let (answer, q) := use.perform io.traced p
  ⟨use, io.now p.bus.world, io.now q.bus.world, answer, q.bus.touches.drop p.bus.touches.length⟩

/-- A publisher that was not used yet. -/
def Publisher.unused (settings : PublisherSettings) (world : σ) : Publisher (Touched σ) where
  settings := settings
  bus := ⟨world, []⟩

/-- The states of a publisher after uses, one after the other. Between them the bus may change in any way, and
with it the time. -/
inductive UsageRun (io : PublisherPorts σ) (start : Publisher (Touched σ)) :
    List Usage → Publisher (Touched σ) → Prop
  | start : UsageRun io start [] start
  | pause {log p} (w : σ) : UsageRun io start log p →
      UsageRun io start log { p with bus := { p.bus with world := w } }
  | use {log p} (use : Use) : UsageRun io start log p →
      UsageRun io start (log ++ [p.usage io use]) (use.perform io.traced p).2

/-- The clock never runs backwards, neither in the course of a use nor between uses. -/
structure InOrder (log : List Usage) : Prop where
  lasts : ∀ u ∈ log, u.begun.nanos ≤ u.ended.nanos
  follows : log.Pairwise fun u v => u.ended.nanos ≤ v.begun.nanos

namespace Connection

variable {cooldown : Span} {now : Moment}

/-- Whether a publish at a moment connects. -/
def Vacant (cooldown : Span) (now : Moment) (c : Connection) : Prop :=
  c = .idle ∨ ∃ moment reason, c = .failed moment reason ∧ cooldown.toNanos ≤ now.since moment

theorem Vacant.ne_ready {c : Connection} (vacant : c.Vacant cooldown now) : c ≠ .ready := by
  rcases vacant with rfl | ⟨_, _, rfl, _⟩ <;> exact nofun

theorem Vacant.late {moment : Moment} {reason : PublishError} (vacant : (failed moment reason).Vacant cooldown now) :
    cooldown.toNanos ≤ now.since moment := by
  rcases vacant with other | ⟨_, _, same, late⟩
  · cases other
  · cases same
    exact late

theorem claim_vacant {c : Connection} (vacant : c.Vacant cooldown now) :
    c.claim cooldown now = (.connect, .connecting) := by
  rcases vacant with rfl | ⟨moment, reason, rfl, late⟩
  · rfl
  · rw [claim, if_neg (Nat.not_lt.mpr late)]

theorem claim_early {moment : Moment} (early : now.since moment < cooldown.toNanos) (reason : PublishError) :
    (failed moment reason).claim cooldown now = (.skip, .failed moment reason) := by
  rw [claim, if_pos early]

end Connection

namespace Publisher

variable {io : PublisherPorts σ} {p q : Publisher (Touched σ)}

/-- A publisher that may connect does so. What it keeps is the outcome, with the time at which it was known. -/
theorem acquire_vacant (vacant : p.connection.Vacant p.settings.cooldown (io.now p.bus.world)) :
    ∃ result w, p.acquire io.traced = (result.isOk, { p with
      connection := .settle (io.now w) result, bus := ⟨w, p.bus.touches ++ [.connect result.isOk]⟩ }) := by
  have claimed : p.connection.claim p.settings.cooldown (io.traced.now p.bus) = (.connect, .connecting) :=
    Connection.claim_vacant vacant
  rcases connected : io.connect ⟨p.settings, .connecting, p.bus.world⟩ with ⟨result, q⟩
  have traced : io.traced.connect { p with connection := .connecting } = (result,
      { p with connection := .connecting, bus := ⟨q.bus, p.bus.touches ++ [.connect result.isOk]⟩ }) := by
    simp only [PublisherPorts.traced, connected]
  refine ⟨result, q.bus, ?_⟩
  simp only [acquire, claimed, traced]
  cases result <;> rfl

theorem acquire_ready (io : PublisherPorts σ) (ready : p.connection = .ready) : p.acquire io.traced = (true, p) := by
  obtain ⟨settings, connection, bus⟩ := p
  obtain rfl : connection = .ready := ready
  rfl

theorem acquire_early {moment : Moment} {reason : PublishError} (failed : p.connection = .failed moment reason)
    (early : (io.now p.bus.world).since moment < p.settings.cooldown.toNanos) :
    p.acquire io.traced = (false, p) := by
  have claimed : p.connection.claim p.settings.cooldown (io.traced.now p.bus) = (.skip, p.connection) := by
    rw [failed]
    exact Connection.claim_early early reason
  rw [acquire, claimed]

theorem publish_missed (missed : p.acquire io.traced = (false, q)) (e : Envelope) :
    p.publish io.traced e = (none, q) := by
  rw [publish, missed]

theorem send_traced (io : PublisherPorts σ) (topic : String) (e : Envelope) (p : Publisher (Touched σ)) :
    ∃ result w, p.send io.traced topic e = (result, { p with bus := ⟨w, p.bus.touches ++ [.send topic]⟩ }) :=
  ⟨_, _, rfl⟩

/-- Once there is a connection, an event is sent over it and nothing connects. -/
theorem publish_acquired (acquired : p.acquire io.traced = (true, q)) (e : Envelope) :
    ∃ answer w touches, p.publish io.traced e = (answer, { q with bus := ⟨w, q.bus.touches ++ touches⟩ }) ∧
      ∀ succeeds, .connect succeeds ∉ touches := by
  obtain ⟨result, w, sent⟩ := send_traced io q.settings.topic e q
  rw [publish, acquired]
  dsimp only
  rw [sent]
  cases result with
  | error _ => exact ⟨none, w, _, rfl, by simp⟩
  | ok _ =>
    dsimp only
    cases q.settings.topicOfCategory e.eventCategory with
    | none =>
      refine ⟨some e.eventId, io.writer.poll w, [.send q.settings.topic, .poll], ?_, by simp⟩
      simp [PublisherPorts.traced]
    | some topic =>
      obtain ⟨result, w', copied⟩ :=
        send_traced io topic e { q with bus := ⟨w, q.bus.touches ++ [.send q.settings.topic]⟩ }
      dsimp only
      rw [copied]
      refine ⟨some e.eventId, io.writer.poll w', [.send q.settings.topic, .send topic, .poll], ?_, by simp⟩
      simp [PublisherPorts.traced]

end Publisher

namespace Usage

/-- What a use makes of the connection, for what reason, and what reaches the bus meanwhile. -/
inductive Turns (cooldown : Span) (u : Usage) : Connection → Connection → Prop
  | connect {e : Envelope} {c : Connection} : u.use = .publish e → c.Vacant cooldown u.begun → u.connects = [true] →
      u.Turns cooldown c .ready
  | refuse {e : Envelope} {c : Connection} {reason : PublishError} : u.use = .publish e →
      c.Vacant cooldown u.begun → u.connects = [false] → u.Turns cooldown c (.failed u.ended reason)
  | skip {e : Envelope} {moment : Moment} {reason : PublishError} : u.use = .publish e →
      u.begun.since moment < cooldown.toNanos → u.touches = [] → u.answer = .published none →
      u.Turns cooldown (.failed moment reason) (.failed moment reason)
  | carry : u.use ≠ .reset → u.use ≠ .askDown → u.connects = [] → u.Turns cooldown .ready .ready
  | rest {c : Connection} : u.use = .poll ∨ u.use = .flush → u.touches = [] → c ≠ .ready → u.Turns cooldown c c
  | ask {c : Connection} : u.use = .askDown → u.touches = [] → u.answer = .down c.isDown → u.Turns cooldown c c
  | forget {c : Connection} : u.use = .reset → u.touches = [] → u.Turns cooldown c c.reset

theorem connects_nil {u : Usage} (untouched : u.touches = []) : u.connects = [] := by
  rw [connects, untouched, List.filterMap_nil]

namespace Turns

variable {cooldown : Span} {u : Usage} {c c' : Connection}

theorem publishes (turns : u.Turns cooldown c c') (connects : u.connects ≠ []) : ∃ e, u.use = .publish e := by
  cases turns with
  | connect publishes => exact ⟨_, publishes⟩
  | refuse publishes => exact ⟨_, publishes⟩
  | skip publishes => exact ⟨_, publishes⟩
  | carry _ _ still => exact absurd still connects
  | rest _ untouched => exact absurd (connects_nil untouched) connects
  | ask _ untouched => exact absurd (connects_nil untouched) connects
  | forget _ untouched => exact absurd (connects_nil untouched) connects

theorem of_vacant (turns : u.Turns cooldown c c') (vacant : c.Vacant cooldown u.begun) {e : Envelope}
    (publishes : u.use = .publish e) : u.connects.length = 1 := by
  cases turns with
  | connect _ _ connects => rw [connects, List.length_singleton]
  | refuse _ _ connects => rw [connects, List.length_singleton]
  | skip _ early => exact absurd early (Nat.not_lt.mpr vacant.late)
  | carry => exact absurd rfl vacant.ne_ready
  | rest other => rcases other with other | other <;> simp [publishes] at other
  | ask other => simp [publishes] at other
  | forget other => simp [publishes] at other

theorem of_ready (turns : u.Turns cooldown .ready c') : u.connects = [] := by
  cases turns with
  | connect _ vacant => exact absurd rfl vacant.ne_ready
  | refuse _ vacant => exact absurd rfl vacant.ne_ready
  | carry _ _ still => exact still
  | rest _ _ other => exact absurd rfl other
  | ask _ untouched => exact connects_nil untouched
  | forget _ untouched => exact connects_nil untouched

theorem of_early {moment : Moment} {reason : PublishError} (turns : u.Turns cooldown (.failed moment reason) c')
    (early : u.begun.since moment < cooldown.toNanos) :
    u.touches = [] ∧ ∀ e, u.use = .publish e → u.answer = .published none := by
  cases turns with
  | connect _ vacant => exact absurd early (Nat.not_lt.mpr vacant.late)
  | refuse _ vacant => exact absurd early (Nat.not_lt.mpr vacant.late)
  | skip _ _ untouched missed => exact ⟨untouched, fun _ _ => missed⟩
  | rest other untouched => exact ⟨untouched, fun e same => by simp [same] at other⟩
  | ask other untouched => exact ⟨untouched, fun e same => by simp [same] at other⟩
  | forget other untouched => exact ⟨untouched, fun e same => by simp [same] at other⟩

theorem of_refused (turns : u.Turns cooldown c c') (refused : false ∈ u.connects) : u.connects = [false] ∧ c ≠ .ready := by
  cases turns with
  | connect _ _ connects => simp [connects] at refused
  | refuse _ vacant connects => exact ⟨connects, vacant.ne_ready⟩
  | skip _ _ untouched => simp [connects_nil untouched] at refused
  | carry _ _ still => simp [still] at refused
  | rest _ untouched => simp [connects_nil untouched] at refused
  | ask _ untouched => simp [connects_nil untouched] at refused
  | forget _ untouched => simp [connects_nil untouched] at refused

theorem answer_askDown (turns : u.Turns cooldown c c') (asks : u.use = .askDown) : u.answer = .down c.isDown := by
  cases turns with
  | connect other => simp [asks] at other
  | refuse other => simp [asks] at other
  | skip other => simp [asks] at other
  | carry _ other => exact absurd asks other
  | rest other => simp [asks] at other
  | ask _ _ answered => exact answered
  | forget other => simp [asks] at other

end Turns

theorem connects_of_forall {u : Usage} (never : ∀ succeeds, .connect succeeds ∉ u.touches) : u.connects = [] := by
  rw [connects, List.filterMap_eq_nil_iff]
  intro touch touched
  cases touch with
  | connect succeeds => exact absurd touched (never succeeds)
  | _ => rfl

end Usage

namespace Publisher

variable {io : PublisherPorts σ} {p : Publisher (Touched σ)}

/-- All that can come of a use: its answer, what it makes of the connection, and what reaches the bus. -/
def Turned (io : PublisherPorts σ) (p : Publisher (Touched σ)) (use : Use) (outcome : Answer × Publisher (Touched σ)) :
    Prop :=
  ∃ answer c w touches, outcome = (answer, { p with connection := c, bus := ⟨w, p.bus.touches ++ touches⟩ }) ∧
    Usage.Turns p.settings.cooldown ⟨use, io.now p.bus.world, io.now w, answer, touches⟩ p.connection c

/-- A use that leaves the bus alone. -/
theorem Turned.quiet {use : Use} {answer : Answer} {c : Connection}
    (turns : Usage.Turns p.settings.cooldown ⟨use, io.now p.bus.world, io.now p.bus.world, answer, []⟩ p.connection c) :
    p.Turned io use (answer, { p with connection := c }) :=
  ⟨answer, c, p.bus.world, [], by rw [List.append_nil], turns⟩

theorem publish_vacant (vacant : p.connection.Vacant p.settings.cooldown (io.now p.bus.world)) (e : Envelope) :
    p.Turned io (.publish e) (.published (p.publish io.traced e).1, (p.publish io.traced e).2) := by
  obtain ⟨result, w, acquired⟩ := acquire_vacant vacant
  cases result with
  | error reason =>
    rw [publish_missed acquired]
    exact ⟨_, _, w, [.connect false], rfl, .refuse rfl vacant rfl⟩
  | ok _ =>
    obtain ⟨answer, w', touches, published, never⟩ := publish_acquired acquired e
    rw [published]
    refine ⟨.published answer, .ready, w', .connect true :: touches, ?_, .connect rfl vacant ?_⟩
    · simp [Except.isOk, Except.toBool, Connection.settle]
    · have others := Usage.connects_of_forall (u := ⟨.publish e, default, default, .done, touches⟩) never
      exact congrArg (true :: ·) others

theorem publish_turned (free : p.connection ≠ .connecting) (e : Envelope) :
    p.Turned io (.publish e) (.published (p.publish io.traced e).1, (p.publish io.traced e).2) := by
  cases found : p.connection with
  | connecting => exact absurd found free
  | idle => exact publish_vacant (.inl found) e
  | ready =>
    obtain ⟨answer, w, touches, published, never⟩ := publish_acquired (acquire_ready io found) e
    rw [published]
    refine ⟨_, _, w, touches, rfl, ?_⟩
    rw [found]
    exact .carry (by simp) (by simp) (Usage.connects_of_forall never)
  | failed moment reason =>
    by_cases late : p.settings.cooldown.toNanos ≤ (io.now p.bus.world).since moment
    · exact publish_vacant (.inr ⟨moment, reason, found, late⟩) e
    · have early := Nat.lt_of_not_le late
      rw [publish_missed (acquire_early found early)]
      refine Turned.quiet (c := p.connection) ?_
      rw [found]
      exact .skip rfl early rfl rfl

theorem perform_turned (io : PublisherPorts σ) (free : p.connection ≠ .connecting) (use : Use) :
    p.Turned io use (use.perform io.traced p) := by
  cases use with
  | publish e => exact publish_turned free e
  | poll =>
    by_cases ready : p.connection = .ready
    · refine ⟨.done, .ready, io.writer.poll p.bus.world, [.poll], ?_, ?_⟩
      · simp [Use.perform, poll, ready, PublisherPorts.traced]
      · rw [ready]
        exact .carry (by simp) (by simp) rfl
    · rw [Use.perform, poll_of_ne _ ready]
      exact Turned.quiet (.rest (.inl rfl) rfl ready)
  | flush =>
    by_cases ready : p.connection = .ready
    · rcases flushed : io.writer.flush p.settings.flushWait p.bus.world with ⟨result, w⟩
      refine ⟨.flushed result, .ready, w, [.flush], ?_, ?_⟩
      · simp [Use.perform, flush, ready, PublisherPorts.traced, flushed]
      · rw [ready]
        exact .carry (by simp) (by simp) rfl
    · rw [Use.perform, flush_of_ne _ ready]
      exact Turned.quiet (.rest (.inr rfl) rfl ready)
  | reset => exact Turned.quiet (.forget rfl rfl)
  | askDown => exact Turned.quiet (.ask rfl rfl rfl)

theorem Turned.usage_turns {use : Use} (turned : p.Turned io use (use.perform io.traced p)) :
    (p.usage io use).Turns p.settings.cooldown p.connection (use.perform io.traced p).2.connection ∧
      (use.perform io.traced p).2.settings = p.settings := by
  obtain ⟨answer, c, w, touches, performed, turns⟩ := turned
  rw [usage, performed]
  dsimp only
  rw [List.drop_left]
  exact ⟨turns, rfl⟩

end Publisher

variable {log : List Usage} {u : Usage}

/-- Some use has connected. -/
def Connected (log : List Usage) : Prop :=
  ∃ u ∈ log, true ∈ u.connects

/-- The last connect has failed, and was over at a moment; since then there was no reset. -/
def FailedAt (log : List Usage) (moment : Moment) : Prop :=
  ∃ before failed after, log = before ++ failed :: after ∧ failed.connects = [false] ∧ failed.ended = moment ∧
    ∀ u ∈ after, u.connects = [] ∧ u.use ≠ .reset

/-- The last connect has failed, and there was no reset since. -/
def Degraded (log : List Usage) : Prop :=
  ∃ moment, FailedAt log moment

/-- What a publisher knows of its connection is what its uses tell. -/
structure Told (log : List Usage) (c : Connection) : Prop where
  free : c ≠ .connecting
  ready : c = .ready ↔ Connected log
  failed (moment : Moment) : (∃ reason, c = .failed moment reason) ↔ FailedAt log moment

theorem connected_concat : Connected (log ++ [u]) ↔ Connected log ∨ true ∈ u.connects := by
  simp only [Connected, List.mem_append, List.mem_singleton, or_and_right, exists_or, exists_eq_left]

theorem FailedAt.of_refused (before : List Usage) (refused : u.connects = [false]) :
    FailedAt (before ++ [u]) u.ended :=
  ⟨before, u, [], rfl, refused, rfl, by simp⟩

theorem failedAt_concat {moment : Moment} : FailedAt (log ++ [u]) moment ↔
    (u.connects = [false] ∧ u.ended = moment) ∨ (FailedAt log moment ∧ u.connects = [] ∧ u.use ≠ .reset) := by
  constructor
  · rintro ⟨before, failed, after, split, refused, ended, quiet⟩
    rcases List.eq_nil_or_concat after with rfl | ⟨after, last, rfl⟩
    · obtain ⟨-, same⟩ := List.append_inj' split rfl
      obtain rfl := List.singleton_inj.mp same
      exact .inl ⟨refused, ended⟩
    · have parts : log ++ [u] = (before ++ failed :: after) ++ [last] := by simpa using split
      obtain ⟨rfl, same⟩ := List.append_inj' parts rfl
      obtain rfl := List.singleton_inj.mp same
      have quietly : ∀ v ∈ after, v.connects = [] ∧ v.use ≠ .reset := fun v found => quiet v (by simp [found])
      exact .inr ⟨⟨before, failed, after, rfl, refused, ended, quietly⟩, quiet u (by simp)⟩
  · rintro (⟨refused, rfl⟩ | ⟨⟨before, failed, after, rfl, refused, ended, quiet⟩, still, kept⟩)
    · exact .of_refused log refused
    · refine ⟨before, failed, after ++ [u], by simp, refused, ended, ?_⟩
      simp only [List.mem_append, List.mem_singleton]
      rintro v (found | rfl)
      · exact quiet v found
      · exact ⟨still, kept⟩

namespace Told

variable {cooldown : Span} {c c' : Connection}

theorem start : Told [] .idle := by
  refine ⟨nofun, ?_, fun moment => ?_⟩
  · simp [Connected]
  · simp [FailedAt]

theorem quiet (told : Told log c) (still : u.connects = []) (kept : u.use ≠ .reset) : Told (log ++ [u]) c := by
  refine ⟨told.free, ?_, fun moment => ?_⟩
  · simp [connected_concat, still, told.ready]
  · simp [failedAt_concat, still, kept, told.failed]

theorem connected (free : u.connects = [true]) : Told (log ++ [u]) .ready := by
  refine ⟨nofun, ?_, fun moment => ?_⟩
  · simp [connected_concat, free]
  · simp [failedAt_concat, free]

theorem refused (told : Told log c) (vacant : c ≠ .ready) (refused : u.connects = [false]) (reason : PublishError) :
    Told (log ++ [u]) (.failed u.ended reason) := by
  refine ⟨nofun, ?_, fun moment => ?_⟩
  · simp [connected_concat, refused, ← told.ready, vacant]
  · simp [failedAt_concat, refused]

theorem reset (told : Told log c) (reset : u.use = .reset) (still : u.connects = []) : Told (log ++ [u]) c.reset := by
  have forgotten : ∀ moment, ¬FailedAt (log ++ [u]) moment := by simp [failedAt_concat, reset, still]
  have same : Connected (log ++ [u]) ↔ c = .ready := by simp [connected_concat, still, told.ready]
  cases c with
  | connecting => exact absurd rfl told.free
  | _ => exact ⟨nofun, by rw [same]; simp [Connection.reset], by simp [Connection.reset, forgotten]⟩

/-- What a publisher makes of its connection keeps up with what its uses tell. -/
theorem step (told : Told log c) (turns : u.Turns cooldown c c') : Told (log ++ [u]) c' := by
  cases turns with
  | connect _ _ connects => exact .connected connects
  | refuse _ vacant connects => exact told.refused vacant.ne_ready connects _
  | skip publishes _ untouched _ => exact told.quiet (Usage.connects_nil untouched) (by simp [publishes])
  | carry kept _ still => exact told.quiet still kept
  | rest kept untouched _ => exact told.quiet (Usage.connects_nil untouched) (by rcases kept with kept | kept <;> simp [kept])
  | ask asks untouched _ => exact told.quiet (Usage.connects_nil untouched) (by simp [asks])
  | forget resets untouched => exact told.reset resets (Usage.connects_nil untouched)

end Told

/-- Each use in a log has found the connection as the uses before it tell. -/
def Accounted (cooldown : Span) (log : List Usage) : Prop :=
  ∀ before u after, log = before ++ u :: after → ∃ c c', Told before c ∧ u.Turns cooldown c c'

theorem UsageRun.told {io : PublisherPorts σ} {settings : PublisherSettings} {world : σ} {p : Publisher (Touched σ)}
    (run : UsageRun io (.unused settings world) log p) :
    p.settings = settings ∧ Told log p.connection ∧ Accounted settings.cooldown log := by
  induction run with
  | start => exact ⟨rfl, .start, by simp [Accounted]⟩
  | pause _ _ ih => exact ih
  | @use log p use _ ih =>
    obtain ⟨same, told, accounted⟩ := ih
    obtain ⟨turns, kept⟩ := (Publisher.perform_turned io told.free use).usage_turns
    rw [same] at turns
    refine ⟨kept.trans same, told.step turns, fun before u after split => ?_⟩
    rcases List.eq_nil_or_concat after with rfl | ⟨after, last, rfl⟩
    · obtain ⟨rfl, last⟩ := List.append_inj' split rfl
      obtain rfl := List.singleton_inj.mp last
      exact ⟨_, _, told, turns⟩
    · have parts : log ++ [p.usage io use] = (before ++ u :: after) ++ [last] := by simpa using split
      exact accounted before u after (List.append_inj' parts rfl).1

/-- A publish that comes after a failed connect may connect: there was a reset in between, or the cooldown has
passed. -/
def Due (cooldown : Span) (failed : Usage) (between : List Usage) (u : Usage) : Prop :=
  (∃ v ∈ between, v.use = .reset) ∨ failed.ended.nanos + cooldown.toNanos ≤ u.begun.nanos

/-- When the uses of a publisher connect. -/
structure Throttled (cooldown : Span) (log : List Usage) : Prop where
  publishes : ∀ u ∈ log, u.connects ≠ [] → ∃ e, u.use = .publish e
  /-- The first publish connects exactly once. -/
  first : ∀ before u after e, log = before ++ u :: after → u.use = .publish e →
    (∀ v ∈ before, ∀ e, v.use ≠ .publish e) → u.connects.length = 1
  /-- A publish that is not due answers nothing and does not reach the bus. -/
  waits : ∀ before failed between u after e, log = before ++ failed :: between ++ u :: after →
    false ∈ failed.connects → u.use = .publish e → ¬Due cooldown failed between u →
    u.touches = [] ∧ u.answer = .published none
  /-- The first publish that is due connects exactly once. -/
  retries : ∀ before failed between u after e, log = before ++ failed :: between ++ u :: after →
    false ∈ failed.connects → u.use = .publish e → Due cooldown failed between u →
    (∀ left v right e, between = left ++ v :: right → v.use = .publish e → ¬Due cooldown failed left v) →
    u.connects.length = 1
  /-- Once connected, a publisher never connects again. -/
  settles : ∀ before connected after, log = before ++ connected :: after → true ∈ connected.connects →
    ∀ u ∈ after, u.connects = []
  /-- Who asks is told whether the last connect has failed, with no reset since. -/
  tells : ∀ before u after, log = before ++ u :: after → u.use = .askDown →
    ∃ down, u.answer = .down down ∧ (down = true ↔ Degraded before)

theorem InOrder.split {before between after : List Usage} {failed : Usage} (ordered : InOrder log)
    (split : log = before ++ failed :: between ++ u :: after) :
    failed.ended.nanos ≤ u.begun.nanos ∧ ∀ v ∈ between, v.begun.nanos ≤ u.begun.nanos := by
  subst split
  have follows := (List.pairwise_append.mp ordered.follows).2.2
  refine ⟨follows failed (by simp) u (by simp), fun v found => ?_⟩
  have lasts := ordered.lasts v (by simp [found])
  have past := follows v (by simp [found]) u (by simp)
  omega

theorem Told.vacant {cooldown : Span} {now : Moment} {c : Connection} (told : Told log c) (fresh : ¬Connected log)
    (late : ∀ moment, FailedAt log moment → cooldown.toNanos ≤ now.since moment) : c.Vacant cooldown now := by
  cases c with
  | idle => exact .inl rfl
  | connecting => exact absurd rfl told.free
  | ready => exact absurd (told.ready.mp rfl) fresh
  | failed moment reason => exact .inr ⟨moment, reason, rfl, late moment ((told.failed moment).mp ⟨reason, rfl⟩)⟩

theorem Told.isDown_iff {c : Connection} (told : Told log c) : c.isDown = true ↔ Degraded log := by
  simp only [Degraded, ← told.failed]
  cases c <;> simp [Connection.isDown]

/-- A failure with no connect and no reset after it still stands, and no other. -/
theorem failedAt_append {before between : List Usage} {failed : Usage} {moment : Moment}
    (refused : failed.connects = [false]) (still : ∀ v ∈ between, v.connects = []) :
    FailedAt (before ++ failed :: between) moment ↔ failed.ended = moment ∧ ∀ v ∈ between, v.use ≠ .reset := by
  induction between using List.reverseRecOn with
  | nil => simp [failedAt_concat, refused]
  | append_singleton between v ih =>
    have earlier := ih fun w found => still w (by simp [found])
    have parts : before ++ failed :: (between ++ [v]) = (before ++ failed :: between) ++ [v] := by simp
    rw [parts, failedAt_concat, earlier, still v (by simp)]
    simp [or_imp, forall_and, and_assoc]

namespace Accounted

variable {cooldown : Span} {before between after : List Usage} {failed : Usage} {e : Envelope}

theorem publishes (accounted : Accounted cooldown log) (found : u ∈ log) (connects : u.connects ≠ []) :
    ∃ e, u.use = .publish e := by
  obtain ⟨before, after, split⟩ := List.append_of_mem found
  obtain ⟨c, c', told, turns⟩ := accounted before u after split
  exact turns.publishes connects

theorem settles {connected : Usage} (accounted : Accounted cooldown log) (split : log = before ++ connected :: after)
    (succeeded : true ∈ connected.connects) : ∀ u ∈ after, u.connects = [] := by
  intro u found
  obtain ⟨left, right, rfl⟩ := List.append_of_mem found
  obtain ⟨c, c', told, turns⟩ := accounted (before ++ connected :: left) u right (by simpa using split)
  obtain rfl : c = .ready := told.ready.mpr ⟨connected, by simp, succeeded⟩
  exact turns.of_ready

/-- A connect that fails is the only one in its use, and there was no connection before. -/
theorem refused (accounted : Accounted cooldown log) (split : log = before ++ failed :: after)
    (refused : false ∈ failed.connects) : failed.connects = [false] ∧ ¬Connected before := by
  obtain ⟨c, c', told, turns⟩ := accounted before failed after split
  rw [← told.ready]
  exact turns.of_refused refused

/-- As long as a failure stands and is younger than the cooldown, nothing reaches the bus. -/
theorem early (accounted : Accounted cooldown log) (split : log = before ++ failed :: between ++ u :: after)
    (refused : failed.connects = [false]) (still : ∀ v ∈ between, v.connects = [])
    (kept : ∀ v ∈ between, v.use ≠ .reset) (early : u.begun.since failed.ended < cooldown.toNanos) :
    u.touches = [] ∧ ∀ e, u.use = .publish e → u.answer = .published none := by
  obtain ⟨c, c', told, turns⟩ := accounted _ u after split
  have standing : FailedAt (before ++ failed :: between) failed.ended := (failedAt_append refused still).mpr ⟨rfl, kept⟩
  obtain ⟨reason, rfl⟩ := (told.failed failed.ended).mpr standing
  exact turns.of_early early

theorem still (accounted : Accounted cooldown log) (split : log = before ++ failed :: between ++ after)
    (refused : failed.connects = [false]) (kept : ∀ v ∈ between, v.use ≠ .reset)
    (early : ∀ v ∈ between, v.begun.since failed.ended < cooldown.toNanos) : ∀ v ∈ between, v.connects = [] := by
  induction between using List.reverseRecOn generalizing after with
  | nil => simp
  | append_singleton between v ih =>
    simp only [List.mem_append, List.mem_singleton, or_imp, forall_and, forall_eq] at kept early ⊢
    have parts : log = before ++ failed :: between ++ v :: after := by simpa using split
    have earlier := ih parts kept.1 early.1
    exact ⟨earlier, Usage.connects_nil (accounted.early parts refused earlier kept.1 early.2).1⟩

theorem waits (accounted : Accounted cooldown log) (ordered : InOrder log)
    (split : log = before ++ failed :: between ++ u :: after) (refused : false ∈ failed.connects)
    (publishes : u.use = .publish e) (hurried : ¬Due cooldown failed between u) :
    u.touches = [] ∧ u.answer = .published none := by
  have whole : log = before ++ failed :: (between ++ u :: after) := by simpa using split
  obtain ⟨refused, -⟩ := accounted.refused whole refused
  obtain ⟨later, earlier⟩ := ordered.split split
  obtain ⟨kept, early⟩ := not_or.mp hurried
  have kept : ∀ v ∈ between, v.use ≠ .reset := fun v found reset => kept ⟨v, found, reset⟩
  have still : ∀ v ∈ between, v.connects = [] := by
    refine accounted.still split refused kept fun v found => ?_
    have before_u := earlier v found
    simp only [Moment.since]
    omega
  obtain ⟨untouched, missed⟩ := accounted.early split refused still kept (by simp only [Moment.since]; omega)
  exact ⟨untouched, missed e publishes⟩

theorem retries (accounted : Accounted cooldown log) (ordered : InOrder log)
    (split : log = before ++ failed :: between ++ u :: after) (refused : false ∈ failed.connects)
    (publishes : u.use = .publish e) (due : Due cooldown failed between u)
    (first : ∀ left v right e, between = left ++ v :: right → v.use = .publish e → ¬Due cooldown failed left v) :
    u.connects.length = 1 := by
  have still : ∀ v ∈ between, v.connects = [] := by
    intro v found
    by_contra connects
    obtain ⟨e, publishing⟩ := accounted.publishes (u := v) (by simp [split, found]) connects
    obtain ⟨left, right, rfl⟩ := List.append_of_mem found
    have hurried := first left v right e rfl publishing
    have earlier : log = before ++ failed :: left ++ v :: (right ++ u :: after) := by simpa using split
    exact connects (Usage.connects_nil (accounted.waits ordered earlier refused publishing hurried).1)
  have whole : log = before ++ failed :: (between ++ u :: after) := by simpa using split
  obtain ⟨refused, fresh⟩ := accounted.refused whole refused
  obtain ⟨c, c', told, turns⟩ := accounted _ u after split
  refine turns.of_vacant (told.vacant ?_ fun moment standing => ?_) publishes
  · rintro ⟨v, found, succeeded⟩
    rcases List.mem_append.mp found with found | found
    · exact fresh ⟨v, found, succeeded⟩
    · rcases List.mem_cons.mp found with rfl | found
      · simp [refused] at succeeded
      · simp [still v found] at succeeded
  · obtain ⟨rfl, kept⟩ := (failedAt_append refused still).mp standing
    rcases due with ⟨v, found, reset⟩ | late
    · exact absurd reset (kept v found)
    · simp only [Moment.since]
      omega

theorem first (accounted : Accounted cooldown log) (split : log = before ++ u :: after)
    (publishes : u.use = .publish e) (first : ∀ v ∈ before, ∀ e, v.use ≠ .publish e) : u.connects.length = 1 := by
  have still : ∀ v ∈ before, v.connects = [] := by
    intro v found
    by_contra connects
    obtain ⟨e, publishing⟩ := accounted.publishes (u := v) (by simp [split, found]) connects
    exact first v found e publishing
  obtain ⟨c, c', told, turns⟩ := accounted before u after split
  refine turns.of_vacant (told.vacant ?_ ?_) publishes
  · rintro ⟨v, found, succeeded⟩
    simp [still v found] at succeeded
  · rintro moment ⟨left, v, right, rfl, refused, -⟩
    simp [still v (by simp)] at refused

theorem tells (accounted : Accounted cooldown log) (split : log = before ++ u :: after) (asks : u.use = .askDown) :
    ∃ down, u.answer = .down down ∧ (down = true ↔ Degraded before) := by
  obtain ⟨c, c', told, turns⟩ := accounted before u after split
  exact ⟨c.isDown, turns.answer_askDown asks, told.isDown_iff⟩

end Accounted

/-- A failed connect is not repeated before the cooldown has passed or the failure was reset, one that succeeds is
never repeated, and a publisher says that it is down as long as its last connect has failed and was not reset. -/
theorem UsageRun.throttled {io : PublisherPorts σ} {settings : PublisherSettings} {world : σ}
    {p : Publisher (Touched σ)} (run : UsageRun io (.unused settings world) log p) (ordered : InOrder log) :
    Throttled settings.cooldown log ∧ (p.isDown = true ↔ Degraded log) := by
  obtain ⟨-, told, accounted⟩ := run.told
  refine ⟨⟨fun u found => accounted.publishes found, ?_, ?_, ?_, ?_, ?_⟩, told.isDown_iff⟩
  · exact fun before u after e => accounted.first
  · exact fun before failed between u after e => accounted.waits ordered
  · exact fun before failed between u after e => accounted.retries ordered
  · exact fun before connected after => accounted.settles
  · exact fun before u after => accounted.tells

def idleAt (nanos : Nat) (p : Publisher (Touched ScriptedBus)) : Publisher (Touched ScriptedBus) :=
  { p with bus := { p.bus with world := { p.bus.world with moment := ⟨nanos⟩ } } }

/-- The first two connects fail. The second one waits for the cooldown of thirty seconds, the third one for a
reset. -/
def reconnected : List Usage × Publisher (Touched ScriptedBus) :=
  let io := ScriptedBus.ports
  let use : Use := .publish (.ofFields fun _ => "e")
  let refusal : ScriptedConnect := { outcome := some (.unavailable "offline") }
  let p := Publisher.unused {} { connects := [refusal, refusal] }
  let q := idleAt 29999999999 (use.perform io.traced p).2
  let r := idleAt 30000000000 (use.perform io.traced q).2
  let s := (use.perform io.traced r).2
  let t := s.reset
  let v := (use.perform io.traced t).2
  ([p.usage io use, q.usage io use, r.usage io use, s.usage io .askDown, s.usage io .reset, t.usage io use,
    v.usage io use], (use.perform io.traced v).2)

theorem throttled_reconnected :
    InOrder reconnected.1 ∧ Throttled (.ofSeconds 30) reconnected.1 ∧ ¬Degraded reconnected.1 ∧
      reconnected.1.map (·.connects) = [[false], [], [false], [], [], [true], []] := by
  have run : UsageRun ScriptedBus.ports (.unused {} _) reconnected.1 reconnected.2 :=
    .use _ (.use _ (.use .reset (.use .askDown (.use _ (.pause _ (.use _ (.pause _ (.use _ .start))))))))
  have ordered : InOrder reconnected.1 := ⟨by decide +kernel, by decide +kernel⟩
  obtain ⟨throttled, down⟩ := run.throttled ordered
  exact ⟨ordered, throttled, by rw [← down]; decide +kernel, by decide +kernel⟩

end EventRelay
