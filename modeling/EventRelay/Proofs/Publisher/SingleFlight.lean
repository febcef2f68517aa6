import EventRelay.Proofs.Publisher.Interleaving
import Mathlib.Logic.ExistsUnique

/-!
At most one caller of a publisher connects at a time. That the connection is being made tells that there
is such a caller, and all other calls pass until this one has stored how its connect ended.
-/

namespace EventRelay

variable {ι σ : Type}

theorem Connection.settle_ne_connecting (now : Moment) (result : Except PublishError Unit) :
    settle now result ≠ .connecting := by
  cases result <;> simp [settle]

namespace Use

@[simp]
theorem check_connecting (settings : PublisherSettings) (now : Moment) (use : Use) :
    use.check settings now .connecting = (.answered use.passed, .connecting) := by
  cases use <;> rfl

/-- A check lets its caller connect if it is this check that says so in the connection. -/
theorem check_between (settings : PublisherSettings) (now : Moment) (connection : Connection) (use : Use) :
    (use.check settings now connection).1.between = true ↔
      connection ≠ .connecting ∧ (use.check settings now connection).2 = .connecting := by
  cases use with
  | publish e =>
    rcases claimed : connection.claim settings.cooldown now with ⟨verdict, after⟩
    simp only [check, claimed]
    rcases Connection.claim_cases claimed with ⟨rfl, rfl, rfl⟩ | ⟨rfl, _, rfl⟩ | ⟨rfl, _, other, rfl⟩
    · simp [Stage.between]
    · simp [Stage.between]
    · simp [Stage.between, other]
  | poll =>
    simp only [check]
    split <;> simp [Stage.between]
  | flush =>
    simp only [check]
    split <;> simp [Stage.between]
  | reset => cases connection <;> simp [check, Connection.reset, Stage.between]
  | askDown => simp [check, Stage.between]

theorem check_holds {settings : PublisherSettings} {now : Moment} {connection : Connection} {use : Use}
    (holds : (use.check settings now connection).1.holds = true) :
    (use.check settings now connection).2 = .ready := by
  cases use with
  | publish e =>
    rcases claimed : connection.claim settings.cooldown now with ⟨verdict, after⟩
    simp only [check, claimed] at holds ⊢
    rcases Connection.claim_cases claimed with ⟨_, _, ready⟩ | ⟨rfl, _⟩ | ⟨rfl, _⟩
    · exact ready
    · cases holds
    · cases holds
  | poll =>
    simp only [check] at holds ⊢
    split at holds
    · assumption
    · cases holds
  | flush =>
    simp only [check] at holds ⊢
    split at holds
    · assumption
    · cases holds
  | reset => cases holds
  | askDown => cases holds

/-- No check is enough to enter a connect. -/
theorem check_entered (settings : PublisherSettings) (now : Moment) (connection : Connection) (use : Use) :
    (use.check settings now connection).1.entered = false := by
  cases use with
  | publish e =>
    simp only [check]
    split <;> rfl
  | poll =>
    simp only [check]
    split <;> rfl
  | flush =>
    simp only [check]
    split <;> rfl
  | reset => rfl
  | askDown => rfl

theorem check_ready (settings : PublisherSettings) (now : Moment) (use : Use) :
    (use.check settings now .ready).2 = .ready := by
  cases use <;> rfl

/-- An operation on a publisher that is connecting passes. -/
theorem perform_connecting (io : PublisherPorts σ) {p : Publisher σ} (connecting : p.connection = .connecting)
    (use : Use) : use.perform io p = (use.passed, p) := by
  obtain ⟨settings, connection, bus⟩ := p
  cases connecting
  cases use <;> rfl

end Use

theorem Stage.between_of_entered {stage : Stage} (entered : stage.entered = true) : stage.between = true := by
  cases stage with
  | connecting => rfl
  | connected => rfl
  | _ => cases entered

@[simp]
theorem Stage.between_sent (settings : PublisherSettings) (e : Envelope) (result : Except PublishError Unit) :
    (sent settings e result).between = false := by
  unfold sent
  split
  · split <;> rfl
  · rfl

@[simp]
theorem Stage.between_resumed (e : Envelope) (result : Except PublishError Unit) :
    (resumed e result).between = false := by
  cases result <;> rfl

theorem LocalBus.ports_passing : Publisher.Passing ports :=
  fun _ _ => ⟨_, rfl⟩

/-- A connector may use the publisher: all that it does passes. -/
theorem ScriptedBus.ports_passing : Publisher.Passing ports := by
  rintro ⟨settings, connection, bus⟩ connecting
  cases connecting
  cases reenters : (bus.connects.headD {}).reenters with
  | false => exact ⟨_, by simp only [ports, connect, reenters]; rfl⟩
  | true => exact ⟨_, by simp only [ports, connect, reenters]; rfl⟩

namespace Advance

variable {io : PublisherPorts σ} {act : Act} {stage stage' : Stage} {p q : Publisher σ}

/-- A call becomes the one that connects, or ceases to be, together with the connection. -/
theorem flight (advance : Advance io act stage p stage' q) :
    (stage'.between = stage.between ∧ (q.connection = .connecting ↔ p.connection = .connecting)) ∨
      (stage.between = false ∧ stage'.between = true ∧ p.connection ≠ .connecting ∧ q.connection = .connecting) ∨
      (stage.between = true ∧ stage'.between = false ∧ q.connection ≠ .connecting) := by
  cases advance with
  | check use =>
    have claims := use.check_between p.settings (io.now p.bus) p.connection
    cases between : (use.check p.settings (io.now p.bus) p.connection).1.between with
    | true => exact .inr (.inl ⟨rfl, rfl, claims.mp between⟩)
    | false =>
      refine .inl ⟨rfl, fun after => ?_, fun before => by simp [before]⟩
      by_contra before
      rw [claims.mpr ⟨before, after⟩] at between
      cases between
  | store e _ result =>
    exact .inr (.inr ⟨rfl, Stage.between_resumed e result, Connection.settle_ne_connecting _ _⟩)
  | send e => exact .inl ⟨Stage.between_sent _ e _, .rfl⟩
  | _ => exact .inl ⟨rfl, .rfl⟩

/-- Only a connection that is ready is ever held. -/
theorem holds (advance : Advance io act stage p stage' q) (held : stage.holds = true → p.connection = .ready)
    (holds : stage'.holds = true) : q.connection = .ready := by
  cases advance with
  | check use => exact Use.check_holds holds
  | store e _ result =>
    cases result with
    | ok _ => rfl
    | error _ => cases holds
  | enter => cases holds
  | leave => cases holds
  | _ => exact held rfl

/-- A connection that is ready stays ready. -/
theorem ready (advance : Advance io act stage p stage' q) (before : p.connection = .ready)
    (outside : stage.between = false) : q.connection = .ready := by
  cases advance with
  | check use => simp [before, Use.check_ready]
  | store => cases outside
  | _ => exact before

theorem connecting (advance : Advance io act stage p stage' q) (before : p.connection = .connecting)
    (kept : ∀ result, act ≠ .stores result) : q.connection = .connecting := by
  cases advance with
  | check use => simp [before]
  | store e _ result => exact absurd rfl (kept result)
  | _ => exact before

theorem touches (advance : Advance io act stage p stage' q) (touched : act.touches = true) : stage.holds = true := by
  cases advance <;> first | rfl | cases touched

theorem of_enters (advance : Advance io .enters stage p stage' q) : stage.between = true := by
  cases advance
  rfl

/-- Only by coming back from a connect has a caller a result to store. -/
theorem of_connected {e : Envelope} {result : Except PublishError Unit}
    (advance : Advance io act stage p (.connected e result) q) : act = .leaves result := by
  generalize reached : Stage.connected e result = stage' at advance
  cases advance with
  | leave =>
    cases reached
    rfl
  | check use =>
    have outside := use.check_entered p.settings (io.now p.bus) p.connection
    rw [← reached] at outside
    cases outside
  | store e' _ result' =>
    have outside := Stage.between_resumed e' result'
    rw [← reached] at outside
    cases outside
  | send e' =>
    have outside := Stage.between_sent p.settings e' (p.send io p.settings.topic e').1
    rw [← reached] at outside
    cases outside
  | _ => cases reached

end Advance

variable [DecidableEq ι] {io : PublisherPorts σ} {s t u : SharedPublisher ι σ} {c d : ι} {act : Act}

namespace SharedStep

theorem calls_of_ne (step : SharedStep io s d act t) (other : c ≠ d) : t.calls c = s.calls c := by
  cases step <;> exact s.put_calls_of_ne _ _ other

/-- A call that has its answer can only give it. -/
theorem of_answered {answer : Answer} {rest : List Stage} (step : SharedStep io s c act t)
    (top : s.calls c = .answered answer :: rest) : act = .answers answer := by
  cases step with
  | call _ free =>
    rcases free with none | ⟨_, _, inside⟩
    · simp [top] at none
    · simp [top] at inside
  | advance top' advance =>
    rw [top] at top'
    cases top'
    cases advance
  | answer top' =>
    rw [top] at top'
    cases top'
    rfl

end SharedStep

/-- The calls of all callers fit the connection: those of the owner have one stage between claim and store,
and the others have none. -/
structure Orderly (s : SharedPublisher ι σ) (owner : Option ι) : Prop where
  connecting : s.publisher.connection = .connecting ↔ owner.isSome = true
  flights : ∀ c, (s.calls c).countP Stage.between = if owner = some c then 1 else 0
  /-- Connections that are held are ready, and a ready one stays so. -/
  holding : ∀ c, ∀ stage ∈ s.calls c, stage.holds = true → s.publisher.connection = .ready
  /-- Calls within calls are those of connectors. -/
  nested : ∀ c, ∀ stage ∈ (s.calls c).tail, ∃ e, stage = .connecting e

namespace Orderly

variable {owner : Option ι}

theorem fresh (settings : PublisherSettings) (bus : σ) :
    Orderly (.fresh settings bus : SharedPublisher ι σ) none := by
  constructor <;> simp [SharedPublisher.fresh]

theorem between_iff (orderly : Orderly s owner) : s.Between c ↔ owner = some c := by
  have flights := orderly.flights c
  constructor
  · intro between
    have some := List.countP_pos_iff.mpr between
    by_contra other
    rw [if_neg other] at flights
    omega
  · rintro rfl
    rw [if_pos rfl] at flights
    exact List.countP_pos_iff.mp (by omega)

/-- Nothing below a stage between claim and store is another one. -/
theorem alone (orderly : Orderly s owner) {stage : Stage} {rest : List Stage} (top : s.calls c = stage :: rest)
    (between : stage.between = true) : ∀ stage' ∈ rest, stage'.between ≠ true := by
  have flights := orderly.flights c
  rw [top, List.countP_cons, if_pos between] at flights
  refine List.countP_eq_zero.mp ?_
  split at flights <;> omega

/-- The calls of one caller change, and with them the connection, so that order is kept. -/
theorem put (orderly : Orderly s owner) {owner' : Option ι} {stages : List Stage} {p : Publisher σ}
    (connecting : p.connection = .connecting ↔ owner'.isSome = true)
    (mine : stages.countP Stage.between = if owner' = some c then 1 else 0)
    (others : ∀ d, d ≠ c → (owner' = some d ↔ owner = some d))
    (holding : ∀ stage ∈ stages, stage.holds = true → p.connection = .ready)
    (ready : s.publisher.connection = .ready → p.connection = .ready)
    (nested : ∀ stage ∈ stages.tail, ∃ e, stage = .connecting e) : Orderly (s.put c stages p) owner' := by
  refine ⟨connecting, fun d => ?_, fun d => ?_, fun d => ?_⟩
  all_goals
    by_cases same : d = c
    · subst same
      simpa
    rw [s.put_calls_of_ne _ _ same]
  · simp [orderly.flights d, others d same]
  · exact fun stage member held => ready (orderly.holding d stage member held)
  · exact orderly.nested d

theorem call (orderly : Orderly s owner) (use : Use) (free : s.Free c) :
    Orderly (s.put c (.begun use :: s.calls c) s.publisher) owner := by
  refine orderly.put orderly.connecting ?_ (fun _ _ => .rfl) ?_ id ?_
  · simpa [Stage.between] using orderly.flights c
  · intro stage member held
    rcases List.mem_cons.mp member with rfl | old
    · cases held
    · exact orderly.holding c stage old held
  · rcases free with none | ⟨e, rest, inside⟩
    · simp [none]
    · have outer := orderly.nested c
      rw [inside] at outer ⊢
      exact List.forall_mem_cons.mpr ⟨⟨e, rfl⟩, outer⟩

theorem answer (orderly : Orderly s owner) {answer : Answer} {rest : List Stage}
    (top : s.calls c = .answered answer :: rest) : Orderly (s.put c rest s.publisher) owner := by
  have flights := orderly.flights c
  have holding := orderly.holding c
  have nested := orderly.nested c
  rw [top] at flights holding nested
  refine orderly.put orderly.connecting ?_ (fun _ _ => .rfl) ?_ id ?_
  · simpa [Stage.between] using flights
  · exact fun stage member => holding stage (List.mem_cons_of_mem _ member)
  · exact fun stage member => nested stage (List.mem_of_mem_tail member)

/-- A call that connects is the owner from its claim to its store. -/
theorem advance (orderly : Orderly s owner) {stage stage' : Stage} {rest : List Stage} {p : Publisher σ}
    (top : s.calls c = stage :: rest) (advance : Advance io act stage s.publisher stage' p) :
    ∃ owner', Orderly (s.put c (stage' :: rest) p) owner' := by
  have flights := orderly.flights c
  have holding := orderly.holding c
  have nested := orderly.nested c
  rw [top] at flights holding nested
  rw [List.countP_cons] at flights
  have ready : s.publisher.connection = .ready → p.connection = .ready := by
    intro before
    refine advance.ready before (Bool.eq_false_iff.mpr fun between => ?_)
    have owned : owner = some c := by
      by_contra other
      simp [between, other] at flights
    have connecting := orderly.connecting.mpr (by simp [owned])
    rw [before] at connecting
    cases connecting
  have held : ∀ stage'' ∈ stage' :: rest, stage''.holds = true → p.connection = .ready := by
    refine List.forall_mem_cons.mpr ⟨advance.holds (holding stage List.mem_cons_self), ?_⟩
    exact fun stage'' member holds => ready (holding stage'' (List.mem_cons_of_mem _ member) holds)
  rcases advance.flight with ⟨same, connecting⟩ | ⟨before, after, absent, connecting⟩ | ⟨before, after, absent⟩
  · refine ⟨owner, orderly.put (connecting.trans orderly.connecting) ?_ (fun _ _ => .rfl) held ready nested⟩
    rwa [List.countP_cons, same]
  · have free : owner = none := by simpa using mt orderly.connecting.mpr absent
    subst free
    refine ⟨some c, orderly.put (by simp [connecting]) ?_ (fun d other => by simp [other.symm]) held ready nested⟩
    simpa [before, after] using flights
  · have owned : owner = some c := by
      by_contra other
      simp [before, other] at flights
    subst owned
    refine ⟨none, orderly.put (by simp [absent]) ?_ (fun d other => by simp [other.symm]) held ready nested⟩
    simpa [before, after] using flights

theorem step (orderly : Orderly s owner) (step : SharedStep io s c act t) : ∃ owner', Orderly t owner' := by
  cases step with
  | call use free => exact ⟨owner, orderly.call use free⟩
  | advance top advance => exact orderly.advance top advance
  | answer top => exact ⟨owner, orderly.answer top⟩

end Orderly

theorem SharedRun.orderly {settings : PublisherSettings} {bus : σ} {trace : List (ι × Act)}
    (run : SharedRun io (.fresh settings bus) trace s) : ∃ owner, Orderly s owner := by
  induction run with
  | start => exact ⟨none, .fresh settings bus⟩
  | pause bus _ ih =>
    obtain ⟨owner, orderly⟩ := ih
    exact ⟨owner, ⟨orderly.connecting, orderly.flights, orderly.holding, orderly.nested⟩⟩
  | next _ step ih =>
    obtain ⟨owner, orderly⟩ := ih
    exact orderly.step step

/-- The caller is connecting, and has not stored how that ended. -/
def SharedPublisher.Entered (s : SharedPublisher ι σ) (c : ι) : Prop :=
  ∃ stage ∈ s.calls c, stage.entered = true

theorem SharedStep.entered (step : SharedStep io s d act t) (entered : s.Entered c)
    (kept : ∀ result, (d, act) ≠ (c, .stores result)) : t.Entered c := by
  by_cases other : c ≠ d
  · rwa [SharedPublisher.Entered, step.calls_of_ne other]
  obtain rfl : c = d := not_not.mp other
  obtain ⟨stage, member, inside⟩ := entered
  cases step with
  | call use _ => exact ⟨stage, by simp [member], inside⟩
  | answer top =>
    rw [top] at member
    rcases List.mem_cons.mp member with rfl | old
    · cases inside
    · exact ⟨stage, by simpa using old, inside⟩
  | @advance _ _ stage' rest p top advance =>
    rw [top] at member
    rcases List.mem_cons.mp member with rfl | old
    · refine ⟨stage', by simp, ?_⟩
      cases advance with
      | leave => rfl
      | store _ _ result => exact absurd rfl (kept result)
      | _ => cases inside
    · exact ⟨stage, by simp [old], inside⟩

namespace SharedRun

variable {trace more before after : List (ι × Act)}

/-- A run is made up of what comes before an act, the act and what comes after it. -/
theorem at_act (run : SharedRun io s (before ++ (c, act) :: after) u) :
    ∃ t t', SharedRun io s before t ∧ SharedStep io t c act t' ∧ SharedRun io t' after u := by
  generalize whole : before ++ (c, act) :: after = trace at run
  induction run generalizing after with
  | start => simp at whole
  | pause bus _ ih =>
    obtain ⟨t, t', first, step, second⟩ := ih whole
    exact ⟨t, t', first, step, .pause bus second⟩
  | @next trace v d act' w run step ih =>
    rcases after.eq_nil_or_concat with rfl | ⟨after, last, rfl⟩
    · obtain ⟨rfl, same⟩ := List.append_inj' whole rfl
      cases same
      exact ⟨v, w, run, step, .start⟩
    · rw [List.concat_eq_append, ← List.cons_append, ← List.append_assoc] at whole
      obtain ⟨rfl, same⟩ := List.append_inj' whole rfl
      cases same
      obtain ⟨t, t', first, step', second⟩ := ih rfl
      exact ⟨t, t', first, step', by simpa using second.next step⟩

theorem entered (run : SharedRun io s trace t) (entered : s.Entered c) (kept : ∀ result, (c, .stores result) ∉ trace) :
    t.Entered c := by
  induction run with
  | start => exact entered
  | pause bus _ ih => exact ih kept
  | @next trace v d act w _ step ih =>
    have apart : ∀ result, (c, .stores result) ∉ trace ∧ (d, act) ≠ (c, .stores result) :=
      fun result => by simpa [not_or, eq_comm] using kept result
    exact step.entered (ih fun result => (apart result).1) fun result => (apart result).2

/-- The next thing that a caller does whose call has its answer is to give it. -/
theorem answers_next (run : SharedRun io s trace t) {answer : Answer} {rest : List Stage}
    (top : s.calls c = .answered answer :: rest) :
    (t.calls c = .answered answer :: rest ∧ ∀ x ∈ trace, x.1 ≠ c) ∨
      ∃ before after, trace = before ++ (c, .answers answer) :: after ∧ ∀ x ∈ before, x.1 ≠ c := by
  induction run with
  | start => exact .inl ⟨top, by simp⟩
  | pause bus _ ih => exact ih
  | @next trace v d act w _ step ih =>
    rcases ih with ⟨waiting, apart⟩ | ⟨before, after, split, apart⟩
    · by_cases other : c ≠ d
      · refine .inl ⟨(step.calls_of_ne other).trans waiting, ?_⟩
        simpa [or_imp, forall_and, other.symm] using apart
      · obtain rfl : c = d := not_not.mp other
        obtain rfl := step.of_answered waiting
        exact .inr ⟨trace, [], rfl, apart⟩
    · exact .inr ⟨before, after ++ [(d, act)], by simp [split], apart⟩

/-- The last thing that a caller did that is about to store the result of a connect was to come back with it. -/
theorem leaves_last {settings : PublisherSettings} {bus : σ} (run : SharedRun io (.fresh settings bus) trace t)
    {e : Envelope} {result : Except PublishError Unit} {rest : List Stage}
    (top : t.calls c = .connected e result :: rest) :
    ∃ before after, trace = before ++ (c, .leaves result) :: after ∧ ∀ x ∈ after, x.1 ≠ c := by
  induction run generalizing rest with
  | start => cases top
  | pause bus _ ih => exact ih top
  | @next trace v d act w run step ih =>
    by_cases other : c ≠ d
    · obtain ⟨before, after, split, apart⟩ := ih ((step.calls_of_ne other).symm.trans top)
      refine ⟨before, after ++ [(d, act)], by simp [split], ?_⟩
      simpa [or_imp, forall_and, other.symm] using apart
    obtain rfl : c = d := not_not.mp other
    cases step with
    | call use _ => simp at top
    | answer top' =>
      -- Below an answered call there are only calls that are connecting.
      obtain ⟨_, orderly⟩ := run.orderly
      have nested := orderly.nested c
      simp only [SharedPublisher.put_calls_self] at top
      subst top
      rw [top'] at nested
      obtain ⟨_, absurd⟩ := nested _ List.mem_cons_self
      cases absurd
    | advance _ advance =>
      simp only [SharedPublisher.put_calls_self, List.cons.injEq] at top
      obtain ⟨rfl, _⟩ := top
      obtain rfl := advance.of_connected
      exact ⟨trace, [], rfl, by simp⟩

/-- Between two entries into a connect the caller of the first one stores how it ended. -/
theorem stores_between {settings : PublisherSettings} {bus : σ} {between : List (ι × Act)}
    (run : SharedRun io (.fresh settings bus) (before ++ (c, .enters) :: (between ++ (d, .enters) :: after)) u) :
    ∃ result, (c, .stores result) ∈ between := by
  obtain ⟨t₁, t₂, first, enter, rest⟩ := run.at_act
  obtain ⟨t₃, t₄, second, again, _⟩ := rest.at_act
  by_contra none
  have inside : t₂.Entered c := by
    cases enter with
    | advance _ advance =>
      cases advance with
      | enter e => exact ⟨.connecting e, by simp, rfl⟩
  obtain ⟨stage, member, entered⟩ := second.entered inside (not_exists.mp none)
  obtain ⟨owner, orderly⟩ := ((first.next enter).append second).orderly
  have mine : owner = some c := orderly.between_iff.mp ⟨stage, member, Stage.between_of_entered entered⟩
  cases again with
  | advance top advance =>
    cases advance with
    | enter e =>
      have theirs : owner = some d := orderly.between_iff.mp ⟨.claimed e, by simp [top], rfl⟩
      obtain rfl : c = d := Option.some.inj (mine.symm.trans theirs)
      -- The caller has claimed, and is connecting all the same.
      rw [top] at member
      rcases List.mem_cons.mp member with rfl | old
      · cases entered
      · exact orderly.alone top rfl stage old (Stage.between_of_entered entered)

end SharedRun

/-- What is true of a publisher and its callers after all that the callers have done so far. -/
structure SingleFlight (io : PublisherPorts σ) (trace : List (ι × Act)) (s : SharedPublisher ι σ) : Prop where
  /-- The connection is being made if there is one caller, and only one, that makes it. -/
  one : s.publisher.connection = .connecting ↔ ∃! c, s.Between c
  free : s.publisher.connection ≠ .connecting → ∀ c, ¬ s.Between c
  once : ∀ c, (s.calls c).countP Stage.between ≤ 1
  /-- Nobody else enters a connect, and nobody enters one before the last one is stored. -/
  entry : ∀ c d t, s.Between c → SharedStep io s d .enters t → d = c
  entries : ∀ before between after c d, trace = before ++ (c, .enters) :: (between ++ (d, .enters) :: after) →
    ∃ result, (c, .stores result) ∈ between
  /-- Meanwhile nothing reaches the bus over a connection, and the connection is being made until the store. -/
  kept : s.publisher.connection = .connecting → ∀ c act t, SharedStep io s c act t →
    act.touches = false ∧ ((∀ result, act ≠ .stores result) → t.publisher.connection = .connecting)
  /-- A call that has begun can check the connection, and can do nothing else. If it does so meanwhile, the
  publisher stays as it is. All that the caller does next is to return, which nothing keeps it from. -/
  passes : s.publisher.connection = .connecting → ∀ c use rest, s.calls c = .begun use :: rest →
    let passed := s.put c (.answered use.passed :: rest) s.publisher
    SharedStep io s c (.checks use) passed ∧ (∀ act t, SharedStep io s c act t → act = .checks use ∧ t = passed) ∧
      ∀ more u, SharedRun io passed more u →
        ((∀ x ∈ more, x.1 ≠ c) ∧ ∃ v, SharedStep io u c (.answers use.passed) v) ∨
          ∃ before after, more = before ++ (c, .answers use.passed) :: after ∧ ∀ x ∈ before, x.1 ≠ c
  performs : s.publisher.connection = .connecting → ∀ use : Use, use.perform io s.publisher = (use.passed, s.publisher)
  /-- Each operation of a publisher, if no other caller comes in between, is such a call from its beginning to its
  answer, and leaves the publisher as the operation does. -/
  operates : Publisher.Passing io → ∀ c, s.Free c → ∀ use : Use, ∃ acts,
    Advances io (.begun use) s.publisher acts (.answered (use.perform io s.publisher).1) (use.perform io s.publisher).2 ∧
      SharedRun io s ((Act.calls use :: acts ++ [Act.answers (use.perform io s.publisher).1]).map (c, ·))
        { s with publisher := (use.perform io s.publisher).2 }
  /-- What is stored is the outcome with which the caller has come back from its connect. -/
  stored : ∀ c result t, SharedStep io s c (.stores result) t →
    s.publisher.connection = .connecting ∧ s.Between c ∧
      t.publisher.connection = .settle (io.now s.publisher.bus) result ∧
      ∃ before after, trace = before ++ (c, .leaves result) :: after ∧ ∀ x ∈ after, x.1 ≠ c

namespace Orderly

variable {owner : Option ι}

theorem existsUnique_between (orderly : Orderly s owner) :
    s.publisher.connection = .connecting ↔ ∃! c, s.Between c := by
  simp only [orderly.between_iff, orderly.connecting]
  cases owner with
  | none => simp [ExistsUnique]
  | some c => simp [ExistsUnique]

end Orderly

/-- While the connection is being made, a call that has begun can only check it, and passes. -/
theorem SharedStep.checks (connecting : s.publisher.connection = .connecting) {use : Use} {rest : List Stage}
    (top : s.calls c = .begun use :: rest) :
    SharedStep io s c (.checks use) (s.put c (.answered use.passed :: rest) s.publisher) ∧
      ∀ act t, SharedStep io s c act t →
        act = .checks use ∧ t = s.put c (.answered use.passed :: rest) s.publisher := by
  have same : { s.publisher with connection := .connecting } = s.publisher := by rw [← connecting]
  constructor
  · have check : Advance io (.checks use) (.begun use) s.publisher _ _ := .check use s.publisher
    simp only [connecting, Use.check_connecting, same] at check
    exact .advance top check
  · intro act t step
    cases step with
    | call _ free =>
      rcases free with none | ⟨_, _, inside⟩
      · simp [top] at none
      · simp [top] at inside
    | answer top' =>
      rw [top] at top'
      cases top'
    | advance top' advance =>
      rw [top] at top'
      cases top'
      cases advance
      simp [connecting, same]

/-- However the calls of any number of callers are interleaved, those of connectors among them, and however
connects end, at most one caller connects at a time, and all other calls pass meanwhile. The operations of a publisher
are calls of this kind that nobody interrupts. -/
theorem SharedRun.single_flight {settings : PublisherSettings} {bus : σ} {trace : List (ι × Act)}
    (run : SharedRun io (.fresh settings bus) trace s) : SingleFlight io trace s := by
  obtain ⟨owner, orderly⟩ := run.orderly
  have only : ∀ {c d}, s.Between c → s.Between d → d = c := fun between between' =>
    Option.some.inj ((orderly.between_iff.mp between').symm.trans (orderly.between_iff.mp between))
  constructor
  case one => exact orderly.existsUnique_between
  case free =>
    intro idle c between
    exact idle (orderly.existsUnique_between.mpr ⟨c, between, fun _ => only between⟩)
  case once =>
    intro c
    rw [orderly.flights c]
    split <;> omega
  case entry =>
    intro c d t between step
    cases step with
    | advance top advance => exact only between ⟨_, by simp [top], advance.of_enters⟩
  case entries =>
    rintro before between after c d rfl
    exact run.stores_between
  case kept =>
    intro connecting c act t step
    cases step with
    | call => exact ⟨rfl, fun _ => connecting⟩
    | answer => exact ⟨rfl, fun _ => connecting⟩
    | advance top advance =>
      refine ⟨Bool.eq_false_iff.mpr fun touched => ?_, advance.connecting connecting⟩
      have ready := orderly.holding c _ (by simp [top]) (advance.touches touched)
      rw [connecting] at ready
      cases ready
  case passes =>
    intro connecting c use rest top
    obtain ⟨check, only⟩ := SharedStep.checks connecting top
    refine ⟨check, only, fun more u later => ?_⟩
    rcases later.answers_next (s.put_calls_self c _ _) with ⟨waiting, apart⟩ | answered
    · exact .inl ⟨apart, _, .answer waiting⟩
    · exact .inr answered
  case performs => exact fun connecting => Use.perform_connecting io connecting
  case operates => exact fun passing c free => Use.perform_run passing free
  case stored =>
    intro c result t step
    cases step with
    | advance top advance =>
      cases advance with
      | store e =>
        have between : s.Between c := ⟨.connected e result, by simp [top], rfl⟩
        exact ⟨orderly.existsUnique_between.mpr ⟨c, between, fun _ => only between⟩, between, rfl, run.leaves_last top⟩

/-- One caller connects, another one publishes meanwhile, and the connector flushes before it fails. -/
def contention (e : Envelope) : List (Bool × Act) :=
  [(false, .calls (.publish e)), (false, .checks (.publish e)), (false, .enters),
    (true, .calls (.publish e)), (true, .checks (.publish e)),
    (false, .calls .flush), (false, .checks .flush), (false, .answers (.flushed (.ok ()))),
    (false, .leaves (.error .notConfigured))]

theorem single_flight_contention :
    (∃ s, SharedRun ScriptedBus.ports (.fresh {} {}) (contention (.ofFields fun _ => "")) s ∧
      s.publisher.connection = .connecting ∧ (∃! c, s.Between c) ∧
      s.calls true = [.answered (.published none)] ∧
      ∃ t, SharedStep ScriptedBus.ports s false (.stores (.error .notConfigured)) t ∧
        t.publisher.connection = .failed ⟨0⟩ .notConfigured) ∧
    ∃ acts s, SharedRun ScriptedBus.ports (.fresh {} {} : SharedPublisher Bool ScriptedBus)
      ((Act.calls (.publish (.ofFields fun _ => "")) :: acts ++ [Act.answers (.published (some ""))]).map (true, ·)) s ∧
        s.publisher.connection = .ready := by
  let e : Envelope := .ofFields fun _ => ""
  have begun : SharedRun ScriptedBus.ports (.fresh {} {} : SharedPublisher Bool ScriptedBus) [] _ := .start
  have claimed := (begun.next (.call (c := false) (.publish e) (.inl rfl))).next (.advance (c := false) rfl (.check _ _))
  have entered := claimed.next (.advance (c := false) rfl (.enter e _))
  have passed := (entered.next (.call (c := true) (.publish e) (.inl rfl))).next (.advance (c := true) rfl (.check _ _))
  have flushing := passed.next (.call (c := false) .flush (.inr ⟨e, [], rfl⟩))
  have flushed := (flushing.next (.advance (c := false) rfl (.check _ _))).next (.answer (c := false) rfl)
  have left := flushed.next (.advance (c := false) rfl (.leave e _ (.error .notConfigured) {}))
  have run : SharedRun ScriptedBus.ports (.fresh {} {}) (contention e) _ := left
  obtain ⟨connecting, _, stored, _⟩ :=
    run.single_flight.stored false (.error .notConfigured) _ (.advance rfl (.store e _ _))
  -- Without contention a publish connects and sends.
  obtain ⟨acts, -, alone⟩ := begun.single_flight.operates ScriptedBus.ports_passing true (.inl rfl) (.publish e)
  exact ⟨⟨_, run, connecting, run.single_flight.one.mp connecting, rfl, _, .advance rfl (.store e _ _), stored⟩,
    acts, _, alone, rfl⟩

end EventRelay
