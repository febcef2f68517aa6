import EventRelay.Ingest.Startup
import EventRelay.Proofs.Trials

/-!
Startup, connection by connection. Each side is tried once in every attempt until it is up, whatever becomes of the
other one, and startup is over with the first attempt after which both are up.
-/

namespace EventRelay

/-- How often the bus and the store were tried so far, and the waits that were made. -/
structure Asked where
  connects : Nat := 0
  pings : Nat := 0
  waits : List Span := []

/-- Ports that answer by a script: the `k`-th connection and the `k`-th ping, counted from 1, have the `k`-th
outcome. -/
def StartupPorts.scripted {β : Type} (bus : Nat → Except BusError β) (store : Nat → Bool) :
    StartupPorts Asked β where
  connect w := (bus (w.connects + 1), { w with connects := w.connects + 1 })
  ping w := (store (w.pings + 1), { w with pings := w.pings + 1 })
  sleep wait w := { w with waits := w.waits ++ [wait] }

theorem StartupFailure.message_eq (f : StartupFailure) : f.message =
    s!"startup failed after {f.attempts.toNat} attempts (bus_connected={f.busUp}, sink_connected={f.storeUp})" := by
  have number (n : Nat) : Digits.toText n = toString n := rfl
  have flag (b : Bool) : (if b then "true" else "false") = toString b := by cases b <;> rfl
  unfold StartupFailure.message
  simp only [number, flag]
  rfl

namespace StartupPolicy

section Attempt

variable {σ β : Type}

/-- Tries the bus if it is not up yet. -/
def tryBus (io : StartupPorts σ β) (p : Progress σ β) : Progress σ β :=
  if p.source.isSome then p
  else
    match io.connect p.world with
    | (.ok source, w) => { p with source := some source, metrics := p.metrics.withBus true, world := w }
    | (.error _, w) => { p with world := w }

/-- Tries the store if it is not up yet. -/
def tryStore (io : StartupPorts σ β) (p : Progress σ β) : Progress σ β :=
  if p.storeUp then p
  else
    let (up, w) := io.ping p.world
    { p with storeUp := up, metrics := p.metrics.withStore up, world := w }

theorem attempt_eq (io : StartupPorts σ β) (p : Progress σ β) : attempt io p = tryStore io (tryBus io p) := by
  unfold attempt tryStore tryBus
  rfl

/-- What startup ends with when no attempt is left, or none is needed. -/
def Progress.result (attempts : UInt32) (p : Progress σ β) : Except StartupFailure β :=
  match p.source, p.storeUp with
  | some source, true => .ok source
  | source, storeUp => .error ⟨attempts, source.isSome, storeUp⟩

theorem Progress.result_isOk (attempts : UInt32) (p : Progress σ β) :
    (p.result attempts).isOk = true ↔ p.source.isSome = true ∧ p.storeUp = true := by
  rcases p with ⟨_ | source, _ | _, metrics, w⟩ <;> simp [Progress.result, Except.isOk, Except.toBool]

theorem Progress.source_of_result {attempts : UInt32} {p : Progress σ β} {source : β}
    (result : p.result attempts = .ok source) : p.source = some source := by
  rcases p with ⟨_ | source', _ | _, metrics, w⟩ <;> simp_all [Progress.result]

theorem Progress.failure_of_result {attempts : UInt32} {p : Progress σ β} {failure : StartupFailure}
    (result : p.result attempts = .error failure) : failure = ⟨attempts, p.source.isSome, p.storeUp⟩ := by
  rcases p with ⟨_ | source', _ | _, metrics, w⟩ <;> simp_all [Progress.result]

variable (policy : StartupPolicy) {io : StartupPorts σ β} {p : Progress σ β}

/-- Startup ends with an attempt when both sides are up after it, and when it is the last one. -/
theorem startFrom_last {left : Nat}
    (last : ((attempt io p).result policy.attempts).isOk = true ∨ left = 0) :
    policy.startFrom io left p =
      ((attempt io p).result policy.attempts, (attempt io p).metrics, (attempt io p).world) := by
  unfold startFrom
  generalize attempt io p = after at last ⊢
  rcases after with ⟨_ | source, _ | _, metrics, w⟩ <;> rcases last with up | rfl <;> first | rfl | cases up

/-- While a side is down and attempts are left, there is a wait and then the next attempt. -/
theorem startFrom_retry {left : Nat}
    (down : ((attempt io p).result policy.attempts).isOk = false) :
    policy.startFrom io (left + 1) p =
      policy.startFrom io left
        { attempt io p with world := io.sleep policy.interval (attempt io p).world } := by
  rw [startFrom]
  generalize attempt io p = after at down ⊢
  rcases after with ⟨_ | source, _ | _, metrics, w⟩ <;> first | rfl | cases down

end Attempt

section Script

variable {β : Type} {bus : Nat → Except BusError β} {store : Nat → Bool} {started : Instant}
  {k l : Nat} {p : Progress Asked β}

/-- The number of the first attempt after which both sides are up. -/
noncomputable def bothUp (bus : Nat → Except BusError β) (store : Nat → Bool) : ℕ∞ :=
  max (firstSuccess fun k => (bus k).isOk) (firstSuccess store)

/-- What was reached after so many attempts with the bus and with the store, from new metrics on. -/
structure Reached (bus : Nat → Except BusError β) (store : Nat → Bool) (started : Instant) (k l : Nat)
    (p : Progress Asked β) : Prop where
  bus_tried : Tried (fun j => (bus j).isOk) k p.world.connects p.source.isSome
  store_tried : Tried store l p.world.pings p.storeUp
  source_eq : ∀ source ∈ p.source, bus p.world.connects = .ok source
  metrics_eq : p.metrics = { started, busUp := p.source.isSome, storeUp := p.storeUp }

namespace Reached

theorem start (bus : Nat → Except BusError β) (store : Nat → Bool) (started : Instant) :
    Reached bus store started 0 0 { metrics := { started }, world := {} } where
  bus_tried := .start _
  store_tried := .start _
  source_eq := by simp
  metrics_eq := rfl

theorem tryBus (reached : Reached bus store started k l p) :
    Reached bus store started (k + 1) l (tryBus (.scripted bus store) p) := by
  rcases p with ⟨_ | source, storeUp, metrics, w⟩
  · obtain rfl : metrics = { started, storeUp } := reached.metrics_eq
    have again : Tried (fun j => (bus j).isOk) (k + 1) (w.connects + 1) (bus (w.connects + 1)).isOk :=
      reached.bus_tried.again
    rw [StartupPolicy.tryBus]
    dsimp only [StartupPorts.scripted, Option.isSome_none, Bool.false_eq_true, if_false]
    rcases called : bus (w.connects + 1) with error | source <;> rw [called] at again
    · exact ⟨again, reached.store_tried, by simp, rfl⟩
    · exact ⟨again, reached.store_tried, by simpa using called, rfl⟩
  · exact ⟨reached.bus_tried.idle k.le_succ, reached.store_tried, reached.source_eq, reached.metrics_eq⟩

theorem tryStore (reached : Reached bus store started k l p) :
    Reached bus store started k (l + 1) (tryStore (.scripted bus store) p) := by
  rcases p with ⟨source, _ | _, metrics, w⟩
  · obtain rfl : metrics = { started, busUp := source.isSome } := reached.metrics_eq
    exact ⟨reached.bus_tried, reached.store_tried.again, reached.source_eq, rfl⟩
  · exact ⟨reached.bus_tried, reached.store_tried.idle l.le_succ, reached.source_eq, reached.metrics_eq⟩

theorem attempt (reached : Reached bus store started k k p) :
    Reached bus store started (k + 1) (k + 1) (attempt (.scripted bus store) p) := by
  rw [attempt_eq]
  exact reached.tryBus.tryStore

theorem wait (reached : Reached bus store started k l p) (span : Span) :
    Reached bus store started k l
      { p with world := (StartupPorts.scripted bus store).sleep span p.world } :=
  ⟨reached.bus_tried, reached.store_tried, reached.source_eq, reached.metrics_eq⟩

/-- Both sides are up exactly if neither needed more attempts than there were. -/
theorem result_isOk (reached : Reached bus store started k k p) (attempts : UInt32) :
    (p.result attempts).isOk = true ↔ bothUp bus store ≤ k := by
  rw [bothUp, Progress.result_isOk, reached.bus_tried.succeeded_iff, reached.store_tried.succeeded_iff, max_le_iff]

/-- Once both sides are up, more attempts change nothing. -/
theorem settled {attempts : UInt32} {later : Nat} (reached : Reached bus store started k k p)
    (up : (p.result attempts).isOk = true) (after : k ≤ later) : Reached bus store started later later p := by
  obtain ⟨busUp, storeUp⟩ := (p.result_isOk attempts).mp up
  refine ⟨?_, ?_, reached.source_eq, reached.metrics_eq⟩
  · rw [busUp]
    exact (busUp ▸ reached.bus_tried).idle after
  · rw [storeUp]
    exact (storeUp ▸ reached.store_tried).idle after

end Reached

theorem waits_tryBus (bus : Nat → Except BusError β) (store : Nat → Bool) (p : Progress Asked β) :
    (tryBus (.scripted bus store) p).world.waits = p.world.waits := by
  rcases p with ⟨_ | source, storeUp, metrics, w⟩
  · rw [tryBus]
    dsimp only [StartupPorts.scripted, Option.isSome_none, Bool.false_eq_true, if_false]
    rcases bus (w.connects + 1) with error | source <;> rfl
  · rfl

theorem waits_attempt (bus : Nat → Except BusError β) (store : Nat → Bool) (p : Progress Asked β) :
    (attempt (.scripted bus store) p).world.waits = p.world.waits := by
  rw [attempt_eq, ← waits_tryBus bus store p]
  rcases tryBus (.scripted bus store) p with ⟨source, _ | _, metrics, w⟩ <;> rfl

variable (policy : StartupPolicy)

/-- When a side is still down after so many attempts, those that are left go on until both are up or to the last of
them, with one wait between each two. -/
theorem startFrom_eq (reached : Reached bus store started k k p) (waits : p.world.waits = .replicate k policy.interval)
    (down : (k : ℕ∞) < bothUp bus store) (left : Nat) :
    ∃ (n : Nat) (final : Progress Asked β), Reached bus store started (k + 1 + left) (k + 1 + left) final ∧
      final.world.waits = .replicate n policy.interval ∧
      (n + 1 : Nat) = min (bothUp bus store) (k + 1 + left : Nat) ∧
      policy.startFrom (.scripted bus store) left p =
        (final.result policy.attempts, final.metrics, final.world) := by
  -- What is reached is told at the number of the last attempt, also if startup is over before it: by then both sides
  -- are up and nothing is tried any more.
  induction left generalizing k p with
  | zero =>
    have least := (Nat.cast_succ k).trans_le (Order.add_one_le_of_lt down)
    exact ⟨k, _, reached.attempt, (waits_attempt bus store p).trans waits, (min_eq_right least).symm,
      startFrom_last policy (.inr rfl)⟩
  | succ left ih =>
    have next := reached.attempt
    have same := (waits_attempt bus store p).trans waits
    cases up : ((attempt (.scripted bus store) p).result policy.attempts).isOk with
    | true =>
      have least := (Nat.cast_succ k).trans_le (Order.add_one_le_of_lt down)
      have within := (next.result_isOk policy.attempts).mp up
      refine ⟨k, _, next.settled up (by omega), same, ?_, startFrom_last policy (.inl up)⟩
      rw [le_antisymm within least, min_eq_left (Nat.cast_le.mpr (by omega))]
    | false =>
      have still : ((k + 1 : Nat) : ℕ∞) < bothUp bus store := by
        rw [← not_le, ← next.result_isOk policy.attempts, up]
        exact Bool.false_ne_true
      have waited : (attempt (.scripted bus store) p).world.waits ++ [policy.interval] =
          .replicate (k + 1) policy.interval := by
        rw [same, List.replicate_succ']
      rw [startFrom_retry policy up, show k + 1 + (left + 1) = k + 1 + 1 + left by omega]
      exact ih (next.wait policy.interval) waited still

theorem toNat_attempts : policy.attempts.toNat = max policy.maxAttempts.toNat 1 :=
  UInt32.toNat_max _ _

/-- Startup, for any outcomes of the connections and of the pings, from new metrics on. It succeeds exactly if both
sides come up within the attempts, of which there is one at least. Then the source is that of the first connection
which succeeds, each side was tried up to its first success, and there was one wait less than attempts until the later
one. Otherwise each side was tried up to its first success or in every attempt, there was one wait less than attempts,
and the failure tells how many there were and which side is up. Either way the metrics show which side is up. -/
theorem start_exact (bus : Nat → Except BusError β) (store : Nat → Bool) (started : Instant) :
    let R := max policy.maxAttempts.toNat 1
    let b := firstSuccess fun k => (bus k).isOk
    let s := firstSuccess store
    ∃ result busUp storeUp asked,
      policy.start (.scripted bus store) { started } {} = (result, { started, busUp, storeUp }, asked) ∧
      (busUp = true ↔ b ≤ R) ∧ (storeUp = true ↔ s ≤ R) ∧
      (result.isOk = true ↔ max b s ≤ R) ∧
      asked.waits = .replicate asked.waits.length policy.interval ∧
      (∀ source, result = .ok source →
        asked.connects = b ∧ bus asked.connects = .ok source ∧ asked.pings = s ∧
          (asked.waits.length + 1 : Nat) = max b s) ∧
      (∀ failure, result = .error failure →
        asked.connects = min b R ∧ asked.pings = min s R ∧ asked.waits.length + 1 = R ∧
          failure.attempts.toNat = R ∧ failure.busUp = busUp ∧ failure.storeUp = storeUp ∧
          failure.message =
            s!"startup failed after {R} attempts (bus_connected={busUp}, sink_connected={storeUp})") := by
  intro R b s
  have attempts : 0 + 1 + (policy.attempts.toNat - 1) = R := by
    rw [policy.toNat_attempts]
    omega
  have down : ((0 : Nat) : ℕ∞) < bothUp bus store := lt_max_of_lt_left (zero_lt_firstSuccess _)
  obtain ⟨n, final, reached, waits, count, run⟩ :=
    policy.startFrom_eq (.start bus store started) rfl down (policy.attempts.toNat - 1)
  rw [attempts] at reached count
  rw [reached.metrics_eq] at run
  have success : (final.result policy.attempts).isOk = true ↔ max b s ≤ R := reached.result_isOk policy.attempts
  have length : final.world.waits.length = n := by
    rw [waits, List.length_replicate]
  refine ⟨_, _, _, _, run, reached.bus_tried.succeeded_iff, reached.store_tried.succeeded_iff,
    success, by rw [length, waits], fun source result => ?_, fun failure result => ?_⟩
  · have within : max b s ≤ R := success.mp (by rw [result]; rfl)
    have last := count.trans (min_eq_left within)
    rw [← length] at last
    exact ⟨reached.bus_tried.made_eq.trans (min_eq_left ((le_max_left b s).trans within)),
      reached.source_eq source (Progress.source_of_result result),
      reached.store_tried.made_eq.trans (min_eq_left ((le_max_right b s).trans within)), last⟩
  · have late : R < max b s := by
      rw [← not_le, ← success, result]
      exact Bool.false_ne_true
    have last := count.trans (min_eq_right late.le)
    rw [← length, Nat.cast_inj] at last
    obtain rfl := Progress.failure_of_result result
    refine ⟨reached.bus_tried.made_eq, reached.store_tried.made_eq, last, policy.toNat_attempts, rfl, rfl, ?_⟩
    rw [StartupFailure.message_eq, policy.toNat_attempts]

end Script

end StartupPolicy

end EventRelay
