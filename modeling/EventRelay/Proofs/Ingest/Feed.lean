import EventRelay.Proofs.Ingest.Shutdown
import EventRelay.Proofs.Ingest.Turns

/-!
Sources with so many deliveries left to bring and no more. A run over such a source ends: each turn
brings a delivery or uses up one of the chances that a batch has to be written.
-/

namespace EventRelay

variable {σ α : Type}

/-- The deliveries carry the payloads, as messages of one partition at consecutive offsets from the given one
on, and timeouts may come in between. -/
inductive Carries (k : Partition) : Nat → List Bytes → List Delivery → Prop
  | done {i} : Carries k i [] []
  | timeout {i payloads rest} : Carries k i payloads rest → Carries k i payloads (.timeout :: rest)
  | message {i payload payloads rest} : Carries k (i + 1) payloads rest →
      Carries k i (payload :: payloads) (.message payload ⟨k, .ofNat i⟩ :: rest)

theorem Carries.payload_mem {k : Partition} {i : Nat} {payloads : List Bytes} {deliveries : List Delivery}
    (carried : Carries k i payloads deliveries) {payload : Bytes} {position : Position}
    (member : .message payload position ∈ deliveries) : payload ∈ payloads := by
  induction carried with
  | done => cases member
  | timeout _ ih => exact ih (by simpa using member)
  | message _ ih =>
    rcases List.mem_cons.mp member with same | later
    · cases same
      exact List.mem_cons_self
    · exact List.mem_cons_of_mem _ (ih later)

/-- A poll takes the next delivery from those that are left. Nothing else takes any, and the flag that
ends a run is raised once there are none. -/
structure Ports.Feeds (io : Ports σ) (raised : σ → Bool) (left : σ → List Delivery) : Prop where
  keeps : io.Keeps left
  poll : ∀ wait w delivery rest, left w = delivery :: rest →
    (io.reader.poll wait w).1 = delivery ∧ left (io.reader.poll wait w).2 = rest
  raised : ∀ w, raised w = (left w).isEmpty

/-- A poll takes the next delivery from those that are left, nothing else takes any or brings more, and the flag
that ends a run is raised at the latest when there are none. -/
structure Ports.RunsDry (io : Ports σ) (raised : σ → Bool) (left : σ → List Delivery) : Prop where
  keeps : io.Keeps left
  poll : ∀ wait w delivery rest, left w = delivery :: rest →
    (io.reader.poll wait w).1 = delivery ∧ left (io.reader.poll wait w).2 = rest
  raised : ∀ w, left w = [] → raised w = true

theorem Ports.Feeds.runsDry {io : Ports σ} {raised : σ → Bool} {left : σ → List Delivery}
    (feeds : io.Feeds raised left) : io.RunsDry raised left :=
  ⟨feeds.keeps, feeds.poll, fun w none => by simp [feeds.raised, none]⟩

theorem Ports.Keeps.recorded {io : Ports σ} {view : σ → α} (keeps : io.Keeps view) :
    io.recorded.Keeps fun r => view r.world :=
  ⟨fun rows r => keeps.insert rows r.world, fun positions r => keeps.commit positions r.world,
    fun r => keeps.moment r.world, fun r => keeps.instant r.world⟩

namespace Script

/-- What the deliveries of a script come to: its arrivals up to the one that raises the flag, or else all of
them and a timeout. -/
def leftOf : List Arrival → List Delivery
  | [] => [.timeout]
  | a :: rest => a.delivery :: if a.shutdown then [] else leftOf rest

def left (s : Script) : List Delivery :=
  if s.shutdown then [] else leftOf s.arrivals

theorem ports_feeds : ports.Feeds Script.shutdown left := by
  refine ⟨⟨fun rows s => ?_, fun positions s => ?_, fun _ => rfl, fun _ => rfl⟩, ?_, fun s => ?_⟩
  · simp only [ports, store, insert]
    split <;> rfl
  · simp only [ports, reader, commit]
    split <;> rfl
  · intro wait s delivery rest some
    have down : s.shutdown = false := by
      cases up : s.shutdown with
      | false => rfl
      | true => simp [left, up] at some
    simp only [left, down, Bool.false_eq_true, if_false] at some
    simp only [ports, reader, poll]
    split
    · rename_i none
      rw [none] at some
      cases some
      exact ⟨rfl, rfl⟩
    · rename_i a arrivals found
      rw [found] at some
      cases some
      exact ⟨rfl, by simp [left, down]⟩
  · unfold left
    split
    · simp_all
    · simp only [Bool.not_eq_true] at *
      cases s.arrivals <;> simp_all [leftOf]

end Script

namespace Consumer

/-- A batch that was not written is kept only as long as it has chances left. -/
def Retains (c : Consumer (Recorded σ)) : Prop :=
  c.batch.failures ≠ 0 → c.batch.rows ≠ [] ∧ c.batch.failures < c.settings.maxFlushes

theorem Move.retains {io : Ports σ} {c d : Consumer (Recorded σ)} (move : Move io c d) (retains : c.Retains) :
    d.Retains := by
  cases move with
  | skip _ fine => exact fun failed => absurd fine failed
  | take _ fine => exact fun failed => absurd fine failed
  | write => exact fun failed => absurd rfl failed
  | retain some _ spare => exact fun _ => ⟨some, UInt32.not_le.mp spare⟩
  | drop => exact fun failed => absurd rfl failed
  | abandon => exact fun failed => absurd rfl failed
  | _ => exact retains

/-- The count of failed inserts does not come round to zero, since it stays below the flushes allowed. -/
theorem Retains.toNat_failures_succ {c : Consumer (Recorded σ)} (retains : c.Retains) :
    (c.batch.failures + 1).toNat = c.batch.failures.toNat + 1 := by
  have size := c.settings.maxFlushes.toNat_lt
  have count : c.batch.failures.toNat + 1 < 2 ^ 32 := by
    by_cases fine : c.batch.failures = 0
    · simp [fine]
    · have spare := UInt32.lt_iff_toNat_lt.mp (retains fine).2
      omega
  rw [UInt32.toNat_add, UInt32.toNat_one, Nat.mod_eq_of_lt count]

/-- How often a batch that is kept can be handed to the store again. -/
def chances (c : Consumer (Recorded σ)) : Nat :=
  if c.batch.failures = 0 then 0 else c.settings.maxFlushes.toNat - c.batch.failures.toNat

theorem chances_le (c : Consumer (Recorded σ)) : c.chances ≤ c.settings.maxFlushes.toNat := by
  unfold chances
  split <;> omega

theorem step_settings (io : Ports σ) (c : Consumer (Recorded σ)) :
    (c.step io.recorded).settings = c.settings :=
  (step_moves io c).preserves (fun move same => move.settings.trans same) rfl

theorem step_retains (io : Ports σ) {c : Consumer (Recorded σ)} (retains : c.Retains) :
    (c.step io.recorded).Retains :=
  (step_moves io c).preserves (fun move => move.retains) retains

/-- Another flush of a batch takes a chance from it. -/
theorem step_chances (io : Ports σ) {c : Consumer (Recorded σ)} (consuming : c.phase = .consuming)
    (retains : c.Retains) (failed : c.batch.failures ≠ 0) : (c.step io.recorded).chances < c.chances := by
  obtain ⟨some, spare⟩ := retains failed
  have below := UInt32.lt_iff_toNat_lt.mp spare
  have before : c.chances = c.settings.maxFlushes.toNat - c.batch.failures.toNat := if_neg failed
  rw [step_again io.recorded consuming failed]
  rcases flush_cases io some with ⟨_, d, _, run, _, emptied, _⟩ | ⟨written, w, _, left, _, run⟩
  · have none : d.chances = 0 := if_pos (by rw [emptied]; rfl)
    rw [run]
    change d.chances < c.chances
    omega
  · have next := retains.toNat_failures_succ
    have after : (c.failed (c.world.after w [.insert c.batch.rows written])).chances =
        c.settings.maxFlushes.toNat - (c.batch.failures + 1).toNat := by
      refine if_neg fun zero => ?_
      have none : (c.batch.failures + 1).toNat = 0 := congrArg UInt32.toNat zero
      omega
    rw [run]
    change (c.failed (c.world.after w [.insert c.batch.rows written])).chances < c.chances
    omega

/-- A consumer that has nothing to flush again takes a delivery. -/
theorem step_left {io : Ports σ} {left : σ → List Delivery} (keeps : io.Keeps left) {c : Consumer (Recorded σ)}
    (consuming : c.phase = .consuming) (fine : c.batch.failures = 0) :
    left (c.step io.recorded).world.world = left (io.reader.poll c.settings.pollWait c.world.world).2 := by
  rw [step_polled consuming fine rfl]
  exact congrArg Prod.snd (react_shown keeps.recorded _ _)

/-- A consumer that flushes a batch again leaves all deliveries where they are. -/
theorem step_left_of_failed {io : Ports σ} {left : σ → List Delivery} (keeps : io.Keeps left)
    {c : Consumer (Recorded σ)} (consuming : c.phase = .consuming) (failed : c.batch.failures ≠ 0) :
    left (c.step io.recorded).world.world = left c.world.world := by
  rw [step_again io.recorded consuming failed]
  exact congrArg Prod.snd (flush_shown keeps.recorded c)

/-- A run that finds the flag raised is over. -/
theorem runFor_raised {io : Ports σ} {raised : σ → Bool} {turns : Nat} {c d : Consumer σ} (up : raised c.world = true)
    (run : c.runFor io raised turns = some d) : d = c.drain io := by
  cases turns with
  | zero => simp [runFor] at run
  | succ turns => simpa [runFor, up, eq_comm] using run

/-- A run that finds a delivery left goes on after one turn. -/
theorem runFor_step {io : Ports σ} {raised : σ → Bool} {left : σ → List Delivery} (feeds : io.Feeds raised left)
    {turns : Nat} {c d : Consumer (Recorded σ)} (consuming : c.phase = .consuming) (some : left c.world.world ≠ [])
    (run : c.runFor io.recorded (fun r => raised r.world) (turns + 1) = .some d) :
    (c.step io.recorded).runFor io.recorded (fun r => raised r.world) turns = .some d := by
  have lowered : raised c.world.world = false := by rw [feeds.raised]; simpa using some
  simpa only [runFor, consuming, lowered, Bool.not_false, decide_true, Bool.and_true, if_true] using run

/-- If that turn polls, what is left for the others is what comes after the delivery. -/
theorem runFor_turn {io : Ports σ} {raised : σ → Bool} {left : σ → List Delivery} (feeds : io.Feeds raised left)
    {turns : Nat} {c d : Consumer (Recorded σ)} (consuming : c.phase = .consuming) (fine : c.batch.failures = 0)
    {delivery : Delivery} {others : List Delivery} (found : left c.world.world = delivery :: others)
    (run : c.runFor io.recorded (fun r => raised r.world) (turns + 1) = some d) :
    ∃ w, io.reader.poll c.settings.pollWait c.world.world = (delivery, w) ∧
      left (c.step io.recorded).world.world = others ∧
      (c.step io.recorded).runFor io.recorded (fun r => raised r.world) turns = some d := by
  obtain ⟨brought, shorter⟩ := feeds.poll c.settings.pollWait c.world.world delivery others found
  exact ⟨_, Prod.ext brought rfl, (step_left feeds.keeps consuming fine).trans shorter,
    runFor_step feeds consuming (by simp [found]) run⟩

/-- Turns that a consumer can take: those that bring a delivery, and the flushes that may follow each. -/
def turnsLeft (left : σ → List Delivery) (c : Consumer (Recorded σ)) : Nat :=
  (left c.world.world).length * (c.settings.maxFlushes.toNat + 1) + c.chances

theorem step_turnsLeft {io : Ports σ} {raised : σ → Bool} {left : σ → List Delivery} (dry : io.RunsDry raised left)
    {c : Consumer (Recorded σ)} (consuming : c.phase = .consuming) (retains : c.Retains)
    (lowered : raised c.world.world = false) : (c.step io.recorded).turnsLeft left < c.turnsLeft left := by
  have same : (c.step io.recorded).settings.maxFlushes.toNat = c.settings.maxFlushes.toNat := by rw [step_settings]
  by_cases fine : c.batch.failures = 0
  · cases some : left c.world.world with
    | nil => simp [dry.raised _ some] at lowered
    | cons delivery rest =>
      have taken := (step_left dry.keeps consuming fine).trans
        (dry.poll c.settings.pollWait c.world.world delivery rest some).2
      have bound := (c.step io.recorded).chances_le
      rw [turnsLeft, turnsLeft, taken, some, same, List.length_cons, Nat.succ_mul]
      omega
  · have fewer := step_chances io consuming retains fine
    rw [turnsLeft, turnsLeft, step_left_of_failed dry.keeps consuming fine, same]
    omega

/-- More turns than the consumer can take are enough for its run. -/
theorem exists_runFor {io : Ports σ} {raised : σ → Bool} {left : σ → List Delivery} (dry : io.RunsDry raised left)
    {turns : Nat} {c : Consumer (Recorded σ)} (retains : c.Retains) (enough : c.turnsLeft left < turns) :
    ∃ d, c.runFor io.recorded (fun r => raised r.world) turns = some d := by
  induction turns generalizing c with
  | zero => omega
  | succ turns ih =>
    simp only [runFor]
    split
    · rename_i active
      simp only [Bool.and_eq_true, Bool.not_eq_true', decide_eq_true_eq] at active
      have fewer := step_turnsLeft dry active.2 retains active.1
      exact ih (step_retains io retains) (by omega)
    · exact ⟨_, rfl⟩

/-- The turns that are allowed for what is left are more than the consumer can take. -/
theorem turnsLeft_lt (left : σ → List Delivery) (c : Consumer (Recorded σ)) :
    c.turnsLeft left < turnsFor c.settings (left c.world.world).length := by
  have bound := c.chances_le
  rw [turnsLeft, turnsFor, Nat.add_mul]
  omega

/-- A run over a source with so many deliveries left ends within the turns that are allowed for them. -/
theorem exists_runFor_turnsFor {io : Ports σ} {raised : σ → Bool} {left : σ → List Delivery}
    (feeds : io.Feeds raised left) (settings : BatchPolicy) (metrics : Metrics) (w : σ) :
    ∃ d, (fresh settings metrics w).runFor io.recorded (fun r => raised r.world)
      (turnsFor settings (left w).length) = some d :=
  exists_runFor feeds.runsDry (fun failed => absurd rfl failed) (turnsLeft_lt left (fresh settings metrics w))

end Consumer

end EventRelay
