import EventRelay.Proofs.Store.Attempts
import EventRelay.Proofs.Trials

/-!
Repeating an operation, call by call. The calls are counted from 1 and go up to the first success or to the last
attempt, whichever comes first; between two calls there is one wait.
-/

namespace EventRelay

namespace Backoff

variable {σ ε α : Type}

/-- What is done while an operation is repeated: a call, which is told a number, and a wait. -/
inductive Act (ε α : Type)
  | call (attempt : UInt32) (outcome : Except ε α)
  | wait (span : Span)

/-- An operation that keeps a record of its calls. -/
def recordedCall (operation : UInt32 → σ → Except ε α × σ) (attempt : UInt32) (r : σ × List (Act ε α)) :
    Except ε α × (σ × List (Act ε α)) :=
  let (outcome, w) := operation attempt r.1
  (outcome, (w, r.2 ++ [.call attempt outcome]))

/-- Waiting with a record of the waits. -/
def recordedWait (sleep : Span → σ → σ) (span : Span) (r : σ × List (Act ε α)) : σ × List (Act ε α) :=
  (sleep span r.1, r.2 ++ [.wait span])

section Calls

variable (b : Backoff) (operation : UInt32 → σ → Except ε α × σ) (sleep : Span → σ → σ) (s : σ)

/-- What lies outside after so many calls, each with the wait after it. -/
def worldAfter : Nat → σ
  | 0 => s
  | k + 1 => sleep (b.waitAfter (.ofNat (k + 1))) (operation (.ofNat (k + 1)) (worldAfter k)).2

/-- What comes of the call with a number, counted from 1, when there were calls before it and waits after them. -/
def outcome (k : Nat) : Except ε α :=
  (operation (.ofNat k) (b.worldAfter operation sleep s (k - 1))).1

/-- The number of the first call that succeeds. -/
noncomputable def firstOk : ℕ∞ :=
  firstSuccess fun k => (b.outcome operation sleep s k).isOk

/-- What is done in so many calls, each with the wait after it. -/
def acts (k : Nat) : List (Act ε α) :=
  (List.range' 1 k).flatMap fun j =>
    [.call (.ofNat j) (b.outcome operation sleep s j), .wait (b.waitAfter (.ofNat j))]

variable {b operation sleep s}

/-- When no call has succeeded so far, the calls that are left go on to the first success or to the last of them. -/
theorem runFrom_eq {k : Nat} (before : (k : ℕ∞) < b.firstOk operation sleep s) (left : Nat) :
    ∃ m : Nat, ((m + 1 : Nat) : ℕ∞) = min (b.firstOk operation sleep s) (k + 1 + left : Nat) ∧
      b.runFrom operation sleep left (.ofNat (k + 1)) (b.worldAfter operation sleep s k) =
        operation (.ofNat (m + 1)) (b.worldAfter operation sleep s m) := by
  -- A call that fails leaves the first success ahead of the next call, so the hypothesis goes along with the calls.
  induction left generalizing k with
  | zero =>
    refine ⟨k, (min_eq_right (succ_le_firstSuccess before)).symm, ?_⟩
    unfold runFrom
    rcases operation (.ofNat (k + 1)) (b.worldAfter operation sleep s k) with ⟨error | value, w⟩ <;> rfl
  | succ left ih =>
    rcases called : operation (.ofNat (k + 1)) (b.worldAfter operation sleep s k) with ⟨error | value, w⟩
    · have failure : (b.outcome operation sleep s (k + 1)).isOk = false := by
        rw [outcome, Nat.add_sub_cancel, called]
        rfl
      obtain ⟨m, count, run⟩ := ih (succ_lt_firstSuccess before failure)
      have world : b.worldAfter operation sleep s (k + 1) = sleep (b.waitAfter (.ofNat (k + 1))) w := by
        rw [worldAfter, called]
      have rest : k + 1 + 1 + left = k + 1 + (left + 1) := by omega
      refine ⟨m, by rw [count, rest], ?_⟩
      unfold runFrom
      rw [called, ← run, world, UInt32.ofNat_add (k + 1)]
      rfl
    · have success : (b.outcome operation sleep s (k + 1)).isOk = true := by
        rw [outcome, Nat.add_sub_cancel, called]
        rfl
      have first : b.firstOk operation sleep s = (k + 1 : Nat) := firstSuccess_eq_succ before success
      refine ⟨k, ?_, ?_⟩
      · rw [first, min_eq_left (Nat.cast_le.mpr (by omega))]
      · unfold runFrom
        rw [called]

theorem acts_succ (k : Nat) : b.acts operation sleep s (k + 1) = b.acts operation sleep s k ++
    [.call (.ofNat (k + 1)) (b.outcome operation sleep s (k + 1)), .wait (b.waitAfter (.ofNat (k + 1)))] := by
  rw [acts, List.range'_1_concat, List.flatMap_append, Nat.add_comm 1 k, List.flatMap_singleton]
  rfl

/-- A record that is kept changes nothing else, and it has the acts in it. -/
theorem worldAfter_recorded (k : Nat) :
    b.worldAfter (recordedCall operation) (recordedWait sleep) (s, []) k =
      (b.worldAfter operation sleep s k, b.acts operation sleep s k) := by
  induction k with
  | zero => rfl
  | succ k ih =>
    rw [worldAfter, ih, acts_succ]
    simp [recordedCall, recordedWait, worldAfter, outcome]

theorem outcome_recorded (k : Nat) :
    b.outcome (recordedCall operation) (recordedWait sleep) (s, []) k = b.outcome operation sleep s k := by
  rw [outcome, worldAfter_recorded]
  rfl

theorem firstOk_recorded :
    b.firstOk (recordedCall operation) (recordedWait sleep) (s, []) = b.firstOk operation sleep s := by
  simp only [firstOk, outcome_recorded]

theorem toNat_attempts : b.attempts.toNat = max b.maxAttempts.toNat 1 :=
  UInt32.toNat_max _ _

variable (b operation sleep s)

theorem run_eq :
    ∃ m : Nat, ((m + 1 : Nat) : ℕ∞) = min (b.firstOk operation sleep s) (max b.maxAttempts.toNat 1 : Nat) ∧
      b.run operation sleep s = operation (.ofNat (m + 1)) (b.worldAfter operation sleep s m) := by
  have attempts : 0 + 1 + (b.attempts.toNat - 1) = max b.maxAttempts.toNat 1 := by
    rw [toNat_attempts]
    omega
  have before : ((0 : Nat) : ℕ∞) < b.firstOk operation sleep s := zero_lt_firstSuccess _
  rw [← attempts]
  exact runFrom_eq before (b.attempts.toNat - 1)

/-- Repeating an operation, for any outcomes of its calls. It is called up to the first success, and no more often than
there are attempts, of which there is one at least. The calls are told 1, 2, 3 and so on, each number as it is, and
after each of them but the last one there is the wait of its number. What the last call gives is the result, which is a
value exactly if the first success lies within the attempts. -/
theorem run_exact :
    ∃ n : Nat, 1 ≤ n ∧ (n : ℕ∞) = min (b.firstOk operation sleep s) (max b.maxAttempts.toNat 1 : Nat) ∧
      b.run operation sleep s = operation (.ofNat n) (b.worldAfter operation sleep s (n - 1)) ∧
      b.run (recordedCall operation) (recordedWait sleep) (s, []) =
        (b.outcome operation sleep s n, ((b.run operation sleep s).2,
          ((List.range' 1 (n - 1)).flatMap fun k =>
            [.call (.ofNat k) (b.outcome operation sleep s k), .wait (b.waitAfter (.ofNat k))]) ++
            [.call (.ofNat n) (b.outcome operation sleep s n)])) ∧
      (∀ k ≤ n, (UInt32.ofNat k).toNat = k) ∧
      ((b.outcome operation sleep s n).isOk = true ↔
        b.firstOk operation sleep s ≤ (max b.maxAttempts.toNat 1 : Nat)) := by
  obtain ⟨m, count, run⟩ := b.run_eq operation sleep s
  obtain ⟨m', count', recorded⟩ := b.run_eq (recordedCall operation) (recordedWait sleep) (s, [])
  rw [firstOk_recorded, ← count, Nat.cast_inj] at count'
  obtain rfl : m = m' := by omega
  have least : m + 1 ≤ max b.maxAttempts.toNat 1 := by
    rw [← Nat.cast_le (α := ℕ∞), count]
    exact min_le_right _ _
  refine ⟨m + 1, by omega, count, run, ?_, ?_, fun success => ?_, fun within => ?_⟩
  · rw [recorded, worldAfter_recorded, run]
    rfl
  · intro k within
    have word := b.maxAttempts.toNat_lt
    exact UInt32.toNat_ofNat_of_lt' (by simp only [UInt32.size]; omega)
  · refine (firstSuccess_le (by omega) success).trans (Nat.cast_le.mpr least)
  · rw [min_eq_left within] at count
    exact success_of_firstSuccess count.symm

end Calls

end Backoff

end EventRelay
