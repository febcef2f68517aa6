import Mathlib.Data.ENat.Lattice

/-!
Trials that are made one after the other, and the first of them that succeeds. A trial may be made again in every round
until it succeeds; a success is kept, and the rounds after it are idle.
-/

namespace EventRelay

/-- The number of the first success among trials that are counted from 1; `⊤` if there is none. -/
noncomputable def firstSuccess (succeeds : Nat → Bool) : ℕ∞ :=
  ⨅ (k : Nat) (_ : 1 ≤ k ∧ succeeds k = true), (k : ℕ∞)

variable {succeeds : Nat → Bool} {k : Nat}

theorem firstSuccess_le_iff :
    firstSuccess succeeds ≤ k ↔ ∃ j, (1 ≤ j ∧ succeeds j = true) ∧ j ≤ k := by
  rw [← ENat.lt_natCast_add_one_iff, firstSuccess, iInf_lt_iff]
  refine exists_congr fun j => ?_
  rw [iInf_lt_iff, exists_prop, ENat.lt_natCast_add_one_iff, Nat.cast_le]

theorem zero_lt_firstSuccess (succeeds : Nat → Bool) : ((0 : Nat) : ℕ∞) < firstSuccess succeeds := by
  rw [← not_le, firstSuccess_le_iff]
  rintro ⟨j, ⟨positive, -⟩, none⟩
  omega

/-- One more trial makes the difference by its own success only. -/
theorem firstSuccess_le_succ_iff :
    firstSuccess succeeds ≤ (k + 1 : Nat) ↔ firstSuccess succeeds ≤ k ∨ succeeds (k + 1) = true := by
  rw [firstSuccess_le_iff, firstSuccess_le_iff]
  constructor
  · rintro ⟨j, success, within⟩
    rcases Nat.le_or_eq_of_le_succ within with before | rfl
    · exact .inl ⟨j, success, before⟩
    · exact .inr success.2
  · rintro (⟨j, success, before⟩ | success)
    · exact ⟨j, success, by omega⟩
    · exact ⟨k + 1, ⟨by omega, success⟩, le_rfl⟩

theorem succ_lt_firstSuccess (before : (k : ℕ∞) < firstSuccess succeeds) (failure : succeeds (k + 1) = false) :
    ((k + 1 : Nat) : ℕ∞) < firstSuccess succeeds := by
  rw [← not_le, firstSuccess_le_succ_iff, not_or]
  exact ⟨not_le.mpr before, by simp [failure]⟩

theorem succ_le_firstSuccess (before : (k : ℕ∞) < firstSuccess succeeds) :
    ((k + 1 : Nat) : ℕ∞) ≤ firstSuccess succeeds := by
  rw [Nat.cast_succ]
  exact Order.add_one_le_of_lt before

theorem firstSuccess_eq_succ (before : (k : ℕ∞) < firstSuccess succeeds) (success : succeeds (k + 1) = true) :
    firstSuccess succeeds = (k + 1 : Nat) :=
  le_antisymm (firstSuccess_le_succ_iff.mpr (.inr success)) (succ_le_firstSuccess before)

theorem firstSuccess_le (positive : 1 ≤ k) (success : succeeds k = true) : firstSuccess succeeds ≤ k :=
  firstSuccess_le_iff.mpr ⟨k, ⟨positive, success⟩, le_rfl⟩

theorem success_of_firstSuccess (first : firstSuccess succeeds = k) : succeeds k = true := by
  obtain ⟨j, ⟨positive, success⟩, within⟩ := firstSuccess_le_iff.mp first.le
  have least := firstSuccess_le positive success
  rw [first, Nat.cast_le] at least
  obtain rfl : j = k := by omega
  exact success

/-- A trial that is made again in every round until it succeeds: how often it was made in so many rounds, and whether it
has succeeded. -/
structure Tried (succeeds : Nat → Bool) (rounds made : Nat) (succeeded : Bool) : Prop where
  made_eq : (made : ℕ∞) = min (firstSuccess succeeds) rounds
  succeeded_iff : succeeded = true ↔ firstSuccess succeeds ≤ rounds

namespace Tried

variable {rounds made : Nat} {succeeded : Bool}

theorem start (succeeds : Nat → Bool) : Tried succeeds 0 0 false where
  made_eq := (min_eq_right (zero_lt_firstSuccess succeeds).le).symm
  succeeded_iff := by simpa using (zero_lt_firstSuccess succeeds).ne'

theorem first (tried : Tried succeeds rounds made true) : firstSuccess succeeds = made := by
  rw [tried.made_eq, min_eq_left (tried.succeeded_iff.mp rfl)]

theorem idle {later : Nat} (tried : Tried succeeds rounds made true) (after : rounds ≤ later) :
    Tried succeeds later made true := by
  have within : firstSuccess succeeds ≤ later :=
    (tried.succeeded_iff.mp rfl).trans (Nat.cast_le.mpr after)
  exact ⟨by rw [min_eq_left within, tried.first], iff_of_true rfl within⟩

/-- The trial is made again. Until now there was one in each round. -/
theorem again (tried : Tried succeeds rounds made false) :
    Tried succeeds (rounds + 1) (made + 1) (succeeds (made + 1)) := by
  have before : (rounds : ℕ∞) < firstSuccess succeeds := by
    rw [← not_le, ← tried.succeeded_iff]
    exact Bool.false_ne_true
  -- It never succeeded, so no round was idle and the next trial has the number of the next round.
  obtain rfl : made = rounds := by
    rw [← Nat.cast_inj (R := ℕ∞), tried.made_eq, min_eq_right before.le]
  refine ⟨(min_eq_right (succ_le_firstSuccess before)).symm, ?_⟩
  rw [firstSuccess_le_succ_iff, or_iff_right (not_le.mpr before)]

end Tried

end EventRelay
