import EventRelay.Proofs.Time.Spans
import EventRelay.Store.Backoff
import Mathlib.Algebra.Group.Nat.Defs

/-!
Waits that double. The wait after an attempt is the first wait times a power of two, in exact nanoseconds and for every
attempt that a word counts. It stops growing at two bounds, the greatest factor and the longest span, and nothing wraps
around on the way to them.
-/

namespace EventRelay

namespace Backoff

/-- What the first wait is multiplied by after an attempt: it doubles from 1 on, up to the greatest word. Attempt 0
counts as the first one. -/
def factor (attempt : Nat) : Nat :=
  min (2 ^ (max attempt 1 - 1)) (2 ^ 32 - 1)

theorem factor_mono {m n : Nat} (order : m ≤ n) : factor m ≤ factor n := by
  have power : 2 ^ (max m 1 - 1) ≤ 2 ^ (max n 1 - 1) := Nat.pow_le_pow_right (by decide) (by omega)
  unfold factor
  omega

/-- The factors double up to 2^31. The one after that is the greatest word, which is one short of 2^32. -/
theorem factor_succ {n : Nat} (counted : 1 ≤ n) (few : n ≤ 31) : factor (n + 1) = 2 * factor n := by
  obtain ⟨k, rfl⟩ : ∃ k, n = k + 1 := ⟨n - 1, by omega⟩
  have power : 2 ^ (k + 1) ≤ 2 ^ 31 := Nat.pow_le_pow_right (by decide) few
  have before : max (k + 1) 1 - 1 = k := by omega
  have after : max (k + 1 + 1) 1 - 1 = k + 1 := by omega
  rw [factor, factor, before, after]
  omega

/-- How often the first wait has doubled after an attempt, as a word. -/
def doublings (attempt : UInt32) : UInt32 :=
  if attempt = 0 then 0 else attempt - 1

theorem toNat_doublings (attempt : UInt32) : (doublings attempt).toNat = max attempt.toNat 1 - 1 := by
  unfold doublings
  by_cases zero : attempt = 0
  · rw [if_pos zero, zero]
    rfl
  · have positive : 0 < attempt.toNat := Nat.pos_of_ne_zero fun same => zero (UInt32.toNat_inj.mp same)
    have order : (1 : UInt32) ≤ attempt := UInt32.le_iff_toNat_le.mpr positive
    rw [if_neg zero, UInt32.toNat_sub_of_le _ _ order, Nat.max_eq_left positive, UInt32.toNat_one]

theorem toNat_powerOfTwo (n : UInt32) : (powerOfTwo n).toNat = min (2 ^ n.toNat) (2 ^ 32 - 1) := by
  unfold powerOfTwo
  by_cases few : n < 32
  · have bits : n.toNat < 32 := UInt32.lt_iff_toNat_lt.mp few
    have power : 2 ^ n.toNat < 2 ^ 32 := Nat.pow_lt_pow_right (by decide) bits
    rw [if_pos few, UInt32.toNat_shiftLeft, Nat.mod_eq_of_lt bits, UInt32.toNat_one, Nat.one_shiftLeft,
      Nat.mod_eq_of_lt power, Nat.min_eq_left (Nat.le_sub_one_of_lt power)]
  · have bits : 32 ≤ n.toNat := Nat.le_of_not_lt fun less => few (UInt32.lt_iff_toNat_lt.mpr less)
    have power : 2 ^ 32 ≤ 2 ^ n.toNat := Nat.pow_le_pow_right (by decide) bits
    rw [if_neg few, Nat.min_eq_right (by omega)]
    rfl

variable (b : Backoff) (attempt : UInt32)

/-- The words that a wait is worked out in hold the numbers they stand for: how often the first wait has doubled, the
factor that this makes, and what comes up in the product with it. -/
structure Unwrapped : Prop where
  wait_eq : b.waitAfter attempt = b.firstWait.saturatingMul (powerOfTwo (doublings attempt))
  doublings_eq : (doublings attempt).toNat = max attempt.toNat 1 - 1
  factor_eq : (powerOfTwo (doublings attempt)).toNat = factor attempt.toNat
  product : b.firstWait.Unwrapped (powerOfTwo (doublings attempt))

theorem unwrapped : b.Unwrapped attempt where
  wait_eq := rfl
  doublings_eq := toNat_doublings attempt
  factor_eq := by rw [toNat_powerOfTwo, toNat_doublings, factor]
  product := b.firstWait.unwrapped _

theorem toNanos_waitAfter : (b.waitAfter attempt).toNanos =
    min (b.firstWait.toNanos * factor attempt.toNat) Span.longest.toNanos := by
  have words := b.unwrapped attempt
  rw [words.wait_eq, Span.toNanos_saturatingMul, words.factor_eq]

variable {b attempt}

theorem toNanos_waitAfter_mono {b' : Backoff} {later : UInt32} (base : b.firstWait.toNanos ≤ b'.firstWait.toNanos)
    (order : attempt ≤ later) : (b.waitAfter attempt).toNanos ≤ (b'.waitAfter later).toNanos := by
  have product := Nat.mul_le_mul base (factor_mono (UInt32.le_iff_toNat_le.mp order))
  rw [toNanos_waitAfter, toNanos_waitAfter]
  omega

theorem toNanos_waitAfter_succ (counted : 1 ≤ attempt) (few : attempt ≤ 31) :
    (b.waitAfter (attempt + 1)).toNanos = min (2 * (b.waitAfter attempt).toNanos) Span.longest.toNanos := by
  have upper : attempt.toNat ≤ 31 := UInt32.le_iff_toNat_le.mp few
  have next : (attempt + 1).toNat = attempt.toNat + 1 := by
    rw [UInt32.toNat_add, UInt32.toNat_one, Nat.mod_eq_of_lt (by omega)]
  rw [toNanos_waitAfter, toNanos_waitAfter, next, factor_succ (UInt32.le_iff_toNat_le.mp counted) upper,
    Nat.mul_left_comm]
  omega

variable (b attempt)

/-- The wait after an attempt, for any first wait and any attempt. It is the first wait times a power of two that grows
up to the greatest word, or else the longest span if that is less, and the words it is worked out in do not wrap around.
A later attempt or a longer first wait makes no shorter wait. As long as the power of two is a word, the next wait is
twice this one or the longest span. -/
theorem waitAfter_exact :
    (b.waitAfter attempt).toNanos =
        min (b.firstWait.toNanos * min (2 ^ (max attempt.toNat 1 - 1)) (2 ^ 32 - 1)) Span.longest.toNanos ∧
      b.Unwrapped attempt ∧
      (∀ later, attempt ≤ later → (b.waitAfter attempt).toNanos ≤ (b.waitAfter later).toNanos) ∧
      (∀ longer : Backoff, b.firstWait.toNanos ≤ longer.firstWait.toNanos →
        (b.waitAfter attempt).toNanos ≤ (longer.waitAfter attempt).toNanos) ∧
      (1 ≤ attempt → attempt ≤ 31 →
        (b.waitAfter (attempt + 1)).toNanos = min (2 * (b.waitAfter attempt).toNanos) Span.longest.toNanos) := by
  refine ⟨b.toNanos_waitAfter attempt, b.unwrapped attempt, fun later order => ?_, fun longer base => ?_,
    toNanos_waitAfter_succ⟩
  · exact toNanos_waitAfter_mono (Nat.le_refl _) order
  · exact toNanos_waitAfter_mono base (UInt32.le_refl _)

/-- The longest first wait whose product with the greatest factor is a span: 2^32 + 1 seconds. -/
def brimming : Backoff :=
  ⟨3, .ofSeconds 4294967297⟩

/-- One nanosecond more: the product of the seconds still is a word, but not with the seconds that are carried. -/
def overflowing : Backoff :=
  ⟨3, ⟨4294967297, 1, by decide⟩⟩

theorem waitAfter_exact_brimming :
    (brimming.waitAfter 33).toNanos = (2 ^ 64 - 1) * 1000000000 ∧
      (overflowing.waitAfter 33).toNanos = Span.longest.toNanos ∧
      (33 : UInt32) ≤ 4294967295 ∧
      (overflowing.waitAfter 33).toNanos ≤ (overflowing.waitAfter 4294967295).toNanos ∧
      brimming.firstWait.toNanos ≤ overflowing.firstWait.toNanos ∧
      (brimming.waitAfter 32).toNanos ≤ (overflowing.waitAfter 32).toNanos ∧
      (1 : UInt32) ≤ 31 ∧ (31 : UInt32) ≤ 31 ∧
      (overflowing.waitAfter (31 + 1)).toNanos =
        min (2 * (overflowing.waitAfter 31).toNanos) Span.longest.toNanos := by
  have later : (33 : UInt32) ≤ 4294967295 := by decide
  have longer : brimming.firstWait.toNanos ≤ overflowing.firstWait.toNanos := by decide
  have counted : (1 : UInt32) ≤ 31 := by decide
  have few : (31 : UInt32) ≤ 31 := by decide
  refine ⟨?_, ?_, later, (waitAfter_exact overflowing 33).2.2.1 _ later, longer,
    (waitAfter_exact brimming 32).2.2.2.1 _ longer, counted, few, (waitAfter_exact overflowing 31).2.2.2.2 counted few⟩
  · exact (waitAfter_exact brimming 33).1.trans (by decide)
  · exact (waitAfter_exact overflowing 33).1.trans (by decide)

end Backoff

end EventRelay
