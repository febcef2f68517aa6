import EventRelay.Time.Span

/-!
Spans as numbers. A span is known by its nanoseconds, of which there is every number up to the longest span's. It is
multiplied in words, seconds and nanoseconds apart, and what comes out is the product of the numbers or, where that is
too large, the longest span.
-/

namespace EventRelay

namespace Span

variable {d e p : Span} {k : UInt32} {n : Nat}

theorem toNanos_longest : longest.toNanos = 0x10000000000000000 * 1000000000 - 1 :=
  rfl

theorem toNanos_le_longest (d : Span) : d.toNanos ≤ longest.toNanos := by
  have seconds := d.seconds.toNat_lt
  have nanos := d.nanos_lt
  rw [toNanos_longest, toNanos]
  omega

theorem toNanos_div (d : Span) : d.toNanos / 1000000000 = d.seconds.toNat := by
  have nanos := d.nanos_lt
  rw [toNanos]
  omega

theorem toNanos_mod (d : Span) : d.toNanos % 1000000000 = d.nanos.toNat := by
  have nanos := d.nanos_lt
  rw [toNanos]
  omega

theorem toNanos_injective (same : d.toNanos = e.toNanos) : d = e := by
  have seconds : d.seconds = e.seconds := by
    rw [← UInt64.toNat_inj, ← d.toNanos_div, ← e.toNanos_div, same]
  have nanos : d.nanos = e.nanos := by
    rw [← UInt32.toNat_inj, ← d.toNanos_mod, ← e.toNanos_mod, same]
  cases d
  cases e
  cases seconds
  cases nanos
  rfl

theorem exists_toNanos (within : n ≤ longest.toNanos) : ∃ d : Span, d.toNanos = n := by
  rw [toNanos_longest] at within
  have word : n / 1000000000 < UInt64.size := by
    rw [UInt64.size]
    omega
  refine ⟨⟨.ofNat (n / 1000000000), (fraction n).val, (fraction n).property⟩, ?_⟩
  rw [toNanos, toNat_fraction, UInt64.toNat_ofNat_of_lt' word]
  omega

/-- A word that is kept only if nothing wraps around is the number itself. -/
theorem kept_eq_some_iff {w c : UInt64} (wrapped : w.toNat = n % UInt64.size) :
    (if n < UInt64.size then some w else none) = some c ↔ c.toNat = n := by
  rw [Option.ite_none_right_eq_some, Option.some_inj]
  constructor
  · rintro ⟨fits, rfl⟩
    rw [wrapped, Nat.mod_eq_of_lt fits]
  · intro same
    have fits : n < UInt64.size := same ▸ c.toNat_lt
    refine ⟨fits, ?_⟩
    rw [← UInt64.toNat_inj, wrapped, Nat.mod_eq_of_lt fits, same]

theorem mulWord?_eq_some_iff {a b c : UInt64} : mulWord? a b = some c ↔ c.toNat = a.toNat * b.toNat :=
  kept_eq_some_iff (UInt64.toNat_mul a b)

theorem addWord?_eq_some_iff {a b c : UInt64} : addWord? a b = some c ↔ c.toNat = a.toNat + b.toNat :=
  kept_eq_some_iff (UInt64.toNat_add a b)

/-- The words that a span is multiplied in hold the numbers they stand for. The nanoseconds always have their product in
a word, and it is cut into the seconds that are carried and the nanoseconds that are left. The seconds have a product,
and a sum with those that are carried, exactly if the number is that of a word. -/
structure Unwrapped (d : Span) (k : UInt32) : Prop where
  nanos : (d.nanos.toUInt64 * k.toUInt64).toNat = d.nanos.toNat * k.toNat
  carried : (d.nanos.toUInt64 * k.toUInt64 / 1000000000).toNat = d.nanos.toNat * k.toNat / 1000000000
  left : (fraction (d.nanos.toUInt64 * k.toUInt64).toNat).val.toNat = d.nanos.toNat * k.toNat % 1000000000
  seconds : ∀ s, mulWord? d.seconds k.toUInt64 = some s ↔ s.toNat = d.seconds.toNat * k.toNat
  sum : ∀ s t, mulWord? d.seconds k.toUInt64 = some s →
    (addWord? s (d.nanos.toUInt64 * k.toUInt64 / 1000000000) = some t ↔
      t.toNat = d.seconds.toNat * k.toNat + d.nanos.toNat * k.toNat / 1000000000)

theorem unwrapped (d : Span) (k : UInt32) : d.Unwrapped k := by
  have nanos : (d.nanos.toUInt64 * k.toUInt64).toNat = d.nanos.toNat * k.toNat := by
    have below : d.nanos.toNat * k.toNat ≤ 1000000000 * 4294967296 :=
      Nat.mul_le_mul (Nat.le_of_lt d.nanos_lt) (Nat.le_of_lt k.toNat_lt)
    rw [UInt64.toNat_mul, UInt32.toNat_toUInt64, UInt32.toNat_toUInt64, Nat.mod_eq_of_lt (by omega)]
  have carried : (d.nanos.toUInt64 * k.toUInt64 / 1000000000).toNat = d.nanos.toNat * k.toNat / 1000000000 := by
    rw [UInt64.toNat_div, nanos]
    rfl
  have seconds (s : UInt64) : mulWord? d.seconds k.toUInt64 = some s ↔ s.toNat = d.seconds.toNat * k.toNat := by
    rw [mulWord?_eq_some_iff, UInt32.toNat_toUInt64]
  refine ⟨nanos, carried, ?_, seconds, ?_⟩
  · rw [toNat_fraction, nanos]
  · intro s t product
    rw [addWord?_eq_some_iff, carried, (seconds s).mp product]

/-- The parts of a product, before the nanoseconds are cut at a second. -/
theorem toNanos_mul (d : Span) (k : UInt32) :
    d.toNanos * k.toNat = d.seconds.toNat * k.toNat * 1000000000 + d.nanos.toNat * k.toNat := by
  rw [toNanos, Nat.add_mul, Nat.mul_right_comm]

theorem mul?_eq_some_iff : d.mul? k = some p ↔ p.toNanos = d.toNanos * k.toNat := by
  have words := d.unwrapped k
  have parts := d.toNanos_mul k
  simp only [mul?, bind, Option.bind_eq_some_iff, Option.some_inj]
  constructor
  · rintro ⟨s, product, t, sum, rfl⟩
    rw [words.sum s t product] at sum
    rw [toNanos, words.left, sum, parts]
    omega
  · intro same
    have whole := p.toNanos_div
    have rest := p.toNanos_mod
    have word := p.seconds.toNat_lt
    -- The seconds of the product are no more than those of the span that is to come out, so they are a word.
    have fits : d.seconds.toNat * k.toNat < UInt64.size := by
      rw [UInt64.size]
      omega
    have product := (words.seconds (.ofNat _)).mpr (UInt64.toNat_ofNat_of_lt' fits)
    refine ⟨_, product, p.seconds, (words.sum _ _ product).mpr (by omega), toNanos_injective ?_⟩
    rw [toNanos, words.left]
    dsimp only
    omega

theorem toNanos_saturatingMul (d : Span) (k : UInt32) :
    (d.saturatingMul k).toNanos = min (d.toNanos * k.toNat) longest.toNanos := by
  unfold saturatingMul
  cases product : d.mul? k with
  | some p =>
    rw [mul?_eq_some_iff] at product
    rw [Option.getD_some, product]
    exact (Nat.min_eq_left (product ▸ p.toNanos_le_longest)).symm
  | none =>
    have large : longest.toNanos < d.toNanos * k.toNat := by
      refine Nat.lt_of_not_le fun within => ?_
      obtain ⟨p, same⟩ := exists_toNanos within
      rw [mul?_eq_some_iff.mpr same] at product
      cases product
    rw [Option.getD_none, Nat.min_eq_right (Nat.le_of_lt large)]

end Span

end EventRelay
