import EventRelay.Ingest.Settings
import EventRelay.Proofs.Environment

/-!
Settings within bounds. Each number among the settings is pulled into its bounds, whatever the environment says, and a
larger number makes no smaller setting. The exception are two counts of attempts, which are kept in 32 bits: of a
number that needs more, the low bits are kept after it was compared with its bound, and they may be zero.
-/

namespace EventRelay

/-- The numbers among the settings that have a bound. -/
inductive Measure
  | batchSize
  | batchAge
  | pollWait
  | batchFlushes
  | progressInterval
  | storeAttempts
  | startupAttempts

namespace Measure

/-- The variable that gives the number. -/
def name : Measure → String
  | .batchSize => "BATCH_SIZE"
  | .batchAge => "BATCH_TIMEOUT_MS"
  | .pollWait => "POLL_TIMEOUT_MS"
  | .batchFlushes => "FLUSH_MAX_ATTEMPTS"
  | .progressInterval => "PROGRESS_INTERVAL_SECONDS"
  | .storeAttempts => "SINK_MAX_RETRIES"
  | .startupAttempts => "STARTUP_MAX_ATTEMPTS"

/-- The number that counts if none is given. -/
def standard : Measure → UInt64
  | .batchSize => 1000
  | .batchAge => 5000
  | .pollWait => 1000
  | .batchFlushes => 1
  | .progressInterval => 10
  | .storeAttempts => 3
  | .startupAttempts => 30

def least : Measure → UInt64
  | .batchAge => 100
  | .pollWait => 10
  | _ => 1

/-- Whether the number is kept in 32 bits. -/
def isNarrow : Measure → Bool
  | .batchFlushes | .startupAttempts => true
  | _ => false

def greatest : Measure → Nat
  | .batchFlushes | .startupAttempts => 0xFFFFFFFF
  | .storeAttempts => 10
  | _ => 0xFFFFFFFFFFFFFFFF

/-- What is counted: attempts and rows one by one, times in milliseconds or seconds. -/
def unit : Measure → Nat
  | .batchAge | .pollWait => 1000000
  | .progressInterval => 1000000000
  | _ => 1

/-- The number in the settings, for times in nanoseconds. -/
def value (s : IngestSettings) : Measure → Nat
  | .batchSize => s.batch.maxSize
  | .batchAge => s.batch.maxAge.toNanos
  | .pollWait => s.batch.pollWait.toNanos
  | .batchFlushes => s.batch.maxFlushes.toNat
  | .progressInterval => s.batch.progressInterval.toNanos
  | .storeAttempts => s.store.retry.maxAttempts.toNat
  | .startupAttempts => s.startup.maxAttempts.toNat

/-- No number is given that needs more bits than are kept. -/
def Fits (m : Measure) (env : Environment) : Prop :=
  m.isNarrow = true → ∀ w : UInt64, env.Gives m.name w.toNat → w.toNat < 0x100000000

/-- What is kept of a number. -/
def kept (m : Measure) (n : Nat) : Nat :=
  if m.isNarrow then n % 0x100000000 else min n m.greatest

variable {m : Measure} {n : Nat}

theorem of_isNarrow (narrow : m.isNarrow = true) : m.unit = 1 ∧ m.least = 1 ∧ m.greatest = 0xFFFFFFFF := by
  cases m <;> first | exact ⟨rfl, rfl, rfl⟩ | cases narrow

theorem kept_of_lt (word : n < 0x10000000000000000) (fits : m.isNarrow = true → n < 0x100000000) :
    m.kept n = min n m.greatest := by
  unfold kept
  split
  · rename_i narrow
    obtain ⟨-, -, room⟩ := of_isNarrow narrow
    have small := fits narrow
    omega
  · rfl

theorem kept_le_greatest (m : Measure) (n : Nat) : m.kept n ≤ m.greatest := by
  unfold kept
  split
  · rename_i narrow
    obtain ⟨-, -, room⟩ := of_isNarrow narrow
    omega
  · exact Nat.min_le_right _ _

theorem least_le_standard (m : Measure) : m.least.toNat ≤ m.standard.toNat ∧ m.standard.toNat ≤ m.greatest ∧
    m.standard.toNat < 0x100000000 := by
  cases m <;> decide

end Measure

namespace IngestSettings

variable {env env' : Environment} {s s' : IngestSettings} {m : Measure}

theorem toNat_wordAtLeast (env : Environment) (name : String) (default least : UInt64) :
    (wordAtLeast env name default least).toNat = max (env.wordD name default).toNat least.toNat := by
  change (if env.wordD name default ≤ least then least else env.wordD name default : UInt64).toNat = _
  split <;> rename_i order <;> rw [UInt64.le_iff_toNat_le] at order <;> omega

/-- Only the offset policy and the address of the health endpoint can be refused. -/
theorem parts_of_ok (settled : ofEnvironment env = .ok s) :
    s.store = storeClient env ∧ s.batch = batchPolicy env ∧ s.startup = startupPolicy env := by
  simp only [ofEnvironment, bind, Except.bind] at settled
  split at settled
  · split at settled
    · cases settled
    · split at settled
      · cases settled
      · cases settled
        exact ⟨rfl, rfl, rfl⟩
  · split at settled
    · cases settled
    · cases settled
      exact ⟨rfl, rfl, rfl⟩

theorem toNat_min_ten (w : UInt64) : (min w 10).toUInt32.toNat = min w.toNat 10 := by
  change (if w ≤ 10 then w else 10 : UInt64).toUInt32.toNat = _
  split <;> rename_i order <;> rw [UInt64.le_iff_toNat_le] at order
  · rw [UInt64.toNat_toUInt32]
    change w.toNat ≤ 10 at order
    omega
  · change ¬w.toNat ≤ 10 at order
    change 10 = _
    omega

/-- Each number is the one that is given or else the default, no less than its least value, as far as it is kept. -/
theorem value_eq (settled : ofEnvironment env = .ok s) (m : Measure) :
    m.value s = m.unit * m.kept (max (env.wordD m.name m.standard).toNat m.least.toNat) := by
  obtain ⟨store, batch, startup⟩ := parts_of_ok settled
  rw [← toNat_wordAtLeast]
  have word := (wordAtLeast env m.name m.standard m.least).toNat_lt
  have whole : (wordAtLeast env m.name m.standard m.least).toNat =
      min (wordAtLeast env m.name m.standard m.least).toNat 0xFFFFFFFFFFFFFFFF :=
    (Nat.min_eq_left (Nat.le_sub_one_of_lt word)).symm
  cases m with
  | batchSize => rw [Measure.value, batch]; exact whole.trans (Nat.one_mul _).symm
  | batchAge =>
    rw [Measure.value, batch, batchPolicy, Span.toNanos_ofMillis, Nat.mul_comm]
    exact congrArg (1000000 * ·) whole
  | pollWait =>
    rw [Measure.value, batch, batchPolicy, Span.toNanos_ofMillis, Nat.mul_comm]
    exact congrArg (1000000 * ·) whole
  | progressInterval =>
    rw [Measure.value, batch, batchPolicy, Span.toNanos_ofSeconds, Nat.mul_comm]
    exact congrArg (1000000000 * ·) whole
  | batchFlushes => rw [Measure.value, batch]; exact (UInt64.toNat_toUInt32 _).trans (Nat.one_mul _).symm
  | startupAttempts => rw [Measure.value, startup]; exact (UInt64.toNat_toUInt32 _).trans (Nat.one_mul _).symm
  | storeAttempts => rw [Measure.value, store]; exact (toNat_min_ten _).trans (Nat.one_mul _).symm

/-- A number that fits is pulled into its bounds. -/
theorem value_of_fits (settled : ofEnvironment env = .ok s) (fits : m.Fits env) :
    m.value s = m.unit * min (max (env.wordD m.name m.standard).toNat m.least.toNat) m.greatest := by
  have word := (env.wordD m.name m.standard).toNat_lt
  have least := m.least_le_standard
  rw [value_eq settled m, Measure.kept_of_lt (by omega)]
  intro narrow
  by_cases given : ∃ w : UInt64, env.Gives m.name w.toNat
  · obtain ⟨w, given⟩ := given
    have small := fits narrow w given
    rw [Environment.wordD_of_gives given]
    omega
  · rw [Environment.wordD_of_forall_not_gives (not_exists.mp given)]
    omega

theorem value_of_gives (settled : ofEnvironment env = .ok s) {w : UInt64} (given : env.Gives m.name w.toNat) :
    m.value s = m.unit * m.kept (max w.toNat m.least.toNat) := by
  rw [value_eq settled m, Environment.wordD_of_gives given]

/-- Each number is within its bounds and follows what the environment gives, unless it needs more bits than are kept:
then its low bits count, whatever the bound. -/
theorem bounded (settled : ofEnvironment env = .ok s) (m : Measure) :
    (m.Fits env → m.unit * m.least.toNat ≤ m.value s) ∧
      m.value s ≤ m.unit * m.greatest ∧
      (∀ env' s', ofEnvironment env' = .ok s' → m.Fits env' → ∀ w w' : UInt64,
        env.Gives m.name w.toNat → env'.Gives m.name w'.toNat → w ≤ w' → m.value s ≤ m.value s') ∧
      (∀ w : UInt64, env.Gives m.name w.toNat → m.Fits env →
        m.value s = m.unit * min (max w.toNat m.least.toNat) m.greatest) ∧
      ((∀ w : UInt64, ¬env.Gives m.name w.toNat) → m.value s = m.unit * m.standard.toNat) ∧
      (∀ w : UInt64, env.Gives m.name w.toNat → ¬m.Fits env → m.value s = w.toNat % 0x100000000) := by
  obtain ⟨least, standard, small⟩ := m.least_le_standard
  refine ⟨fun fits => ?_, ?_, fun env' s' settled' fits' w w' given given' order => ?_, fun w given fits => ?_,
    fun ungiven => ?_, fun w given wide => ?_⟩
  · rw [value_of_fits settled fits]
    exact Nat.mul_le_mul_left _ (by omega)
  · rw [value_eq settled m]
    exact Nat.mul_le_mul_left _ (m.kept_le_greatest _)
  · rw [UInt64.le_iff_toNat_le] at order
    have fits : m.Fits env := by
      intro narrow w₀ given₀
      rw [Environment.gives_unique given₀ given]
      exact Nat.lt_of_le_of_lt order (fits' narrow w' given')
    rw [value_of_fits settled fits, value_of_fits settled' fits', Environment.wordD_of_gives given,
      Environment.wordD_of_gives given']
    exact Nat.mul_le_mul_left _ (by omega)
  · rw [value_of_fits settled fits, Environment.wordD_of_gives given]
  · have fits : m.Fits env := fun _ w given => absurd given (ungiven w)
    rw [value_of_fits settled fits, Environment.wordD_of_forall_not_gives ungiven]
    congr 1
    omega
  · obtain ⟨narrow, w', given', big⟩ : m.isNarrow = true ∧ ∃ w' : UInt64, env.Gives m.name w'.toNat ∧
        0x100000000 ≤ w'.toNat := by
      simpa [Measure.Fits] using wide
    obtain ⟨one, least_one, -⟩ := Measure.of_isNarrow narrow
    obtain rfl := Environment.gives_unique given given'
    have above : max w.toNat m.least.toNat = w.toNat := by
      rw [least_one]
      exact Nat.max_eq_left (Nat.le_trans (by decide) big)
    rw [value_of_gives settled given, one, Nat.one_mul, above, Measure.kept, if_pos narrow]

/-- Numbers that make little sense. -/
def oddNumbers : Environment :=
  ⟨[("BATCH_SIZE", Utf8.ofString "0"), ("BATCH_TIMEOUT_MS", Utf8.ofString "18446744073709551616"),
    ("FLUSH_MAX_ATTEMPTS", Utf8.ofString " +007\t"), ("SINK_MAX_RETRIES", Utf8.ofString "18446744073709551615")]⟩

theorem bounded_oddNumbers : ∃ s, ofEnvironment oddNumbers = .ok s ∧ Measure.batchSize.value s = 1 ∧
    Measure.batchAge.value s = 5000000000 ∧ Measure.batchFlushes.value s = 7 ∧ Measure.storeAttempts.value s = 10 ∧
    1 ≤ Measure.startupAttempts.value s := by
  have settled : ∃ s, ofEnvironment oddNumbers = .ok s := ⟨_, rfl⟩
  obtain ⟨s, settled⟩ := settled
  have given {name : String} {w : UInt64} (read : oddNumbers.word? name = some w) : oddNumbers.Gives name w.toNat :=
    Environment.word?_eq_some_iff.mp read
  have ungiven {name : String} (read : oddNumbers.word? name = none) (w : UInt64) :
      ¬oddNumbers.Gives name w.toNat := by
    intro given
    rw [Environment.word?_eq_some_iff.mpr given] at read
    cases read
  have seven : Measure.batchFlushes.Fits oddNumbers := by
    intro _ w found
    rw [Environment.gives_unique found (given (w := 7) (by decide +kernel))]
    decide
  refine ⟨s, settled, ?_, ?_, ?_, ?_, ?_⟩
  · exact (bounded settled .batchSize).2.2.2.1 0 (given (by decide +kernel)) (by rintro ⟨⟩)
  · exact (bounded settled .batchAge).2.2.2.2.1 (ungiven (by decide +kernel))
  · exact (bounded settled .batchFlushes).2.2.2.1 7 (given (by decide +kernel)) seven
  · exact (bounded settled .storeAttempts).2.2.2.1 0xFFFFFFFFFFFFFFFF (given (by decide +kernel)) (by rintro ⟨⟩)
  · exact (bounded settled .startupAttempts).1 fun _ w found => absurd found (ungiven (by decide +kernel) w)

/-- Both counts of attempts from one text. -/
def attempts (number : String) : Environment :=
  ⟨[("FLUSH_MAX_ATTEMPTS", Utf8.ofString number), ("STARTUP_MAX_ATTEMPTS", Utf8.ofString number)]⟩

/-- One attempt more than 32 bits count leaves no attempt. -/
theorem attempts_wrapped : ∃ s s', ofEnvironment (attempts "4294967295") = .ok s ∧
    ofEnvironment (attempts "4294967296") = .ok s' ∧
    Measure.batchFlushes.value s = 4294967295 ∧ Measure.startupAttempts.value s = 4294967295 ∧
    Measure.batchFlushes.value s' = 0 ∧ Measure.startupAttempts.value s' = 0 :=
  ⟨_, _, rfl, rfl, by decide +kernel, by decide +kernel, by decide +kernel, by decide +kernel⟩

end IngestSettings

end EventRelay
