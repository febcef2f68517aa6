import EventRelay.Json.Printer
import EventRelay.Json.Reader
import EventRelay.Proofs.Text.Utf8

/-!
What stands between the quotes of a string, piece by piece: bytes that stand for themselves and escapes, as they are
read and as they are written.
-/

namespace EventRelay.Json

open Utf8

@[simp] theorem ok_bind {α β : Type} (a : α) (next : α → Except Fault β) : (Except.ok a >>= next) = next a :=
  rfl

theorem bind_eq_ok {α β : Type} {x : Except Fault α} {next : α → Except Fault β} {b : β} :
    (x >>= next) = .ok b ↔ ∃ a, x = .ok a ∧ next a = .ok b := by
  cases x <;> simp [Bind.bind, Except.bind]

theorem skipSpace_of_not_isSpace {b : UInt8} (word : isSpace b = false) (s : Bytes) :
    skipSpace (b :: s) = b :: s := by
  rw [skipSpace, List.dropWhile_cons_of_neg]
  simp [word]

/-- Bytes that stand for themselves inside a string. -/
def IsPlain (b : UInt8) : Prop :=
  b ≠ 0x22 ∧ b ≠ 0x5C ∧ ¬ b < 0x20

theorem stringBytesAfter_plain {b : UInt8} {s more rest : Bytes} (plain : IsPlain b)
    (read : stringBytesAfter 0 s = .ok (more, rest)) : stringBytesAfter 0 (b :: s) = .ok (b :: more, rest) := by
  obtain ⟨quote, backslash, control⟩ := plain
  simp only [stringBytesAfter, if_neg quote, if_neg backslash, if_neg control, read, ok_bind]

theorem stringBytesAfter_skip (bytes s : Bytes) :
    stringBytesAfter bytes.length (bytes ++ s) = stringBytesAfter 0 s := by
  induction bytes with
  | nil => rfl
  | cons b bytes ih => exact ih

theorem stringBytesAfter_escape {escaped bytes s more rest : Bytes}
    (stands : ∀ s, escape (escaped ++ s) = .ok (bytes, escaped.length))
    (read : stringBytesAfter 0 s = .ok (more, rest)) :
    stringBytesAfter 0 (0x5C :: escaped ++ s) = .ok (bytes ++ more, rest) := by
  have other : ¬ (0x5C : UInt8) = 0x22 := by decide
  simp only [List.cons_append, stringBytesAfter, if_neg other, if_true, stands, ok_bind, stringBytesAfter_skip,
    read]

theorem isPlain_of_mem_encodeChar {c : Char} (quote : c ≠ '"') (backslash : c ≠ '\\') (shown : 0x20 ≤ c.toNat)
    {b : UInt8} (member : b ∈ encodeChar c) : IsPlain b := by
  by_cases narrow : c.toNat < 0x80
  · rw [encodeChar_ascii narrow, List.mem_singleton] at member
    have value : b.toNat = c.toNat := member ▸ toNat_byte (by omega)
    refine ⟨?_, ?_, ?_⟩
    · rintro rfl
      exact quote (Char.toNat_inj.mp value.symm)
    · rintro rfl
      exact backslash (Char.toNat_inj.mp value.symm)
    · rw [UInt8.lt_iff_toNat_lt, value]
      exact Nat.not_lt.mpr shown
  · have high := le_of_mem_encodeChar (Nat.not_lt.mp narrow) member
    refine ⟨?_, ?_, ?_⟩
    · rintro rfl
      exact absurd high (by decide)
    · rintro rfl
      exact absurd high (by decide)
    · rw [UInt8.lt_iff_toNat_lt]
      exact Nat.not_lt.mpr (Nat.le_trans (by decide) high)

theorem digitChar_byte : ∀ d < 16, ∃ b, encodeChar (Nat.digitChar d) = [b] ∧ hexDigit? b = some d := by
  intro d small
  refine ⟨UInt8.ofNat (Nat.digitChar d).toNat, ?_⟩
  revert d
  decide

/-- The digits of a control character tell which one it is. -/
theorem encode_controlEscape {n : Nat} (control : n < 0x20) :
    ∃ high low, encode (controlEscape n) = 0x5C :: [0x75, 0x30, 0x30, high, low] ∧
      hexWord? 0x30 0x30 high low = some n := by
  obtain ⟨high, writtenHigh, readHigh⟩ := digitChar_byte (n / 16) (by omega)
  obtain ⟨low, writtenLow, readLow⟩ := digitChar_byte (n % 16) (by omega)
  refine ⟨high, low, ?_, ?_⟩
  · simp only [controlEscape, encode_cons, encode_nil, writtenHigh, writtenLow]
    rfl
  · have zero : hexDigit? 0x30 = some 0 := by decide
    have whole : ((0 * 16 + 0) * 16 + n / 16) * 16 + n % 16 = n := by omega
    simp only [hexWord?, zero, readHigh, readLow, Option.bind_eq_bind, Option.bind_some, whole]

theorem ne_word_of_simpleEscape? {e b : UInt8} (letter : simpleEscape? e = some b) : e ≠ 0x75 := by
  rintro rfl
  simp [simpleEscape?] at letter

theorem escape_simple {e b : UInt8} (stands : simpleEscape? e = some b) (s : Bytes) :
    escape ([e] ++ s) = .ok ([b], 1) := by
  simp only [List.singleton_append, escape, if_neg (ne_word_of_simpleEscape? stands), stands]

end EventRelay.Json
