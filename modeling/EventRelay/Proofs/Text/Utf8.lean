import EventRelay.Text.Utf8

/-!
Whatever text is written as UTF-8 is read back from it, and ASCII bytes stand for themselves only.
-/

namespace EventRelay.Utf8

@[simp] theorem encode_nil : encode [] = [] := rfl

@[simp] theorem encode_cons (c : Char) (cs : List Char) : encode (c :: cs) = encodeChar c ++ encode cs :=
  List.flatMap_cons

@[simp] theorem encode_append (cs ds : List Char) : encode (cs ++ ds) = encode cs ++ encode ds :=
  List.flatMap_append


theorem toNat_lt (c : Char) : c.toNat < 0x110000 := by
  have valid : c.toNat < 0xD800 ∨ 0xDFFF < c.toNat ∧ c.toNat < 0x110000 := c.valid
  omega

theorem scalar?_toNat {least n : Nat} {c : Char} (same : n = c.toNat) (long : least ≤ c.toNat) :
    scalar? least n = some c := by
  have valid : c.toNat.isValidChar := c.valid
  simp [scalar?, same, long, valid]

theorem toNat_byte {n : Nat} (small : n < 0x100) : (UInt8.ofNat n).toNat = n := by
  rw [UInt8.toNat_ofNat', Nat.mod_eq_of_lt small]

theorem toNat_tail (n : Nat) : (UInt8.ofNat (0x80 + n % 0x40)).toNat = 0x80 + n % 0x40 :=
  toNat_byte (by omega)

theorem isTail_of_toNat {b : UInt8} {n : Nat} (value : b.toNat = 0x80 + n % 0x40) : isTail b = true := by
  rw [isTail, Bool.and_eq_true, decide_eq_true_eq, decide_eq_true_eq]
  omega

theorem tailBits_ofNat (n : Nat) : tailBits (UInt8.ofNat (0x80 + n % 0x40)) = n % 0x40 := by
  have value := toNat_tail n
  unfold tailBits
  omega

theorem decode?_one {a : UInt8} (ascii : a.toNat < 0x80) (rest : Bytes) :
    decode? (a :: rest) = (decode? rest).map (Char.ofNat a.toNat :: ·) := by
  rw [decode?.eq_def]
  simp [ascii]

theorem decode?_two {a b : UInt8} {c : Char} (lead : 0xC0 ≤ a.toNat ∧ a.toNat < 0xE0) (tail : isTail b = true)
    (char : scalar? 0x80 ((a.toNat - 0xC0) * 0x40 + tailBits b) = some c) (rest : Bytes) :
    decode? (a :: b :: rest) = (decode? rest).map (c :: ·) := by
  have above : ¬ a.toNat < 0x80 := by omega
  have leads : ¬ a.toNat < 0xC0 := by omega
  rw [decode?.eq_def]
  simp only [if_neg above, if_neg leads, if_pos lead.2, tail, char]
  cases decode? rest <;> rfl

theorem decode?_three {a b d : UInt8} {c : Char} (lead : 0xE0 ≤ a.toNat ∧ a.toNat < 0xF0)
    (tails : isTail b = true ∧ isTail d = true)
    (char : scalar? 0x800 ((a.toNat - 0xE0) * 0x1000 + tailBits b * 0x40 + tailBits d) = some c) (rest : Bytes) :
    decode? (a :: b :: d :: rest) = (decode? rest).map (c :: ·) := by
  have above : ¬ a.toNat < 0x80 := by omega
  have leads : ¬ a.toNat < 0xC0 := by omega
  have long : ¬ a.toNat < 0xE0 := by omega
  rw [decode?.eq_def]
  simp only [if_neg above, if_neg leads, if_neg long, if_pos lead.2, tails, char]
  cases decode? rest <;> rfl

theorem decode?_four {a b d e : UInt8} {c : Char} (lead : 0xF0 ≤ a.toNat)
    (tails : isTail b = true ∧ isTail d = true ∧ isTail e = true)
    (char : scalar? 0x10000
      ((a.toNat - 0xF0) * 0x40000 + tailBits b * 0x1000 + tailBits d * 0x40 + tailBits e) = some c) (rest : Bytes) :
    decode? (a :: b :: d :: e :: rest) = (decode? rest).map (c :: ·) := by
  have above : ¬ a.toNat < 0x80 := by omega
  have leads : ¬ a.toNat < 0xC0 := by omega
  have long : ¬ a.toNat < 0xE0 := by omega
  have longer : ¬ a.toNat < 0xF0 := by omega
  rw [decode?.eq_def]
  simp only [if_neg above, if_neg leads, if_neg long, if_neg longer, tails, char]
  cases decode? rest <;> rfl

theorem decode?_encodeChar (c : Char) (rest : Bytes) :
    decode? (encodeChar c ++ rest) = (decode? rest).map (c :: ·) := by
  have bound := toNat_lt c
  simp only [encodeChar]
  split
  · rename_i one
    have lead : (UInt8.ofNat c.toNat).toNat = c.toNat := toNat_byte (by omega)
    rw [List.singleton_append, decode?_one (by omega), lead, Char.ofNat_toNat]
  split
  · rename_i one two
    have lead : (UInt8.ofNat (0xC0 + c.toNat / 0x40)).toNat = 0xC0 + c.toNat / 0x40 := toNat_byte (by omega)
    refine decode?_two (by omega) (isTail_of_toNat (toNat_tail _)) ?_ rest
    rw [lead, tailBits_ofNat]
    exact scalar?_toNat (by omega) (by omega)
  split
  · rename_i one two three
    have lead : (UInt8.ofNat (0xE0 + c.toNat / 0x1000)).toNat = 0xE0 + c.toNat / 0x1000 := toNat_byte (by omega)
    refine decode?_three (by omega) ⟨isTail_of_toNat (toNat_tail _), isTail_of_toNat (toNat_tail _)⟩ ?_ rest
    rw [lead, tailBits_ofNat, tailBits_ofNat]
    exact scalar?_toNat (by omega) (by omega)
  · rename_i one two three
    have lead : (UInt8.ofNat (0xF0 + c.toNat / 0x40000)).toNat = 0xF0 + c.toNat / 0x40000 :=
      toNat_byte (by omega)
    refine decode?_four (by omega)
      ⟨isTail_of_toNat (toNat_tail _), isTail_of_toNat (toNat_tail _), isTail_of_toNat (toNat_tail _)⟩ ?_ rest
    rw [lead, tailBits_ofNat, tailBits_ofNat, tailBits_ofNat]
    exact scalar?_toNat (by omega) (by omega)

theorem decode?_encode (cs : List Char) : decode? (encode cs) = some cs := by
  induction cs with
  | nil => rfl
  | cons c cs ih => rw [encode_cons, decode?_encodeChar, ih, Option.map_some]

theorem encodeChar_ascii {c : Char} (narrow : c.toNat < 0x80) : encodeChar c = [UInt8.ofNat c.toNat] := by
  simp [encodeChar, narrow]

/-- The bytes of a character beyond ASCII are all above those of ASCII. -/
theorem le_of_mem_encodeChar {c : Char} (wide : 0x80 ≤ c.toNat) {b : UInt8} (member : b ∈ encodeChar c) :
    0x80 ≤ b.toNat := by
  have bound := toNat_lt c
  simp only [encodeChar] at member
  split at member
  · omega
  split at member
  · simp only [List.mem_cons, List.not_mem_nil, or_false] at member
    rcases member with rfl | rfl <;> rw [toNat_byte (by omega)] <;> omega
  split at member
  · simp only [List.mem_cons, List.not_mem_nil, or_false] at member
    rcases member with rfl | rfl | rfl <;> rw [toNat_byte (by omega)] <;> omega
  · simp only [List.mem_cons, List.not_mem_nil, or_false] at member
    rcases member with rfl | rfl | rfl | rfl <;> rw [toNat_byte (by omega)] <;> omega

end EventRelay.Utf8
