import Mathlib.Data.Nat.Digits.Defs
import EventRelay.Text.Digits

/-!
Decimal digits denote the number that they were written for. A number that has room in a fixed width is padded to a
numeral of this width, and what is taken from the front of a text is a numeral, up to where it ends.
-/

namespace EventRelay

namespace Digits

/-- So many digits that denote a number from `least` to `most`. -/
structure IsNumeral (width least most : Nat) (cs : List Char) : Prop where
  length : cs.length = width
  digits : ∀ c ∈ cs, c.isDigit
  least_le : least ≤ value cs
  le_most : value cs ≤ most

theorem value_eq_ofDigitChars (cs : List Char) : value cs = Nat.ofDigitChars 10 cs 0 := by
  simp [value, Nat.ofDigitChars_eq_foldl, Nat.mul_comm]

theorem toNat_of_isDigit {c : Char} (digit : c.isDigit) : 0x30 ≤ c.toNat ∧ c.toNat ≤ 0x39 := by
  simpa [Char.isDigit, UInt32.le_iff_toNat_le] using digit

@[simp] theorem value_decimal (n : Nat) : value (decimal n) = n := by
  rw [value_eq_ofDigitChars]
  exact Nat.ofDigitChars_ten_toDigits

theorem isDigit_of_mem_decimal {n : Nat} {c : Char} (member : c ∈ decimal n) : c.isDigit :=
  Nat.isDigit_of_mem_toDigits (by decide) (by decide) member

theorem decimal_ne_nil (n : Nat) : decimal n ≠ [] :=
  Nat.toDigits_ne_nil

/-- Only zero is written with a zero in front. -/
theorem decimal_zero {n : Nat} {cs : List Char} (zero : decimal n = '0' :: cs) : cs = [] := by
  induction n using Nat.strongRecOn generalizing cs with
  | ind n ih =>
  rcases Nat.lt_or_ge n 10 with small | large
  · rw [decimal, Nat.toDigits_of_lt_base small] at zero
    exact (List.cons.inj zero).2.symm
  · have split : decimal n = decimal (n / 10) ++ [(n % 10).digitChar] := Nat.toDigits_of_base_le (by decide) large
    obtain ⟨d, ds, front⟩ := List.exists_cons_of_ne_nil (decimal_ne_nil (n / 10))
    rw [split, front] at zero
    obtain ⟨rfl, _⟩ := List.cons.inj zero
    -- the digits but the last one begin with this zero too, so they are nothing else
    have nothing := value_decimal (n / 10)
    rw [front, ih (n / 10) (by omega) front] at nothing
    have none : value ['0'] = 0 := rfl
    omega

@[simp] theorem value_padded (width n : Nat) : value (padded width n) = n := by
  rw [value_eq_ofDigitChars, padded, Nat.ofDigitChars_append, Nat.ofDigitChars_replicate_zero, Nat.mul_zero,
    ← value_eq_ofDigitChars, value_decimal]

theorem value_append (cs ds : List Char) : value (cs ++ ds) = 10 ^ ds.length * value cs + value ds := by
  rw [value_eq_ofDigitChars, Nat.ofDigitChars_append, Nat.ofDigitChars_eq_ofDigitChars_zero, ← value_eq_ofDigitChars,
    ← value_eq_ofDigitChars]

theorem value_append_zeros (cs : List Char) (n : Nat) :
    value (cs ++ List.replicate n '0') = value cs * powerOfTen n := by
  rw [value_eq_ofDigitChars, Nat.ofDigitChars_append, Nat.ofDigitChars_replicate_zero, ← value_eq_ofDigitChars,
    Nat.mul_comm]
  rfl

theorem isDigit_of_mem_padded {width n : Nat} {c : Char} (member : c ∈ padded width n) : c.isDigit := by
  rcases List.mem_append.mp member with zero | digit
  · rw [(List.mem_replicate.mp zero).2]
    rfl
  · exact isDigit_of_mem_decimal digit

theorem length_padded {width n : Nat} (wide : 0 < width) (room : n < 10 ^ width) :
    (padded width n).length = width := by
  have short : (decimal n).length ≤ width := (Nat.length_toDigits_le_iff (by decide) wide).mpr room
  rw [padded, List.length_append, List.length_replicate]
  omega

theorem isNumeral_padded {width least most n : Nat} (wide : 0 < width) (room : most < 10 ^ width)
    (least_le : least ≤ n) (le_most : n ≤ most) : IsNumeral width least most (padded width n) where
  length := length_padded wide (by omega)
  digits _ := isDigit_of_mem_padded
  least_le := by rwa [value_padded]
  le_most := by rwa [value_padded]

/-- The first digit counts by how many follow it. -/
theorem value_cons (c : Char) (cs : List Char) : value (c :: cs) = 10 ^ cs.length * (c.toNat - 0x30) + value cs := by
  have digit : value [c] = c.toNat - 0x30 := Nat.zero_add _
  rw [← List.singleton_append, value_append, digit]

theorem value_lt {cs : List Char} (all : ∀ c ∈ cs, c.isDigit) : value cs < 10 ^ cs.length := by
  induction cs with
  | nil => decide
  | cons c cs ih =>
    have digit := toNat_of_isDigit (all c List.mem_cons_self)
    have rest := ih fun d member => all d (List.mem_cons_of_mem c member)
    have small : c.toNat - 0x30 ≤ 9 := by omega
    have most := Nat.mul_le_mul_left (10 ^ cs.length) small
    rw [value_cons, List.length_cons, Nat.pow_succ]
    omega

/-- The digits after the first ones are a remainder. -/
theorem value_take_div {cs : List Char} (all : ∀ c ∈ cs, c.isDigit) {m n : Nat} (long : m + n ≤ cs.length) :
    value (cs.take (m + n)) / 10 ^ n = value (cs.take m) := by
  have below := @value_lt ((cs.drop m).take n) fun c member => all c (List.mem_of_mem_drop (List.mem_of_mem_take member))
  have width : ((cs.drop m).take n).length = n := by
    rw [List.length_take, List.length_drop]
    omega
  rw [width] at below
  rw [List.take_add, value_append, width, Nat.mul_add_div (Nat.pow_pos (by decide)), Nat.div_eq_of_lt below, Nat.add_zero]

/-- Numerals of one width that denote one number are the same. -/
theorem value_injective {cs ds : List Char} (width : cs.length = ds.length) (all : ∀ c ∈ cs, c.isDigit)
    (all' : ∀ d ∈ ds, d.isDigit) (same : value cs = value ds) : cs = ds := by
  induction cs generalizing ds with
  | nil => exact (List.eq_nil_of_length_eq_zero width.symm).symm
  | cons c cs ih =>
    cases ds with
    | nil => cases width
    | cons d ds =>
      obtain ⟨leastC, -⟩ := toNat_of_isDigit (all c List.mem_cons_self)
      obtain ⟨leastD, -⟩ := toNat_of_isDigit (all' d List.mem_cons_self)
      have restC : ∀ c ∈ cs, c.isDigit := fun e member => all e (List.mem_cons_of_mem c member)
      have restD : ∀ d ∈ ds, d.isDigit := fun e member => all' e (List.mem_cons_of_mem d member)
      have short : cs.length = ds.length := Nat.succ.inj width
      have lowC := value_lt restC
      have lowD := value_lt restD
      rw [value_cons, value_cons, ← short] at same
      rw [← short] at lowD
      have positive : 0 < 10 ^ cs.length := Nat.pow_pos (by decide)
      have high := congrArg (· / 10 ^ cs.length) same
      simp only [Nat.mul_add_div positive, Nat.div_eq_of_lt lowC, Nat.div_eq_of_lt lowD] at high
      have char : c = d := Char.toNat_inj.mp (by omega)
      subst char
      rw [ih short restC restD (Nat.add_left_cancel same)]

/-- Numerals of one width are ordered as the numbers that they denote, whatever follows them. -/
theorem append_lt_of_value_lt {cs ds : List Char} (width : cs.length = ds.length) (all : ∀ c ∈ cs, c.isDigit)
    (all' : ∀ d ∈ ds, d.isDigit) (less : value cs < value ds) (s t : List Char) : cs ++ s < ds ++ t := by
  induction cs generalizing ds with
  | nil =>
    obtain rfl := List.eq_nil_of_length_eq_zero width.symm
    exact absurd less (Nat.lt_irrefl _)
  | cons c cs ih =>
    cases ds with
    | nil => cases width
    | cons d ds =>
      have short : cs.length = ds.length := Nat.succ.inj width
      have restC : ∀ c ∈ cs, c.isDigit := fun e member => all e (List.mem_cons_of_mem c member)
      have restD : ∀ d ∈ ds, d.isDigit := fun e member => all' e (List.mem_cons_of_mem d member)
      rw [List.cons_append, List.cons_append, List.cons_lt_cons_iff]
      rcases Nat.lt_trichotomy c.toNat d.toNat with below | same | above
      · exact .inl below
      · obtain rfl := Char.toNat_inj.mp same
        rw [value_cons, value_cons, ← short] at less
        exact .inr ⟨rfl, ih short restC restD (Nat.lt_of_add_lt_add_left less)⟩
      · -- a greater first digit outweighs all that follow
        obtain ⟨leastD, -⟩ := toNat_of_isDigit (all' d List.mem_cons_self)
        have lowD := value_lt restD
        have high : d.toNat - 0x30 + 1 ≤ c.toNat - 0x30 := by omega
        have most := Nat.mul_le_mul_left (10 ^ ds.length) high
        rw [value_cons, value_cons, short] at less
        rw [Nat.mul_add, Nat.mul_one] at most
        omega

/-- A numeral is what the number it denotes is padded to. -/
theorem padded_value {cs : List Char} (filled : cs ≠ []) (all : ∀ c ∈ cs, c.isDigit) :
    padded cs.length (value cs) = cs :=
  value_injective (length_padded (List.length_pos_iff.mpr filled) (value_lt all)) (fun _ => isDigit_of_mem_padded) all
    (value_padded _ _)

/-- Digits are taken up to their end, if no digit follows or no more may be taken. -/
theorem take?_append {least most : Nat} {digits rest : List Char} (all : ∀ c ∈ digits, c.isDigit)
    (least_le : least ≤ digits.length) (le_most : digits.length ≤ most)
    (ends : digits.length = most ∨ ∀ c ∈ rest.head?, c.isDigit = false) :
    take? least most (digits ++ rest) = some (value digits, rest) := by
  have stop : (rest.take (most - digits.length)).takeWhile Char.isDigit = [] := by
    rcases ends with full | other
    · simp [full]
    · cases rest with
      | nil => simp
      | cons c rest =>
        have word : c.isDigit = false := other c rfl
        cases room : most - digits.length with
        | zero => rfl
        | succ n => simp [word]
  have taken : ((digits ++ rest).take most).takeWhile Char.isDigit = digits := by
    rw [List.take_append, List.take_of_length_le le_most, List.takeWhile_append_of_pos all, stop, List.append_nil]
  rw [take?, taken, if_neg (Nat.not_lt.mpr least_le), List.drop_left]

/-- A numeral that fills its width is taken whole. -/
theorem take?_padded {width n : Nat} (wide : 0 < width) (room : n < 10 ^ width) {least : Nat} (least_le : least ≤ width)
    (rest : List Char) : take? least width (padded width n ++ rest) = some (n, rest) := by
  have length := length_padded wide room
  rw [take?_append (fun _ => isDigit_of_mem_padded) (by omega) (by omega) (.inl length), value_padded]

/-- Numbers that have room in a fixed width are ordered by their texts, and what follows decides between equal ones. -/
theorem padded_append_lt {width m n : Nat} (wide : 0 < width) (room : n < 10 ^ width) {s t : List Char}
    (order : m < n ∨ m = n ∧ s < t) : padded width m ++ s < padded width n ++ t := by
  rcases order with less | ⟨rfl, less⟩
  · have length : (padded width m).length = (padded width n).length := by
      rw [length_padded wide (by omega), length_padded wide room]
    exact append_lt_of_value_lt length (fun _ => isDigit_of_mem_padded) (fun _ => isDigit_of_mem_padded)
      (by rwa [value_padded, value_padded]) s t
  · exact List.append_left_lt less

theorem padded_ne_nil (width n : Nat) : padded width n ≠ [] :=
  List.append_ne_nil_of_right_ne_nil _ (decimal_ne_nil n)

theorem padded_eq_cons (width n : Nat) : ∃ c cs, padded width n = c :: cs ∧ c.isDigit := by
  obtain ⟨c, cs, same⟩ := List.exists_cons_of_ne_nil (padded_ne_nil width n)
  exact ⟨c, cs, same, isDigit_of_mem_padded (same ▸ List.mem_cons_self)⟩

/-- Digits of a number, with any zeros in front, after a plus sign or without one. -/
def IsUnsigned (n : Nat) (cs : List Char) : Prop :=
  ∃ sign digits, cs = sign ++ digits ∧ (sign = [] ∨ sign = ['+']) ∧ digits ≠ [] ∧ (∀ c ∈ digits, c.isDigit) ∧
    value digits = n

/-- What stands before the digits of a text that may have a plus sign is this sign or nothing. -/
theorem unsigned?_split (most : Nat) (cs : List Char) : ∃ sign digits, cs = sign ++ digits ∧
    (sign = [] ∧ (∀ rest, cs ≠ '+' :: rest) ∨ sign = ['+']) ∧ unsigned? most cs =
      if digits ≠ [] ∧ digits.all Char.isDigit ∧ value digits ≤ most then some (value digits) else none := by
  by_cases signed : ∃ rest, cs = '+' :: rest
  · obtain ⟨rest, rfl⟩ := signed
    exact ⟨['+'], rest, rfl, .inr rfl, rfl⟩
  · have plain : ∀ rest, cs ≠ '+' :: rest := fun rest same => signed ⟨rest, same⟩
    refine ⟨[], cs, rfl, .inl ⟨rfl, plain⟩, ?_⟩
    rw [unsigned?]
    exact plain

/-- A text is read as a number exactly if it is one that is not too large. -/
theorem unsigned?_eq_some_iff {most n : Nat} {cs : List Char} :
    unsigned? most cs = some n ↔ IsUnsigned n cs ∧ n ≤ most := by
  obtain ⟨sign, digits, split, signed, read⟩ := unsigned?_split most cs
  rw [read, Option.ite_none_right_eq_some, Option.some.injEq]
  constructor
  · rintro ⟨⟨filled, all, within⟩, rfl⟩
    exact ⟨⟨sign, digits, split, signed.imp_left And.left, filled, List.all_eq_true.mp all, rfl⟩, within⟩
  · rintro ⟨⟨sign', digits', rfl, signed', filled, all, rfl⟩, within⟩
    -- digits begin with no sign, so there is only one way to take a sign off
    have same : digits = digits' := by
      rcases signed with ⟨rfl, plain⟩ | rfl <;> rcases signed' with rfl | rfl
      · exact split.symm
      · exact absurd rfl (plain _)
      · obtain rfl : digits' = '+' :: digits := split
        exact absurd (all '+' List.mem_cons_self) (by decide)
      · exact (List.append_cancel_left split).symm
    rw [same]
    exact ⟨⟨filled, List.all_eq_true.mpr all, within⟩, rfl⟩

end Digits

end EventRelay
