import EventRelay.Json.Skipping
import EventRelay.Proofs.Json.Grammar

/-!
A value that nobody asks for is passed over whole: whatever well-formed text it has, exactly that text is taken
away from what is left to read.
-/

namespace EventRelay.Json

theorem readName_append (name tail : Bytes) : readName name (name ++ tail) = .ok tail := by
  induction name with
  | nil => rfl
  | cons b name ih => simpa [readName] using ih

/-! ### Strings -/

theorem skipStringAfter_body {body : Bytes} (formed : StringBody body) (tail : Bytes) :
    skipStringAfter 0 (body ++ 0x22 :: tail) = .ok tail := by
  have other : ¬ (0x5C : UInt8) = 0x22 := by decide
  induction formed with
  | nil => rfl
  | plain plain _ ih =>
    obtain ⟨quote, backslash, control⟩ := plain
    simpa [skipStringAfter, quote, backslash, control] using ih
  | @letter e b s letter _ ih =>
    have length : escapeLength (e :: (s ++ 0x22 :: tail)) = .ok 1 := by
      simp [escapeLength, ne_word_of_simpleEscape? letter, letter]
    simp only [List.cons_append, skipStringAfter, if_neg other, if_true, length, ok_bind]
    exact ih
  | @word h₁ h₂ h₃ h₄ n s word _ ih =>
    have length : escapeLength (0x75 :: h₁ :: h₂ :: h₃ :: h₄ :: (s ++ 0x22 :: tail)) = .ok 5 := by
      simp [escapeLength, word]
    simp only [List.cons_append, skipStringAfter, if_neg other, if_true, length, ok_bind]
    exact ih

/-! ### Numbers -/

/-- Text that does not begin with a digit. -/
def NoDigit (s : Bytes) : Prop :=
  ∀ b rest, s = b :: rest → isDigit b = false

theorem Apart.noDigit {tail : Bytes} (apart : Apart tail) : NoDigit tail :=
  fun b rest same => (apart b rest same).1

theorem IsExponent.noDigit {exponent tail : Bytes} (formed : IsExponent exponent) (apart : Apart tail) :
    NoDigit (exponent ++ tail) := by
  cases formed with
  | none => exact apart.noDigit
  | some letter =>
    rintro b rest ⟨⟩
    rcases letter with rfl | rfl <;> decide

theorem IsFraction.noDigit {fraction exponent tail : Bytes} (formed : IsFraction fraction)
    (scale : IsExponent exponent) (apart : Apart tail) : NoDigit (fraction ++ (exponent ++ tail)) := by
  cases formed with
  | none => exact scale.noDigit apart
  | some =>
    rintro b rest ⟨⟩
    decide

theorem skipDigits_append {digits s : Bytes} (all : ∀ b ∈ digits, isDigit b = true) (ends : NoDigit s) :
    skipDigits (digits ++ s) = s := by
  rw [skipDigits, List.dropWhile_append_of_pos all]
  cases s with
  | nil => rfl
  | cons b rest => simp [ends b rest rfl]

theorem leadingDigits_append {digits s : Bytes} (all : ∀ b ∈ digits, isDigit b = true) (ends : NoDigit s) :
    leadingDigits (digits ++ s) = digits.map fun b => b.toNat - 0x30 := by
  rw [leadingDigits, List.takeWhile_append_of_pos all]
  cases s with
  | nil => simp
  | cons b rest => simp [ends b rest rfl]

theorem leadingDigits_eq_nil {s : Bytes} (ends : NoDigit s) : leadingDigits s = [] :=
  @leadingDigits_append [] s (by simp) ends

theorem skipExponent_append {sign digits tail : Bytes} (signed : sign = [] ∨ sign = [0x2B] ∨ sign = [0x2D])
    (formed : IsDigits digits) (apart : Apart tail) : skipExponent (sign ++ digits ++ tail) = .ok tail := by
  obtain ⟨some, all⟩ := formed
  cases digits with
  | nil => contradiction
  | cons d digits =>
    have first : isDigit d = true := all d List.mem_cons_self
    have rest : skipDigits (digits ++ tail) = tail :=
      skipDigits_append (fun b member => all b (List.mem_cons_of_mem _ member)) apart.noDigit
    rcases signed with rfl | rfl | rfl
    · have plus : d ≠ 0x2B := ne_of_isDigit first (by decide)
      have minus : d ≠ 0x2D := ne_of_isDigit first (by decide)
      simp [skipExponent, first, rest, plus, minus]
    · simp [skipExponent, first, rest]
    · simp [skipExponent, first, rest]

theorem skipNumber_append {s tail : Bytes} (formed : IsMagnitude s) (apart : Apart tail) :
    skipNumber (s ++ tail) = .ok tail := by
  obtain ⟨whole, fraction, exponent, rfl, ⟨⟨some, all⟩, zero⟩, decimals, scale⟩ := formed
  have ends : NoDigit (fraction ++ (exponent ++ tail)) := decimals.noDigit scale apart
  cases whole with
  | nil => contradiction
  | cons b whole =>
    have first : isDigit b = true := all b List.mem_cons_self
    have single : ¬ (b = 0x30 ∧ leadingDigits (whole ++ (fraction ++ (exponent ++ tail))) ≠ []) := by
      rintro ⟨rfl, more⟩
      rw [zero whole rfl] at more
      exact more (leadingDigits_eq_nil ends)
    have rest : skipDigits (b :: (whole ++ (fraction ++ (exponent ++ tail)))) = fraction ++ (exponent ++ tail) :=
      skipDigits_append all ends
    simp only [List.cons_append, List.append_assoc, skipNumber, first, Bool.not_true, Bool.false_eq_true, if_false,
      if_neg single, rest]
    cases decimals with
    | none =>
      cases scale with
      | some letter signed digits =>
        rcases letter with rfl | rfl <;> exact skipExponent_append signed digits apart
      | none =>
        rcases tail with _ | ⟨b, tail⟩
        · rfl
        · obtain ⟨_, point, lower, upper⟩ := apart b tail rfl
          simp [point, lower, upper]
    | some digits =>
      obtain ⟨some, all⟩ := digits
      have rest := skipDigits_append all (scale.noDigit apart)
      have present := leadingDigits_append all (scale.noDigit apart)
      simp only [List.cons_append, present, List.map_eq_nil_iff, if_neg some, rest]
      cases scale with
      | some letter signed digits =>
        rcases letter with rfl | rfl <;> exact skipExponent_append signed digits apart
      | none =>
        rcases tail with _ | ⟨b, tail⟩
        · rfl
        · obtain ⟨_, point, lower, upper⟩ := apart b tail rfl
          simp [lower, upper]

/-! ### Values -/

theorem skipName_append {body : Bytes} (formed : StringBody body) (lead gap : Gap) (tail : Bytes) :
    skipName (lead.val ++ (quoted body ++ (gap.val ++ 0x3A :: tail))) = .ok tail := by
  have opened : skipSpace (quoted body ++ (gap.val ++ 0x3A :: tail)) = quoted body ++ (gap.val ++ 0x3A :: tail) :=
    skipSpace_of_not_isSpace (by decide) _
  have colon : skipSpace (gap.val ++ 0x3A :: tail) = 0x3A :: tail := by
    rw [skipSpace_gap, skipSpace_of_not_isSpace (by decide)]
  have named : skipStringAfter 0 (body ++ 0x22 :: (gap.val ++ 0x3A :: tail)) = .ok (gap.val ++ 0x3A :: tail) :=
    skipStringAfter_body formed _
  rw [skipName, skipSpace_gap, opened]
  simp [quoted, named, colon]

/-- Passes over a part of a text. -/
def Part.skip (part : Part) (fuel : Nat) (s : Bytes) : Except Fault Bytes :=
  match part with
  | .value => skipValue fuel s
  | .items first => skipItems fuel first s
  | .members first => skipMembers fuel first s

theorem skipValue_gap (fuel : Nat) (gap : Gap) (s : Bytes) :
    skipValue (fuel + 1) (gap.val ++ s) = skipValue (fuel + 1) s := by
  rw [skipValue, skipValue, skipSpace_gap]

theorem Scalar.skip {b : UInt8} {s tail : Bytes} (scalar : Scalar (b :: s)) (apart : Apart tail) :
    skipScalar b (s ++ tail) = .ok tail := by
  cases scalar with
  | nullWord => exact readName_append [0x75, 0x6C, 0x6C] tail
  | trueWord => exact readName_append [0x72, 0x75, 0x65] tail
  | falseWord => exact readName_append [0x61, 0x6C, 0x73, 0x65] tail
  | negative magnitude => exact skipNumber_append magnitude apart
  | string body =>
    rw [List.append_assoc]
    exact skipStringAfter_body body tail
  | positive magnitude =>
    have digit := magnitude.head
    have other {c : UInt8} (word : isDigit c = false) : ¬ b = c := ne_of_isDigit digit word
    rw [skipScalar, if_neg (other (by decide)), if_neg (other (by decide)), if_neg (other (by decide)),
      if_neg (other (by decide)), if_pos digit]
    exact skipNumber_append magnitude apart

theorem skipItems_item {first : Bool} {t : Bytes} (before lead : Gap) (formed : Formed .value t) (fuel : Nat)
    (s : Bytes) : skipItems (fuel + 2) first (before.val ++ (separator first ++ (lead.val ++ (t ++ s)))) =
      (skipValue (fuel + 1) (t ++ s) >>= fun rest => skipItems (fuel + 1) false rest) := by
  have opened := skipSpace_value formed s
  obtain ⟨b, t, rfl, word, bracket, _⟩ := formed.head
  cases first with
  | true =>
    rw [skipItems, skipSpace_gap, separator, if_pos rfl, List.nil_append, skipSpace_gap, opened]
    simp only [List.cons_append, if_neg bracket, if_true]
  | false =>
    rw [skipItems, skipSpace_gap, separator, if_neg (by decide), List.singleton_append,
      skipSpace_of_not_isSpace (by decide)]
    simp [skipValue_gap]

theorem skipMembers_member {first : Bool} {body : Bytes} (before lead gap pad : Gap) (formed : StringBody body)
    (fuel : Nat) (t s : Bytes) :
    skipMembers (fuel + 2) first (memberText first before lead gap pad (quoted body) t ++ s) =
      (skipValue (fuel + 1) (t ++ s) >>= fun rest => skipMembers (fuel + 1) false rest) := by
  rw [memberText]
  simp only [List.append_assoc, List.cons_append]
  cases first with
  | true =>
    have named : skipName (0x22 :: (body ++ [0x22] ++ (gap.val ++ 0x3A :: (pad.val ++ (t ++ s))))) =
        .ok (pad.val ++ (t ++ s)) := skipName_append formed default gap _
    rw [skipMembers, skipSpace_gap, separator, if_pos rfl, List.nil_append, skipSpace_gap, quoted, List.cons_append,
      skipSpace_of_not_isSpace (by decide)]
    simp only [named, ok_bind, skipValue_gap]
    rfl
  | false =>
    have named := skipName_append formed lead gap (pad.val ++ (t ++ s))
    rw [skipMembers, skipSpace_gap, separator, if_neg (by decide), List.singleton_append,
      skipSpace_of_not_isSpace (by decide)]
    simp [named, skipValue_gap]

/-- Well-formed text is passed over and nothing else. -/
theorem Formed.skip {part : Part} {t tail : Bytes} {fuel : Nat} (formed : Formed part t) (enough : t.length ≤ fuel)
    (apart : Apart tail) : part.skip fuel (t ++ tail) = .ok tail := by
  induction formed generalizing fuel tail with
  | scalar scalar =>
    obtain ⟨b, s, rfl, word, bracket, _, brace, _⟩ := scalar.head
    cases fuel with
    | zero => simp at enough
    | succ fuel =>
      rw [Part.skip, skipValue, List.cons_append, skipSpace_of_not_isSpace word]
      simp only [if_neg bracket, if_neg brace, scalar.skip apart]
  | @array s items ih =>
    cases fuel with
    | zero => simp at enough
    | succ fuel =>
      have skipped := ih (Nat.le_of_succ_le_succ enough) apart
      rw [Part.skip, skipValue, List.cons_append, skipSpace_of_not_isSpace (by decide)]
      exact skipped
  | object members ih =>
    cases fuel with
    | zero => simp at enough
    | succ fuel =>
      have skipped := ih (Nat.le_of_succ_le_succ enough) apart
      rw [Part.skip, skipValue, List.cons_append, skipSpace_of_not_isSpace (by decide)]
      exact skipped
  | lastItem before =>
    cases fuel with
    | zero => simp at enough
    | succ fuel =>
      rw [Part.skip, List.append_assoc, skipItems, skipSpace_gap, List.singleton_append,
        skipSpace_of_not_isSpace (by decide)]
      rfl
  | @item first t s before lead value items ihv ihi =>
    have one := value.length_pos
    have more := items.length_pos
    simp only [List.length_append] at enough
    obtain ⟨fuel, rfl⟩ := Nat.exists_eq_add_of_le (show 2 ≤ fuel by omega)
    have skipped := ihv (show t.length ≤ fuel + 1 by omega) (items.items_apart tail)
    have rest := ihi (show s.length ≤ fuel + 1 by omega) apart
    simp only [Part.skip] at skipped rest
    rw [Part.skip, Nat.add_comm 2 fuel]
    simp only [List.append_assoc, skipItems_item before lead value, skipped, ok_bind, rest]
  | lastMember before =>
    cases fuel with
    | zero => simp at enough
    | succ fuel =>
      rw [Part.skip, List.append_assoc, skipMembers, skipSpace_gap, List.singleton_append,
        skipSpace_of_not_isSpace (by decide)]
      rfl
  | @member first body t s before lead gap pad name value members ihv ihm =>
    have one := value.length_pos
    have more := members.length_pos
    simp only [memberText, List.length_append, List.length_cons] at enough
    obtain ⟨fuel, rfl⟩ := Nat.exists_eq_add_of_le (show 2 ≤ fuel by omega)
    have skipped := ihv (show t.length ≤ fuel + 1 by omega) (members.members_apart tail)
    have rest := ihm (show s.length ≤ fuel + 1 by omega) apart
    simp only [Part.skip] at skipped rest
    rw [Part.skip, Nat.add_comm 2 fuel, List.append_assoc, skipMembers_member before lead gap pad name, skipped,
      ok_bind, rest]

theorem skipValue_formed {t tail : Bytes} {fuel : Nat} (formed : Formed .value t) (enough : t.length ≤ fuel)
    (apart : Apart tail) : skipValue fuel (t ++ tail) = .ok tail := by
  have skipped := formed.skip enough apart
  rwa [Part.skip] at skipped

end EventRelay.Json
