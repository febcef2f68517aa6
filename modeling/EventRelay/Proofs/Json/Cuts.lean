import EventRelay.Proofs.Json.Reading

/-!
Texts that are cut off. A string that was read is read the same when more text follows it, so one that ends before
its closing quote is not read at all.
-/

namespace EventRelay.Json

/-- The front of a text from which something is missing at the end. -/
def Cut (p t : Bytes) : Prop :=
  ∃ missing, missing ≠ [] ∧ p ++ missing = t

namespace Cut

variable {b : UInt8} {p s t : Bytes}

theorem of_cons (cut : Cut p (b :: t)) : p = [] ∨ ∃ p', p = b :: p' ∧ Cut p' t := by
  obtain ⟨missing, some, whole⟩ := cut
  cases p with
  | nil => exact .inl rfl
  | cons c p =>
    obtain ⟨rfl, rest⟩ := List.cons.inj whole
    exact .inr ⟨p, rfl, missing, some, rest⟩

/-- A text is cut off in its first part, or the first part is whole and the second one is cut off. -/
theorem of_append (cut : Cut p (s ++ t)) : Cut p s ∨ ∃ p', p = s ++ p' ∧ Cut p' t := by
  induction s generalizing p with
  | nil => exact .inr ⟨p, rfl, cut⟩
  | cons b s ih =>
    rcases cut.of_cons with rfl | ⟨p, rfl, later⟩
    · exact .inl ⟨b :: s, List.cons_ne_nil _ _, rfl⟩
    · rcases ih later with ⟨missing, some, rfl⟩ | ⟨p', rfl, second⟩
      · exact .inl ⟨missing, some, rfl⟩
      · exact .inr ⟨p', rfl, second⟩

theorem apart (cut : Cut p t) (apart : Apart t) : Apart p := by
  rintro b rest rfl
  obtain ⟨missing, _, rfl⟩ := cut
  exact apart b (rest ++ missing) rfl

end Cut

theorem trailingHalf_append {n : Nat} {s : Bytes} {c : Char} (read : trailingHalf n s = .ok c) (tail : Bytes) :
    trailingHalf n (s ++ tail) = .ok c := by
  revert read
  fun_cases trailingHalf n s <;> simp_all [trailingHalf, fault]

theorem escape_append {s : Bytes} {p : Bytes × Nat} (read : escape s = .ok p) (tail : Bytes) :
    escape (s ++ tail) = .ok p := by
  revert read
  fun_cases escape s
  case case4 h₁ h₂ h₃ h₄ rest n word trailing leading =>
    intro read
    obtain ⟨c, half, same⟩ := bind_eq_ok.mp read
    rw [List.cons_append]
    exact (escape_leading word leading _).trans (bind_eq_ok.mpr ⟨c, trailingHalf_append half tail, same⟩)
  all_goals simp_all [escape, fault]

/-- What follows a string is left as it is. -/
theorem stringBytesAfter_append {n : Nat} {s bytes rest : Bytes} (read : stringBytesAfter n s = .ok (bytes, rest))
    (tail : Bytes) : stringBytesAfter n (s ++ tail) = .ok (bytes, rest ++ tail) := by
  induction s generalizing n bytes rest with
  | nil => cases n <;> cases read
  | cons b s ih =>
    cases n with
    | succ taken => exact ih read
    | zero =>
      simp only [List.cons_append, stringBytesAfter] at read ⊢
      split at read
      · rename_i quote
        cases read
        rw [if_pos quote]
      split at read
      · rename_i quote backslash
        obtain ⟨⟨piece, taken⟩, escaped, read⟩ := bind_eq_ok.mp read
        obtain ⟨⟨more, left⟩, others, same⟩ := bind_eq_ok.mp read
        cases same
        rw [if_neg quote, if_pos backslash, escape_append escaped, ok_bind]
        simp only [ih others, ok_bind]
      split at read
      · cases read
      · rename_i quote backslash control
        obtain ⟨⟨more, left⟩, others, same⟩ := bind_eq_ok.mp read
        cases same
        rw [if_neg quote, if_neg backslash, if_neg control, ih others]
        rfl

/-- A string without its closing quote is none. -/
theorem Literal.fails_cut {t p : Bytes} {s : String} (literal : Literal t s) (cut : Cut p t) :
    p = [] ∨ ∃ p', p = 0x22 :: p' ∧ Fails (readString p') := by
  obtain ⟨body, bytes, rfl, spells, _⟩ := literal
  rcases cut.of_cons with rfl | ⟨p, rfl, missing, some, whole⟩
  · exact .inl rfl
  refine .inr ⟨p, rfl, ?_⟩
  cases found : stringBytesAfter 0 p with
  | error f => exact ⟨f, by rw [readString, found]; rfl⟩
  | ok q =>
    obtain ⟨piece, rest⟩ := q
    have longer := stringBytesAfter_append found missing
    rw [whole, spells.read [], Except.ok.injEq, Prod.mk.injEq] at longer
    exact absurd (List.append_eq_nil_iff.mp longer.2.symm).2 some

/-- A string ends where its text says, so it can be told from any text that begins with it. -/
theorem Literal.unique {t t' u u' : Bytes} {s s' : String} (literal : Literal t s) (literal' : Literal t' s')
    (same : t ++ u = t' ++ u') : s = s' ∧ u = u' := by
  obtain ⟨body, rfl, found⟩ := literal.read
  obtain ⟨body', rfl, found'⟩ := literal'.read
  have between : body ++ 0x22 :: u = body' ++ 0x22 :: u' := by simpa [quoted] using same
  have read := found u
  rw [between, found' u', Except.ok.injEq, Prod.mk.injEq] at read
  exact ⟨read.1.symm, read.2.symm⟩

theorem nextName_literal {t : Bytes} {name : String} (literal : Literal t name) (first : Bool) (s : Bytes) :
    nextName first (separator first ++ (t ++ s)) = .ok (some name, s) := by
  obtain ⟨body, rfl, found⟩ := literal.read
  have read := nextName_member first default default body s
  rw [found, ok_bind] at read
  exact read

/-- A name that is cut off, with the comma before it if there is one. -/
theorem fails_nextName_cut {first : Bool} {t p : Bytes} {s : String} (literal : Literal t s)
    (cut : Cut p (separator first ++ t)) : Fails (nextName first p) := by
  cases first with
  | true =>
    rcases literal.fails_cut cut with rfl | ⟨p, rfl, fails⟩
    · exact fails_faultAtNext _ _
    · rw [nextName, skipSpace_of_not_isSpace (by decide)]
      exact fails.bind _
  | false =>
    rcases cut.of_cons with rfl | ⟨p, rfl, later⟩
    · exact fails_faultAtNext _ _
    rw [nextName, skipSpace_of_not_isSpace (by decide)]
    rcases literal.fails_cut later with rfl | ⟨p, rfl, fails⟩
    · exact fails_faultAtNext _ _
    · simp only [skipSpace_of_not_isSpace (by decide : isSpace 0x22 = false)]
      exact fails.bind _

end EventRelay.Json
