import EventRelay.Proofs.Json.Skipping

/-!
Reading well-formed text. A string may fail to be one of characters, a number may be out of range, and a value may
be nested too deep. But whether a text is read, and as what, depends on nothing that comes after it, and if it is
read then all of it is.
-/

namespace EventRelay.Json

def Fails {α : Type} (result : Except Fault α) : Prop :=
  ∃ f, result = .error f

theorem fails_fault {α : Type} (cause : Cause) (s : Bytes) : Fails (fault cause s : Except Fault α) :=
  ⟨_, rfl⟩

theorem fails_faultAtNext {α : Type} (cause : Cause) (s : Bytes) : Fails (faultAtNext cause s : Except Fault α) :=
  ⟨_, rfl⟩

theorem Fails.bind {α β : Type} {result : Except Fault α} (fails : Fails result) (next : α → Except Fault β) :
    Fails (result >>= next) := by
  obtain ⟨f, rfl⟩ := fails
  exact ⟨f, rfl⟩

/-! ### Strings -/

theorem escape_word {h₁ h₂ h₃ h₄ : UInt8} {n : Nat} (word : hexWord? h₁ h₂ h₃ h₄ = some n)
    (trailing : isTrailingSurrogate n = false) (leading : isLeadingSurrogate n = false) (s : Bytes) :
    escape (0x75 :: h₁ :: h₂ :: h₃ :: h₄ :: s) = .ok (Utf8.encodeChar (Char.ofNat n), 5) := by
  simp [escape, word, trailing, leading]

theorem escape_leading {h₁ h₂ h₃ h₄ : UInt8} {n : Nat} (word : hexWord? h₁ h₂ h₃ h₄ = some n)
    (leading : isLeadingSurrogate n = true) (s : Bytes) :
    escape (0x75 :: h₁ :: h₂ :: h₃ :: h₄ :: s) = (trailingHalf n s >>= fun c => .ok (Utf8.encodeChar c, 11)) := by
  have trailing : isTrailingSurrogate n = false := by
    simp only [isLeadingSurrogate, Bool.and_eq_true, decide_eq_true_eq] at leading
    rw [isTrailingSurrogate, Bool.and_eq_false_iff]
    exact .inl (decide_eq_false (by omega))
  simp [escape, word, trailing, leading]

theorem escape_pair {h₁ h₂ h₃ h₄ l₁ l₂ l₃ l₄ : UInt8} {n m : Nat} (word : hexWord? h₁ h₂ h₃ h₄ = some n)
    (leading : isLeadingSurrogate n = true) (half : hexWord? l₁ l₂ l₃ l₄ = some m)
    (trailing : isTrailingSurrogate m = true) (s : Bytes) :
    escape (0x75 :: h₁ :: h₂ :: h₃ :: h₄ :: 0x5C :: 0x75 :: l₁ :: l₂ :: l₃ :: l₄ :: s) =
      .ok (Utf8.encodeChar (pairedChar n m), 11) := by
  have second : trailingHalf n (0x5C :: 0x75 :: l₁ :: l₂ :: l₃ :: l₄ :: s) = .ok (pairedChar n m) := by
    simp [trailingHalf, half, trailing]
  rw [escape_leading word leading, second]
  rfl

theorem escape_trailing {h₁ h₂ h₃ h₄ : UInt8} {n : Nat} (word : hexWord? h₁ h₂ h₃ h₄ = some n)
    (trailing : isTrailingSurrogate n = true) (s : Bytes) : Fails (escape (0x75 :: h₁ :: h₂ :: h₃ :: h₄ :: s)) :=
  ⟨⟨.loneSurrogate, s.length⟩, by simp [escape, word, trailing, fault]⟩

theorem Spells.read {body bytes : Bytes} (spells : Spells body bytes) (rest : Bytes) :
    stringBytesAfter 0 (body ++ 0x22 :: rest) = .ok (bytes, rest) := by
  induction spells with
  | nil => rfl
  | plain plain _ ih => exact stringBytesAfter_plain plain ih
  | @letter e b s bytes letter _ ih => exact @stringBytesAfter_escape [e] _ _ _ _ (escape_simple letter) ih
  | @word h₁ h₂ h₃ h₄ n s bytes word trailing leading _ ih =>
    exact @stringBytesAfter_escape [0x75, h₁, h₂, h₃, h₄] _ _ _ _ (escape_word word trailing leading) ih
  | @pair h₁ h₂ h₃ h₄ l₁ l₂ l₃ l₄ n m s bytes word leading half trailing _ ih =>
    exact @stringBytesAfter_escape [0x75, h₁, h₂, h₃, h₄, 0x5C, 0x75, l₁, l₂, l₃, l₄] _ _ _ _
      (escape_pair word leading half trailing) ih

theorem fails_escape {escaped bytes s : Bytes} (stands : ∀ s, escape (escaped ++ s) = .ok (bytes, escaped.length))
    (fails : Fails (stringBytesAfter 0 s)) : Fails (stringBytesAfter 0 (0x5C :: escaped ++ s)) := by
  have other : ¬ (0x5C : UInt8) = 0x22 := by decide
  simp only [List.cons_append, stringBytesAfter, if_neg other, if_true, stands, ok_bind, stringBytesAfter_skip]
  exact fails.bind _

theorem fails_backslash {s : Bytes} (fails : Fails (escape s)) : Fails (stringBytesAfter 0 (0x5C :: s)) := by
  have other : ¬ (0x5C : UInt8) = 0x22 := by decide
  simp only [stringBytesAfter, if_neg other, if_true]
  exact fails.bind _

/-- What follows a leading surrogate within a string is the other half, or a fault. -/
theorem trailingHalf_body {s : Bytes} (formed : StringBody s) (n : Nat) :
    (∃ l₁ l₂ l₃ l₄ m rest, s = 0x5C :: 0x75 :: l₁ :: l₂ :: l₃ :: l₄ :: rest ∧ hexWord? l₁ l₂ l₃ l₄ = some m ∧
      isTrailingSurrogate m = true ∧ StringBody rest) ∨ ∀ tail, Fails (trailingHalf n (s ++ 0x22 :: tail)) := by
  cases formed with
  | nil => exact .inr fun tail => fails_fault .unfinishedPair tail
  | @plain b s plain _ =>
    refine .inr fun tail => ?_
    rw [List.cons_append, trailingHalf.eq_def]
    simp only [if_pos plain.2.1]
    exact fails_fault .unfinishedPair _
  | letter letter _ =>
    refine .inr fun tail => ?_
    simp only [List.cons_append, trailingHalf, ne_eq, not_true_eq_false, if_false,
      ne_word_of_simpleEscape? letter, not_false_eq_true, if_true]
    exact fails_fault .unfinishedPair _
  | @word l₁ l₂ l₃ l₄ m rest word formed =>
    cases trailing : isTrailingSurrogate m with
    | true => exact .inl ⟨l₁, l₂, l₃, l₄, m, rest, rfl, word, trailing, formed⟩
    | false =>
      refine .inr fun tail => ?_
      simp only [List.cons_append, trailingHalf, ne_eq, not_true_eq_false, if_false, word, trailing,
        Bool.false_eq_true]
      exact fails_fault .loneSurrogate _

/-- A body stands for some bytes, or it is no string whatever comes after it. -/
theorem StringBody.spells {body : Bytes} (formed : StringBody body) :
    (∃ bytes, Spells body bytes) ∨ ∀ tail, Fails (stringBytesAfter 0 (body ++ 0x22 :: tail)) := by
  induction length : body.length using Nat.strongRecOn generalizing body with
  | ind n ih =>
  have shorter {s : Bytes} (less : s.length < body.length) (formed : StringBody s) := ih _ (length ▸ less) formed rfl
  cases formed with
  | nil => exact .inl ⟨[], .nil⟩
  | @plain b s plain formed =>
    rcases shorter (by simp) formed with ⟨bytes, spells⟩ | refused
    · exact .inl ⟨b :: bytes, .plain plain spells⟩
    · refine .inr fun tail => ?_
      obtain ⟨quote, backslash, control⟩ := plain
      simp only [List.cons_append, stringBytesAfter, if_neg quote, if_neg backslash, if_neg control]
      exact (refused tail).bind _
  | @letter e b s letter formed =>
    rcases shorter (by simp only [List.length_cons]; omega) formed with ⟨bytes, spells⟩ | refused
    · exact .inl ⟨b :: bytes, .letter letter spells⟩
    · exact .inr fun tail => @fails_escape [e] _ _ (escape_simple letter) (refused tail)
  | @word h₁ h₂ h₃ h₄ n s word formed =>
    cases trailing : isTrailingSurrogate n with
    | true => exact .inr fun tail => fails_backslash (escape_trailing word trailing _)
    | false =>
    cases leading : isLeadingSurrogate n with
    | false =>
      rcases shorter (by simp only [List.length_cons]; omega) formed with ⟨bytes, spells⟩ | refused
      · exact .inl ⟨_, .word word trailing leading spells⟩
      · exact .inr fun tail =>
          @fails_escape [0x75, h₁, h₂, h₃, h₄] _ _ (escape_word word trailing leading) (refused tail)
    | true =>
      rcases trailingHalf_body formed n with ⟨l₁, l₂, l₃, l₄, m, rest, rfl, half, second, formed⟩ | refused
      · rcases shorter (by simp only [List.length_cons]; omega) formed with ⟨bytes, spells⟩ | refused
        · exact .inl ⟨_, .pair word leading half second spells⟩
        · exact .inr fun tail => @fails_escape [0x75, h₁, h₂, h₃, h₄, 0x5C, 0x75, l₁, l₂, l₃, l₄] _ _
            (escape_pair word leading half second) (refused tail)
      · refine .inr fun tail => fails_backslash ?_
        have fails := (refused tail).bind fun c => Except.ok (Utf8.encodeChar c, 11)
        rwa [← escape_leading word leading] at fails

/-- A string is read as what it spells, or not at all. -/
theorem readString_body {body : Bytes} (formed : StringBody body) :
    (∃ s, Literal (quoted body) s ∧ ∀ tail, readString (body ++ 0x22 :: tail) = .ok (s, tail)) ∨
      ∀ tail, Fails (readString (body ++ 0x22 :: tail)) := by
  rcases formed.spells with ⟨bytes, spells⟩ | refused
  · cases text : Utf8.toString? bytes with
    | some s => exact .inl ⟨s, ⟨body, bytes, rfl, spells, text⟩, fun tail => by simp [readString, spells.read, text]⟩
    | none => exact .inr fun tail => ⟨_, by simp [readString, spells.read, text]; rfl⟩
  · exact .inr fun tail => (refused tail).bind _

theorem Literal.read {t : Bytes} {s : String} (literal : Literal t s) :
    ∃ body, t = quoted body ∧ ∀ tail, readString (body ++ 0x22 :: tail) = .ok (s, tail) := by
  obtain ⟨body, bytes, rfl, spells, text⟩ := literal
  exact ⟨body, rfl, fun tail => by simp [readString, spells.read, text]⟩

/-- Once there are enough calls, a reader takes one and the same thing from before whatever is left, or it finds a
fault, whatever is left. -/
def Settled {α : Type} (least : Nat) (read : Nat → Bytes → Except Fault (α × Bytes)) : Prop :=
  (∃ a, ∀ fuel tail, least ≤ fuel → Apart tail → read fuel tail = .ok (a, tail)) ∨
    ∀ fuel tail, least ≤ fuel → Apart tail → Fails (read fuel tail)

namespace Settled

variable {α β : Type} {least more : Nat} {read : Nat → Bytes → Except Fault (α × Bytes)}

theorem of_ok {a : α} (found : ∀ fuel tail, Apart tail → read fuel tail = .ok (a, tail)) : Settled least read :=
  .inl ⟨a, fun fuel tail _ => found fuel tail⟩

theorem of_fails (refused : ∀ fuel tail, Apart tail → Fails (read fuel tail)) : Settled least read :=
  .inr fun fuel tail _ => refused fuel tail

theorem congr {read' : Nat → Bytes → Except Fault (α × Bytes)} (settled : Settled least read)
    (same : ∀ fuel tail, least ≤ fuel → Apart tail → read' fuel tail = read fuel tail) : Settled least read' := by
  rcases settled with ⟨a, found⟩ | refused
  · exact .inl ⟨a, fun fuel tail enough apart => by rw [same fuel tail enough apart, found fuel tail enough apart]⟩
  · exact .inr fun fuel tail enough apart => by
      rw [same fuel tail enough apart]
      exact refused fuel tail enough apart

end Settled

/-! ### Numbers -/

theorem scaled_settled (positive : Bool) (significand : Nat) (exponent : Int) :
    Settled 0 fun _ tail => scaled positive significand exponent tail := by
  cases found : Binary64.ofDecimal? significand exponent with
  | some x => exact .of_ok fun _ tail _ => by simp [scaled, found]; rfl
  | none => exact .of_fails fun _ tail _ => by simp [scaled, found, fails_fault]

/-- Reads the digits of an exponent. -/
def readScale (positive : Bool) (significand : Nat) (start : Int) (down : Bool) (digits tail : Bytes) :
    Except Fault (Number × Bytes) :=
  match absorb 0x7FFFFFFF 0 (digits.map fun b => b.toNat - 0x30) with
  | (n, []) => scaled positive significand (if down then start - n else start + n) tail
  | (_, _ :: spare) =>
    if significand ≠ 0 ∧ !down then
      fault .numberOutOfRange ((digits ++ tail).drop (digits.length - spare.length))
    else .ok (.float (!positive) .zero, tail)

theorem readScale_settled (positive : Bool) (significand : Nat) (start : Int) (down : Bool) (digits : Bytes) :
    Settled 0 fun _ tail => readScale positive significand start down digits tail := by
  unfold readScale
  split
  · exact scaled_settled _ _ _
  · split
    · exact .of_fails fun _ tail _ => fails_fault _ _
    · exact .of_ok fun _ tail _ => rfl

theorem readExponent_eq {sign digits tail : Bytes} (signed : sign = [] ∨ sign = [0x2B] ∨ sign = [0x2D])
    (formed : IsDigits digits) (apart : Apart tail) (positive : Bool) (significand : Nat) (start : Int) :
    readExponent positive significand start (sign ++ digits ++ tail) =
      readScale positive significand start (sign == [0x2D]) digits tail := by
  obtain ⟨some, all⟩ := formed
  have taken := leadingDigits_append all apart.noDigit
  have rest := skipDigits_append all apart.noDigit
  cases digits with
  | nil => contradiction
  | cons d digits =>
    have first : isDigit d = true := all d List.mem_cons_self
    rw [List.cons_append] at taken rest
    have plus : d ≠ 0x2B := ne_of_isDigit first (by decide)
    have minus : d ≠ 0x2D := ne_of_isDigit first (by decide)
    unfold readScale
    rcases stopped : absorb 0x7FFFFFFF 0 ((d :: digits).map fun b => b.toNat - 0x30) with ⟨n, _ | ⟨more, spare⟩⟩
    all_goals
      rcases signed with rfl | rfl | rfl <;>
        simp [-List.map_cons, readExponent, plus, minus, first, taken, rest, stopped]

theorem readExponent_settled {sign digits : Bytes} (signed : sign = [] ∨ sign = [0x2B] ∨ sign = [0x2D])
    (formed : IsDigits digits) (positive : Bool) (significand : Nat) (start : Int) :
    Settled 0 fun _ tail => readExponent positive significand start (sign ++ digits ++ tail) :=
  (readScale_settled positive significand start (sign == [0x2D]) digits).congr fun _ _ _ apart =>
    readExponent_eq signed formed apart positive significand start

/-- Reads on after the decimals of a number. -/
def afterDecimals (positive : Bool) (significand : Nat) (exponent : Int) (s : Bytes) : Except Fault (Number × Bytes) :=
  match s with
  | 0x65 :: rest | 0x45 :: rest => readExponent positive significand exponent rest
  | rest => scaled positive significand exponent rest

theorem afterDecimals_settled {scale : Bytes} (formed : IsExponent scale) (positive : Bool) (significand : Nat)
    (exponent : Int) : Settled 0 fun _ tail => afterDecimals positive significand exponent (scale ++ tail) := by
  cases formed with
  | some letter signed digits =>
    rcases letter with rfl | rfl <;> exact readExponent_settled signed digits positive significand exponent
  | none =>
    refine (scaled_settled positive significand exponent).congr fun _ tail _ apart => ?_
    rcases tail with _ | ⟨b, tail⟩
    · rfl
    · obtain ⟨_, _, lower, upper⟩ := apart b tail rfl
      simp [afterDecimals, lower, upper]

theorem readDecimals_eq {digits : Bytes} (formed : IsDigits digits) (positive : Bool) (significand start : Nat) :
    ∃ more exponent, ∀ s, NoDigit s →
      readDecimals positive significand start (digits ++ s) = afterDecimals positive more exponent s := by
  obtain ⟨some, all⟩ := formed
  cases digits with
  | nil => contradiction
  | cons d digits =>
    rcases absorbed : absorb greatestWord significand ((d :: digits).map fun b => b.toNat - 0x30) with ⟨more, spare⟩
    refine ⟨more, start - (((d :: digits).length - spare.length : Nat) : Int), fun s ends => ?_⟩
    have taken := leadingDigits_append all ends
    have rest := skipDigits_append all ends
    rw [List.map_cons] at taken absorbed
    simp only [readDecimals, taken, absorbed, rest, List.length_cons, List.length_map]
    rfl

/-- Reads on after the digits before the point of a number. -/
def afterWhole (positive : Bool) (significand : Nat) (spare : List Nat) (s : Bytes) : Except Fault (Number × Bytes) :=
  match s with
  | 0x2E :: rest => readDecimals positive significand spare.length rest
  | 0x65 :: rest | 0x45 :: rest => readExponent positive significand spare.length rest
  | rest =>
    if spare.isEmpty then wholeNumber positive significand rest
    else scaled positive significand spare.length rest

theorem readNumber_whole {whole : Bytes} (formed : IsWhole whole) (positive : Bool) {significand : Nat}
    {spare : List Nat} (absorbed : absorb greatestWord 0 (whole.map fun b => b.toNat - 0x30) = (significand, spare))
    {s : Bytes} (ends : NoDigit s) : readNumber positive (whole ++ s) = afterWhole positive significand spare s := by
  obtain ⟨⟨some, all⟩, zero⟩ := formed
  cases whole with
  | nil => contradiction
  | cons b whole =>
    have first : isDigit b = true := all b List.mem_cons_self
    have taken := leadingDigits_append all ends
    have rest := skipDigits_append all ends
    have single : ¬ (b = 0x30 ∧ leadingDigits (whole ++ s) ≠ []) := by
      rintro ⟨rfl, more⟩
      rw [zero whole rfl] at more
      exact more (leadingDigits_eq_nil ends)
    rw [List.cons_append] at taken rest
    simp only [List.cons_append, readNumber, first, Bool.not_true, Bool.false_eq_true, if_false, if_neg single, taken,
      absorbed, rest]
    rfl

/-- A number with neither decimals nor an exponent. -/
theorem afterWhole_apart {tail : Bytes} (apart : Apart tail) (positive : Bool) (significand : Nat) (spare : List Nat) :
    afterWhole positive significand spare tail =
      if spare.isEmpty then wholeNumber positive significand tail
      else scaled positive significand spare.length tail := by
  rcases tail with _ | ⟨b, tail⟩
  · rfl
  · obtain ⟨_, point, lower, upper⟩ := apart b tail rfl
    simp [afterWhole, point, lower, upper]

theorem wholeNumber_settled (positive : Bool) (significand : Nat) :
    Settled 0 fun _ tail => wholeNumber positive significand tail := by
  unfold wholeNumber
  split
  · exact .of_ok fun _ tail _ => rfl
  split
  · exact .of_ok fun _ tail _ => rfl
  · exact scaled_settled false significand 0

theorem afterWhole_settled {fraction exponent : Bytes} (decimals : IsFraction fraction) (scale : IsExponent exponent)
    (positive : Bool) (significand : Nat) (spare : List Nat) :
    Settled 0 fun _ tail => afterWhole positive significand spare (fraction ++ (exponent ++ tail)) := by
  cases decimals with
  | some digits =>
    obtain ⟨more, power, same⟩ := readDecimals_eq digits positive significand spare.length
    exact (afterDecimals_settled scale positive more power).congr fun _ tail _ apart => same _ (scale.noDigit apart)
  | none =>
    cases scale with
    | some letter signed digits =>
      rcases letter with rfl | rfl <;> exact readExponent_settled signed digits positive significand spare.length
    | none =>
      cases fits : spare.isEmpty with
      | true =>
        exact (wholeNumber_settled positive significand).congr fun _ tail _ apart => by
          simp [afterWhole_apart apart, fits]
      | false =>
        exact (scaled_settled positive significand spare.length).congr fun _ tail _ apart => by
          simp [afterWhole_apart apart, fits]

theorem readNumber_settled {s : Bytes} (formed : IsMagnitude s) (positive : Bool) :
    Settled 0 fun _ tail => readNumber positive (s ++ tail) := by
  obtain ⟨whole, fraction, exponent, rfl, digits, decimals, scale⟩ := formed
  rcases absorbed : absorb greatestWord 0 (whole.map fun b => b.toNat - 0x30) with ⟨significand, spare⟩
  refine (afterWhole_settled decimals scale positive significand spare).congr fun _ tail _ apart => ?_
  rw [List.append_assoc, List.append_assoc]
  exact readNumber_whole digits positive absorbed (decimals.noDigit scale apart)

/-! ### Values -/

namespace Settled

variable {α β : Type} {least more : Nat} {read : Nat → Bytes → Except Fault (α × Bytes)}

theorem mono (settled : Settled least read) (less : least ≤ more) : Settled more read := by
  rcases settled with ⟨a, found⟩ | refused
  · exact .inl ⟨a, fun fuel tail enough => found fuel tail (Nat.le_trans less enough)⟩
  · exact .inr fun fuel tail enough => refused fuel tail (Nat.le_trans less enough)

theorem map (settled : Settled least read) (f : α → β) :
    Settled least fun fuel tail => read fuel tail >>= fun p => .ok (f p.1, p.2) := by
  rcases settled with ⟨a, found⟩ | refused
  · exact .inl ⟨f a, fun fuel tail enough apart => by simp only [found fuel tail enough apart, ok_bind]⟩
  · exact .inr fun fuel tail enough apart => (refused fuel tail enough apart).bind _

/-- One text is read, and then another. -/
theorem bind {s : Bytes} (settled : Settled least read) (next : α → Nat → Bytes → Except Fault (β × Bytes))
    (apart : ∀ tail, Apart (s ++ tail)) (rest : ∀ a, Settled least fun fuel tail => next a fuel (s ++ tail)) :
    Settled least fun fuel tail => read fuel (s ++ tail) >>= fun p => next p.1 fuel p.2 := by
  rcases settled with ⟨a, found⟩ | refused
  · exact (rest a).congr fun fuel tail enough _ => by simp only [found fuel _ enough (apart tail), ok_bind]
  · exact .inr fun fuel tail enough _ => (refused fuel _ enough (apart tail)).bind _

/-- What stands inside an array or an object is read if one level more may be opened, and refused if not. -/
theorem opened (settled : Settled least read) (depth : Nat) (t : Bytes) (f : α → β) :
    Settled least fun fuel tail =>
      if depth ≤ 1 then faultAtNext .tooDeep (t ++ tail) else read fuel tail >>= fun p => .ok (f p.1, p.2) := by
  by_cases shallow : depth ≤ 1
  · simp only [if_pos shallow]
    exact .inr fun _ _ _ _ => fails_faultAtNext _ _
  · simp only [if_neg shallow]
    exact settled.map f

/-- One call more. -/
theorem succ {read' : Nat → Bytes → Except Fault (α × Bytes)} (settled : Settled least read)
    (same : ∀ fuel tail, least ≤ fuel → read' (fuel + 1) tail = read fuel tail) : Settled (least + 1) read' := by
  rcases settled with ⟨a, found⟩ | refused
  · refine .inl ⟨a, fun fuel tail enough apart => ?_⟩
    obtain ⟨fuel, rfl⟩ := Nat.exists_eq_add_of_le' (Nat.le_of_add_left_le enough)
    have enough := Nat.le_of_succ_le_succ enough
    rw [same fuel tail enough]
    exact found fuel tail enough apart
  · refine .inr fun fuel tail enough apart => ?_
    obtain ⟨fuel, rfl⟩ := Nat.exists_eq_add_of_le' (Nat.le_of_add_left_le enough)
    have enough := Nat.le_of_succ_le_succ enough
    rw [same fuel tail enough]
    exact refused fuel tail enough apart

end Settled

theorem readString_settled {body : Bytes} (formed : StringBody body) :
    Settled 0 fun _ tail => readString (body ++ 0x22 :: tail) := by
  rcases readString_body formed with ⟨s, _, found⟩ | refused
  · exact .of_ok fun _ tail _ => found tail
  · exact .of_fails fun _ tail _ => refused tail

theorem readName_settled (name : Bytes) (v : Value) :
    Settled 0 fun _ tail => readName name (name ++ tail) >>= fun rest => .ok (v, rest) :=
  .of_ok fun _ tail _ => by rw [readName_append, ok_bind]

theorem readScalar_digit {b : UInt8} (digit : isDigit b = true) (s : Bytes) :
    readScalar b s = (readNumber true (b :: s) >>= fun p => .ok (.number p.1, p.2)) := by
  have other {c : UInt8} (word : isDigit c = false) : ¬ b = c := ne_of_isDigit digit word
  rw [readScalar, if_neg (other (by decide)), if_neg (other (by decide)), if_neg (other (by decide)),
    if_neg (other (by decide)), if_pos digit]

theorem Scalar.settled {b : UInt8} {s : Bytes} (scalar : Scalar (b :: s)) :
    Settled 0 fun _ tail => readScalar b (s ++ tail) := by
  cases scalar with
  | nullWord => exact readName_settled [0x75, 0x6C, 0x6C] .null
  | trueWord => exact readName_settled [0x72, 0x75, 0x65] (.bool true)
  | falseWord => exact readName_settled [0x61, 0x6C, 0x73, 0x65] (.bool false)
  | negative magnitude => exact (readNumber_settled magnitude false).map Value.number
  | @string body formed =>
    refine ((readString_settled formed).map Value.string).congr fun _ tail _ _ => ?_
    rw [List.append_assoc]
    rfl
  | positive magnitude =>
    refine ((readNumber_settled magnitude true).map Value.number).congr fun _ tail _ _ => ?_
    rw [readScalar_digit magnitude.head]
    rfl

theorem readValue_scalar {b : UInt8} {s : Bytes} (scalar : Scalar (b :: s)) (fuel depth : Nat) (tail : Bytes) :
    readValue (fuel + 1) depth (b :: (s ++ tail)) = readScalar b (s ++ tail) := by
  obtain ⟨_, _, same, word, bracket, _, brace, _⟩ := scalar.head
  obtain ⟨rfl, _⟩ := List.cons.inj same
  rw [readValue, skipSpace_of_not_isSpace word]
  simp only [if_neg bracket, if_neg brace]

theorem nextItem_item {first : Bool} {t : Bytes} (before lead : Gap) (formed : Formed .value t) (s : Bytes) :
    nextItem first (before.val ++ (separator first ++ (lead.val ++ (t ++ s)))) = .ok (some (), t ++ s) := by
  have opened := skipSpace_value formed s
  obtain ⟨b, t, rfl, word, bracket, _⟩ := formed.head
  cases first with
  | true =>
    rw [nextItem, skipSpace_gap, separator, if_pos rfl, List.nil_append, skipSpace_gap, opened]
    simp only [List.cons_append, if_neg bracket, if_true]
  | false =>
    rw [nextItem, skipSpace_gap, separator, if_neg (by decide), List.singleton_append,
      skipSpace_of_not_isSpace (by decide)]
    simp only [skipSpace_gap, opened]
    simp [bracket]

theorem nextItem_last (first : Bool) (before : Gap) (s : Bytes) :
    nextItem first (before.val ++ 0x5D :: s) = .ok (none, s) := by
  rw [nextItem, skipSpace_gap, skipSpace_of_not_isSpace (by decide)]
  rfl

theorem nextName_member (first : Bool) (before lead : Gap) (body s : Bytes) :
    nextName first (before.val ++ (separator first ++ (lead.val ++ (quoted body ++ s)))) =
      (readString (body ++ 0x22 :: s) >>= fun p => .ok (some p.1, p.2)) := by
  have opened : skipSpace (quoted body ++ s) = 0x22 :: (body ++ 0x22 :: s) := by
    rw [quoted, List.cons_append, List.append_assoc, skipSpace_of_not_isSpace (by decide)]
    rfl
  cases first with
  | true =>
    rw [nextName, skipSpace_gap, separator, if_pos rfl, List.nil_append, skipSpace_gap, opened]
    rfl
  | false =>
    rw [nextName, skipSpace_gap, separator, if_neg (by decide), List.singleton_append,
      skipSpace_of_not_isSpace (by decide)]
    simp only [skipSpace_gap, opened]
    rfl

theorem nextName_memberText (first : Bool) (before lead gap pad : Gap) (body t s : Bytes) :
    nextName first (memberText first before lead gap pad (quoted body) t ++ s) =
      (readString (body ++ 0x22 :: (gap.val ++ 0x3A :: (pad.val ++ (t ++ s)))) >>= fun p => .ok (some p.1, p.2)) := by
  simp only [memberText, List.append_assoc, List.cons_append, nextName_member]

theorem nextName_last (first : Bool) (before : Gap) (s : Bytes) :
    nextName first (before.val ++ 0x7D :: s) = .ok (none, s) := by
  rw [nextName, skipSpace_gap, skipSpace_of_not_isSpace (by decide)]
  rfl

theorem readColon_gap (gap : Gap) (s : Bytes) : readColon (gap.val ++ 0x3A :: s) = .ok s := by
  rw [readColon, skipSpace_gap, skipSpace_of_not_isSpace (by decide)]
  rfl

theorem expectEnd_gap (gap : Gap) : expectEnd gap.val = .ok () := by
  have nothing := skipSpace_gap gap []
  rw [List.append_nil] at nothing
  rw [expectEnd, nothing]
  rfl

theorem readValue_gap (fuel depth : Nat) (gap : Gap) (s : Bytes) :
    readValue (fuel + 1) depth (gap.val ++ s) = readValue (fuel + 1) depth s := by
  rw [readValue, readValue, skipSpace_gap]

theorem readItems_item {first : Bool} {t : Bytes} (before lead : Gap) (value : Formed .value t) (s tail : Bytes)
    (fuel depth : Nat) :
    readItems (fuel + 1) depth first (before.val ++ (separator first ++ (lead.val ++ (t ++ s))) ++ tail) =
      (readValue fuel depth (t ++ (s ++ tail)) >>= fun p =>
        readItems fuel depth false p.2 >>= fun q => .ok (p.1 :: q.1, q.2)) := by
  simp only [List.append_assoc, readItems, nextItem_item before lead value, ok_bind]

theorem readMembers_member {first : Bool} {body : Bytes} {name : String} (before lead gap pad : Gap)
    (found : ∀ tail, readString (body ++ 0x22 :: tail) = .ok (name, tail)) (t s tail : Bytes) (fuel depth : Nat)
    (members : List (String × Value)) :
    readMembers (fuel + 2) depth first members (memberText first before lead gap pad (quoted body) t ++ s ++ tail) =
      (readValue (fuel + 1) depth (t ++ (s ++ tail)) >>= fun p =>
        readMembers (fuel + 1) depth false (Ascending.insert name p.1 members) p.2) := by
  simp only [readMembers, List.append_assoc, nextName_memberText, found, ok_bind, readColon_gap, readValue_gap]

/-- What is read of a part of a text is settled. -/
def Part.Settles : Part → Bytes → Prop
  | .value, t => ∀ depth, Settled t.length fun fuel tail => readValue fuel depth (t ++ tail)
  | .items first, t => ∀ depth, Settled t.length fun fuel tail => readItems fuel depth first (t ++ tail)
  | .members first, t =>
    ∀ depth members, Settled t.length fun fuel tail => readMembers fuel depth first members (t ++ tail)

theorem Formed.settles {part : Part} {t : Bytes} (formed : Formed part t) : part.Settles t := by
  induction formed with
  | scalar scalar =>
    intro depth
    obtain ⟨b, s, rfl, _⟩ := scalar.head
    exact (scalar.settled.mono (Nat.zero_le s.length)).succ fun fuel tail _ => readValue_scalar scalar fuel depth tail
  | @array s items ih =>
    intro depth
    refine ((ih (depth - 1)).opened depth (0x5B :: s) Value.array).succ fun fuel tail _ => ?_
    rw [readValue, List.cons_append, skipSpace_of_not_isSpace (by decide)]
    rfl
  | @object s members ih =>
    intro depth
    refine ((ih (depth - 1) []).opened depth (0x7B :: s) Value.object).succ fun fuel tail _ => ?_
    rw [readValue, List.cons_append, skipSpace_of_not_isSpace (by decide)]
    rfl
  | @lastItem first before =>
    intro depth
    have ended : Settled before.val.length fun _ tail => (.ok ([], tail) : Except Fault (List Value × Bytes)) :=
      .of_ok fun _ _ _ => rfl
    rw [List.length_append, List.length_singleton]
    refine ended.succ fun fuel tail _ => ?_
    rw [readItems, List.append_assoc, List.singleton_append, nextItem_last]
    rfl
  | @item first t s before lead value items ihv ihi =>
    intro depth
    have one := value.length_pos
    have more := items.length_pos
    have itself := (ihv depth).mono (show t.length ≤ t.length + s.length - 1 by omega)
    have others (v : Value) := ((ihi depth).map (v :: ·)).mono (show s.length ≤ t.length + s.length - 1 by omega)
    have both := itself.bind (fun v fuel rest => readItems fuel depth false rest >>= fun p => .ok (v :: p.1, p.2))
      items.items_apart others
    refine (both.succ fun fuel tail _ => readItems_item before lead value s tail fuel depth).mono ?_
    simp only [List.length_append]
    omega
  | @lastMember first before =>
    intro depth members
    have ended : Settled before.val.length fun _ tail =>
        (.ok (members, tail) : Except Fault (List (String × Value) × Bytes)) :=
      .of_ok fun _ _ _ => rfl
    rw [List.length_append, List.length_singleton]
    refine ended.succ fun fuel tail _ => ?_
    rw [readMembers, List.append_assoc, List.singleton_append, nextName_last]
    rfl
  | @member first body t s before lead gap pad name value rest ihv ihm =>
    intro depth members
    have one := value.length_pos
    have more := rest.length_pos
    have enough : t.length + s.length - 1 + 1 ≤ (memberText first before lead gap pad (quoted body) t ++ s).length := by
      simp only [memberText, List.length_append, List.length_cons]
      omega
    rcases readString_body name with ⟨key, _, found⟩ | refused
    · have itself := (ihv depth).mono (show t.length ≤ t.length + s.length - 1 by omega)
      have others (v : Value) := (ihm depth (Ascending.insert key v members)).mono
        (show s.length ≤ t.length + s.length - 1 by omega)
      have both := itself.bind (fun v fuel rest => readMembers fuel depth false (Ascending.insert key v members) rest)
        rest.members_apart others
      refine (both.succ fun fuel tail used => ?_).mono enough
      obtain ⟨fuel, rfl⟩ := Nat.exists_eq_add_of_le' (show 1 ≤ fuel by omega)
      exact readMembers_member before lead gap pad found t s tail fuel depth members
    · refine .inr fun fuel tail used _ => ?_
      obtain ⟨fuel, rfl⟩ := Nat.exists_eq_add_of_le' (show 1 ≤ fuel by omega)
      simp only [readMembers, List.append_assoc, nextName_memberText]
      exact ((refused _).bind _).bind _

/-- A text is read as a value, whatever comes after it, when so many levels may be opened. -/
def Denotes (depth : Nat) (t : Bytes) (v : Value) : Prop :=
  ∀ fuel tail, t.length ≤ fuel → Apart tail → readValue fuel depth (t ++ tail) = .ok (v, tail)

theorem Formed.denotes {t : Bytes} (formed : Formed .value t) (depth : Nat) :
    (∃ v, Denotes depth t v) ∨
      ∀ fuel tail, t.length ≤ fuel → Apart tail → Fails (readValue fuel depth (t ++ tail)) :=
  formed.settles depth

theorem Scalar.denotes {b : UInt8} {s : Bytes} {v : Value} (scalar : Scalar (b :: s))
    (read : ∀ tail, Apart tail → readScalar b (s ++ tail) = .ok (v, tail)) (depth : Nat) : Denotes depth (b :: s) v := by
  intro fuel tail enough apart
  cases fuel with
  | zero => cases enough
  | succ fuel => rw [List.cons_append, readValue_scalar scalar, read tail apart]

theorem Literal.denotes {t : Bytes} {s : String} (literal : Literal t s) (depth : Nat) :
    Denotes depth t (.string s) := by
  obtain ⟨body, bytes, rfl, spells, text⟩ := literal
  refine Scalar.denotes (.string spells.stringBody) (fun tail _ => ?_) depth
  rw [List.append_assoc, List.singleton_append]
  simp [readScalar, isDigit, readString, spells.read, text]

theorem denotes_null (depth : Nat) : Denotes depth [0x6E, 0x75, 0x6C, 0x6C] .null :=
  Scalar.denotes .nullWord (fun tail _ => by rw [readScalar, if_pos rfl, readName_append, ok_bind]) depth

theorem denotes_nothing {depth : Nat} (deep : 1 < depth) (gap : Gap) :
    Denotes depth (0x7B :: (gap.val ++ [0x7D])) (.object []) := by
  intro fuel tail enough _
  obtain ⟨fuel, rfl⟩ := Nat.exists_eq_add_of_le' (show 2 ≤ fuel by
    simp only [List.length_cons, List.length_append] at enough
    omega)
  rw [readValue, List.cons_append, List.append_assoc, skipSpace_of_not_isSpace (by decide)]
  simp [Nat.not_le.mpr deep, readMembers, nextName_last]

end EventRelay.Json
