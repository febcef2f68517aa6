import EventRelay.Proofs.Json.Strings

/-!
The grammar of JSON text, byte by byte, and apart from any reader of it. A text is told from what it means: a
well-formed string need not be one of characters, and a well-formed number may be beyond any range.
-/

namespace EventRelay.Json

/-- Space between words, or none. -/
abbrev Gap := { s : Bytes // ∀ b ∈ s, isSpace b = true }

instance : Inhabited Gap := ⟨[], by simp⟩

/-- What may stand between the quotes of a string. -/
inductive StringBody : Bytes → Prop
  | nil : StringBody []
  | plain {b : UInt8} {s : Bytes} : IsPlain b → StringBody s → StringBody (b :: s)
  | letter {e b : UInt8} {s : Bytes} : simpleEscape? e = some b → StringBody s → StringBody (0x5C :: e :: s)
  | word {h₁ h₂ h₃ h₄ : UInt8} {n : Nat} {s : Bytes} : hexWord? h₁ h₂ h₃ h₄ = some n → StringBody s →
      StringBody (0x5C :: 0x75 :: h₁ :: h₂ :: h₃ :: h₄ :: s)

/-- The bytes that stand between quotes in one way or another. -/
inductive Spells : Bytes → Bytes → Prop
  | nil : Spells [] []
  | plain {b : UInt8} {s bytes : Bytes} : IsPlain b → Spells s bytes → Spells (b :: s) (b :: bytes)
  | letter {e b : UInt8} {s bytes : Bytes} : simpleEscape? e = some b → Spells s bytes →
      Spells (0x5C :: e :: s) (b :: bytes)
  | word {h₁ h₂ h₃ h₄ : UInt8} {n : Nat} {s bytes : Bytes} : hexWord? h₁ h₂ h₃ h₄ = some n →
      isTrailingSurrogate n = false → isLeadingSurrogate n = false → Spells s bytes →
      Spells (0x5C :: 0x75 :: h₁ :: h₂ :: h₃ :: h₄ :: s) (Utf8.encodeChar (Char.ofNat n) ++ bytes)
  | pair {h₁ h₂ h₃ h₄ l₁ l₂ l₃ l₄ : UInt8} {n m : Nat} {s bytes : Bytes} : hexWord? h₁ h₂ h₃ h₄ = some n →
      isLeadingSurrogate n = true → hexWord? l₁ l₂ l₃ l₄ = some m → isTrailingSurrogate m = true → Spells s bytes →
      Spells (0x5C :: 0x75 :: h₁ :: h₂ :: h₃ :: h₄ :: 0x5C :: 0x75 :: l₁ :: l₂ :: l₃ :: l₄ :: s)
        (Utf8.encodeChar (pairedChar n m) ++ bytes)

/-- A body between quotes. -/
def quoted (body : Bytes) : Bytes :=
  0x22 :: (body ++ [0x22])

/-- A string as JSON writes it, with escapes or without. -/
def Literal (t : Bytes) (s : String) : Prop :=
  ∃ body bytes, t = quoted body ∧ Spells body bytes ∧ Utf8.toString? bytes = some s

/-- One digit or more. -/
def IsDigits (s : Bytes) : Prop :=
  s ≠ [] ∧ ∀ b ∈ s, isDigit b = true

/-- Digits that do not begin with a zero, or a zero alone. -/
def IsWhole (s : Bytes) : Prop :=
  IsDigits s ∧ ∀ rest, s = 0x30 :: rest → rest = []

inductive IsFraction : Bytes → Prop
  | none : IsFraction []
  | some {digits : Bytes} : IsDigits digits → IsFraction (0x2E :: digits)

inductive IsExponent : Bytes → Prop
  | none : IsExponent []
  | some {letter : UInt8} {sign digits : Bytes} : letter = 0x65 ∨ letter = 0x45 →
      sign = [] ∨ sign = [0x2B] ∨ sign = [0x2D] → IsDigits digits → IsExponent (letter :: (sign ++ digits))

/-- A number without its sign. -/
def IsMagnitude (s : Bytes) : Prop :=
  ∃ whole fraction exponent, s = whole ++ (fraction ++ exponent) ∧ IsWhole whole ∧ IsFraction fraction ∧
    IsExponent exponent

/-- A value that is neither an array nor an object. -/
inductive Scalar : Bytes → Prop
  | nullWord : Scalar [0x6E, 0x75, 0x6C, 0x6C]
  | trueWord : Scalar [0x74, 0x72, 0x75, 0x65]
  | falseWord : Scalar [0x66, 0x61, 0x6C, 0x73, 0x65]
  | positive {s : Bytes} : IsMagnitude s → Scalar s
  | negative {s : Bytes} : IsMagnitude s → Scalar (0x2D :: s)
  | string {body : Bytes} : StringBody body → Scalar (quoted body)

/-- What comes before an item or a member: a comma, unless it is the first. -/
def separator (first : Bool) : Bytes :=
  if first then [] else [0x2C]

/-- A member of an object, with the space in it. -/
def memberText (first : Bool) (before lead gap pad : Gap) (name value : Bytes) : Bytes :=
  before.val ++ (separator first ++ (lead.val ++ (name ++ (gap.val ++ 0x3A :: (pad.val ++ value)))))

/-- What a text is: a value, or what stands in an array or an object from some place on up to its end. `first`
tells whether an item or a member would be the first. -/
inductive Part
  | value
  | items (first : Bool)
  | members (first : Bool)

/-- Well-formed JSON text. -/
inductive Formed : Part → Bytes → Prop
  | scalar {t : Bytes} : Scalar t → Formed .value t
  | array {s : Bytes} : Formed (.items true) s → Formed .value (0x5B :: s)
  | object {s : Bytes} : Formed (.members true) s → Formed .value (0x7B :: s)
  | lastItem {first : Bool} (before : Gap) : Formed (.items first) (before.val ++ [0x5D])
  | item {first : Bool} {t s : Bytes} (before lead : Gap) : Formed .value t → Formed (.items false) s →
      Formed (.items first) (before.val ++ (separator first ++ (lead.val ++ (t ++ s))))
  | lastMember {first : Bool} (before : Gap) : Formed (.members first) (before.val ++ [0x7D])
  | member {first : Bool} {body t s : Bytes} (before lead gap pad : Gap) : StringBody body → Formed .value t →
      Formed (.members false) s → Formed (.members first) (memberText first before lead gap pad (quoted body) t ++ s)

/-- Text before which a number comes to its end. -/
def Apart (tail : Bytes) : Prop :=
  ∀ b rest, tail = b :: rest → isDigit b = false ∧ b ≠ 0x2E ∧ b ≠ 0x65 ∧ b ≠ 0x45

theorem apart_nil : Apart [] := nofun

theorem apart_cons {b : UInt8} (rest : Bytes) (other : isDigit b = false ∧ b ≠ 0x2E ∧ b ≠ 0x65 ∧ b ≠ 0x45) :
    Apart (b :: rest) := by
  rintro b rest ⟨⟩
  exact other

theorem apart_gap (gap : Gap) {s : Bytes} (apart : Apart s) : Apart (gap.val ++ s) := by
  obtain ⟨gap, spaces⟩ := gap
  cases gap with
  | nil => exact apart
  | cons b gap =>
    have space := spaces b List.mem_cons_self
    simp only [isSpace, Bool.or_eq_true, beq_iff_eq] at space
    rcases space with ((rfl | rfl) | rfl) | rfl <;> exact apart_cons _ (by decide)

theorem skipSpace_gap (gap : Gap) (s : Bytes) : skipSpace (gap.val ++ s) = skipSpace s :=
  List.dropWhile_append_of_pos gap.property

theorem Spells.stringBody {s bytes : Bytes} (spells : Spells s bytes) : StringBody s := by
  induction spells with
  | nil => exact .nil
  | plain plain _ ih => exact .plain plain ih
  | letter letter _ ih => exact .letter letter ih
  | word word _ _ _ ih => exact .word word ih
  | pair leading _ trailing _ _ ih => exact .word leading (.word trailing ih)

theorem Literal.formed {t : Bytes} {s : String} (literal : Literal t s) : Formed .value t := by
  obtain ⟨body, bytes, rfl, spells, _⟩ := literal
  exact .scalar (.string spells.stringBody)

theorem ne_of_isDigit {b c : UInt8} (digit : isDigit b = true) (other : isDigit c = false) : b ≠ c := by
  rintro rfl
  simp [digit] at other

theorem isSpace_digit {b : UInt8} (digit : isDigit b = true) : isSpace b = false := by
  cases space : isSpace b with
  | false => rfl
  | true =>
    simp only [isSpace, Bool.or_eq_true, beq_iff_eq] at space
    rcases space with ((rfl | rfl) | rfl) | rfl <;> exact absurd digit (by decide)

theorem IsMagnitude.head {b : UInt8} {s : Bytes} (magnitude : IsMagnitude (b :: s)) : isDigit b = true := by
  obtain ⟨whole, fraction, exponent, split, ⟨⟨some, digits⟩, _⟩, _⟩ := magnitude
  cases whole with
  | nil => contradiction
  | cons d whole =>
    obtain ⟨rfl, _⟩ := List.cons.inj split
    exact digits b List.mem_cons_self

theorem IsMagnitude.ne_nil {s : Bytes} (magnitude : IsMagnitude s) : s ≠ [] := by
  obtain ⟨whole, fraction, exponent, rfl, ⟨⟨some, _⟩, _⟩, _⟩ := magnitude
  simp [some]

/-- The first byte of a scalar. -/
theorem Scalar.head {t : Bytes} (scalar : Scalar t) : ∃ b s, t = b :: s ∧ isSpace b = false ∧ b ≠ 0x5B ∧ b ≠ 0x5D ∧
    b ≠ 0x7B ∧ b ≠ 0x7D := by
  cases scalar with
  | positive magnitude =>
    rcases t with _ | ⟨b, s⟩
    · exact absurd rfl magnitude.ne_nil
    · have digit := magnitude.head
      exact ⟨b, s, rfl, isSpace_digit digit, ne_of_isDigit digit (by decide), ne_of_isDigit digit (by decide),
        ne_of_isDigit digit (by decide), ne_of_isDigit digit (by decide)⟩
  | _ => exact ⟨_, _, rfl, by decide⟩

/-- The first byte of a value. -/
theorem Formed.head {t : Bytes} (formed : Formed .value t) : ∃ b s, t = b :: s ∧ isSpace b = false ∧ b ≠ 0x5D ∧
    b ≠ 0x7D := by
  cases formed with
  | scalar scalar =>
    obtain ⟨b, s, rfl, word, _, bracket, _, brace⟩ := scalar.head
    exact ⟨b, s, rfl, word, bracket, brace⟩
  | _ => exact ⟨_, _, rfl, by decide⟩

theorem skipSpace_value {t : Bytes} (formed : Formed .value t) (s : Bytes) : skipSpace (t ++ s) = t ++ s := by
  obtain ⟨b, rest, rfl, word, _⟩ := formed.head
  exact skipSpace_of_not_isSpace word _

theorem Formed.length_pos {part : Part} {t : Bytes} (formed : Formed part t) : 0 < t.length := by
  cases formed with
  | scalar scalar =>
    obtain ⟨b, s, rfl, _⟩ := scalar.head
    simp
  | item _ _ value =>
    obtain ⟨b, s, rfl, _⟩ := value.head
    simp only [List.length_append, List.length_cons]
    omega
  | member =>
    simp only [memberText, List.length_append, List.length_cons]
    omega
  | _ => simp

/-- What comes after an item ends a number. -/
theorem Formed.items_apart {s : Bytes} (formed : Formed (.items false) s) (tail : Bytes) : Apart (s ++ tail) := by
  cases formed with
  | lastItem before =>
    rw [List.append_assoc]
    exact apart_gap before (apart_cons tail (by decide))
  | item before =>
    rw [List.append_assoc]
    exact apart_gap before (apart_cons _ (by decide))

/-- What comes after a member ends a number. -/
theorem Formed.members_apart {s : Bytes} (formed : Formed (.members false) s) (tail : Bytes) : Apart (s ++ tail) := by
  cases formed with
  | lastMember before =>
    rw [List.append_assoc]
    exact apart_gap before (apart_cons tail (by decide))
  | member before =>
    rw [memberText, List.append_assoc, List.append_assoc]
    exact apart_gap before (apart_cons _ (by decide))

/-! ### Strings as they are written -/

theorem Spells.append {s s' bytes bytes' : Bytes} (first : Spells s bytes) (second : Spells s' bytes') :
    Spells (s ++ s') (bytes ++ bytes') := by
  induction first with
  | nil => exact second
  | plain plain _ ih => exact .plain plain ih
  | letter letter _ ih => exact .letter letter ih
  | word word trailing leading _ ih =>
    rw [List.append_assoc]
    exact .word word trailing leading ih
  | pair word leading half trailing _ ih =>
    rw [List.append_assoc]
    exact .pair word leading half trailing ih

theorem Spells.of_plain {s : Bytes} (plain : ∀ b ∈ s, IsPlain b) : Spells s s := by
  induction s with
  | nil => exact .nil
  | cons b s ih => exact .plain (plain b List.mem_cons_self) (ih fun b member => plain b (List.mem_cons_of_mem _ member))

theorem Spells.of_letter {c e : Char} (stands : simpleEscape? (UInt8.ofNat e.toNat) = some (UInt8.ofNat c.toNat))
    (narrow : e.toNat < 0x80) (control : c.toNat < 0x80) : Spells (Utf8.encode ['\\', e]) (Utf8.encodeChar c) := by
  rw [Utf8.encode_cons, Utf8.encode_cons, Utf8.encodeChar_ascii narrow, Utf8.encodeChar_ascii control]
  exact .letter stands .nil

/-- The escape of a control character spells it with its two digits. -/
theorem spells_controlEscape {c : Char} (control : c.toNat < 0x20) :
    Spells (Utf8.encode (controlEscape c.toNat)) (Utf8.encodeChar c) := by
  obtain ⟨high, low, digits, word⟩ := encode_controlEscape control
  have trailing : isTrailingSurrogate c.toNat = false := by
    rw [isTrailingSurrogate, Bool.and_eq_false_iff]
    exact .inl (decide_eq_false (by omega))
  have leading : isLeadingSurrogate c.toNat = false := by
    rw [isLeadingSurrogate, Bool.and_eq_false_iff]
    exact .inl (decide_eq_false (by omega))
  have spells := Spells.word word trailing leading .nil
  rw [Char.ofNat_toNat, List.append_nil] at spells
  rw [digits]
  exact spells

/-- Each character is written as itself or as an escape, and either spells it. -/
theorem spells_escapeChar (c : Char) : Spells (Utf8.encode (escapeChar c)) (Utf8.encodeChar c) := by
  unfold escapeChar
  split
  · rename_i quote
    subst quote
    exact .of_letter (by decide) (by decide) (by decide)
  split
  · rename_i backslash
    subst backslash
    exact .of_letter (by decide) (by decide) (by decide)
  split
  · rename_i quote backslash shown
    rw [Utf8.encode_cons, Utf8.encode_nil, List.append_nil]
    exact .of_plain fun b => isPlain_of_mem_encodeChar quote backslash shown
  rename_i control
  -- the five controls that have a letter of their own
  have lettered {e : Char} (n : Nat) (same : c.toNat = n) (narrow : n < 0x80) (ascii : e.toNat < 0x80)
      (stands : simpleEscape? (UInt8.ofNat e.toNat) = some (UInt8.ofNat n)) :
      Spells (Utf8.encode ['\\', e]) (Utf8.encodeChar c) :=
    .of_letter (same ▸ stands) ascii (same ▸ narrow)
  split
  · exact lettered 0x08 ‹_› (by decide) (by decide) (by decide)
  split
  · exact lettered 0x09 ‹_› (by decide) (by decide) (by decide)
  split
  · exact lettered 0x0A ‹_› (by decide) (by decide) (by decide)
  split
  · exact lettered 0x0C ‹_› (by decide) (by decide) (by decide)
  split
  · exact lettered 0x0D ‹_› (by decide) (by decide) (by decide)
  exact spells_controlEscape (Nat.not_le.mp control)

theorem spells_flatMap_escapeChar (cs : List Char) : Spells (Utf8.encode (cs.flatMap escapeChar)) (Utf8.encode cs) := by
  induction cs with
  | nil => exact .nil
  | cons c cs ih =>
    rw [List.flatMap_cons, Utf8.encode_append, Utf8.encode_cons]
    exact (spells_escapeChar c).append ih

/-- A string as it is printed is a literal of it. -/
theorem literal_quoteText (s : String) : Literal (Utf8.encode (quoteText s)) s := by
  refine ⟨_, _, ?_, spells_flatMap_escapeChar s.toList, ?_⟩
  · rw [quoteText, quote, List.cons_append, Utf8.encode_cons, Utf8.encode_append]
    rfl
  · rw [Utf8.toString?, Utf8.decode?_encode, Option.map_some, String.ofList_toList]

/-! ### Control characters -/

theorem not_control_of_hexDigit? {b : UInt8} {n : Nat} (digit : hexDigit? b = some n) : ¬ b < 0x20 := by
  intro control
  have small : b.toNat < 0x20 := UInt8.lt_iff_toNat_lt.mp control
  have none : hexDigit? b = none := by
    rw [hexDigit?, if_neg (by omega), if_neg (by omega), if_neg (by omega)]
  rw [none] at digit
  cases digit

theorem not_control_of_simpleEscape? {e b : UInt8} (letter : simpleEscape? e = some b) : ¬ e < 0x20 := by
  intro control
  have other (c : UInt8) (shown : ¬ c < 0x20) : e ≠ c := by
    rintro rfl
    exact shown control
  have none : simpleEscape? e = none := by
    simp [simpleEscape?, other 0x22 (by decide), other 0x5C (by decide), other 0x2F (by decide), other 0x62 (by decide),
      other 0x66 (by decide), other 0x6E (by decide), other 0x72 (by decide), other 0x74 (by decide)]
  rw [none] at letter
  cases letter

/-- A string holds no control character, however it is written. -/
theorem StringBody.not_control {body : Bytes} (formed : StringBody body) : ∀ b ∈ body, ¬ b < 0x20 := by
  induction formed with
  | nil => simp
  | plain plain _ ih => exact List.forall_mem_cons.mpr ⟨plain.2.2, ih⟩
  | letter letter _ ih =>
    exact List.forall_mem_cons.mpr ⟨by decide, List.forall_mem_cons.mpr ⟨not_control_of_simpleEscape? letter, ih⟩⟩
  | word word _ ih =>
    simp only [hexWord?, Option.bind_eq_bind, Option.bind_eq_some_iff] at word
    obtain ⟨_, first, _, second, _, third, _, fourth, _⟩ := word
    simp only [List.forall_mem_cons]
    exact ⟨by decide, by decide, not_control_of_hexDigit? first, not_control_of_hexDigit? second,
      not_control_of_hexDigit? third, not_control_of_hexDigit? fourth, ih⟩

theorem Literal.not_control {t : Bytes} {s : String} (literal : Literal t s) : ∀ b ∈ t, ¬ b < 0x20 := by
  obtain ⟨body, bytes, rfl, spells, _⟩ := literal
  have between := spells.stringBody.not_control
  simp only [quoted, List.forall_mem_cons, List.forall_mem_append]
  exact ⟨by decide, between, by decide, by simp⟩

end EventRelay.Json
