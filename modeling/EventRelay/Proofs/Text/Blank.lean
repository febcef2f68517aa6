import EventRelay.Proofs.Text.Digits
import EventRelay.Text.Blank

/-!
What is not blank: digits, and a text in which some character shows. Trimming leaves a text as it is when its first
and its last character show.
-/

namespace EventRelay.Text

theorem allBlank_eq_false_of_mem {s : String} {c : Char} (member : c ∈ s.toList)
    (shown : isBlank c = false) : allBlank s = false := by
  rw [allBlank, List.all_eq_false]
  exact ⟨c, member, by simp [shown]⟩

theorem isBlank_eq_false_of_isDigit {c : Char} (digit : c.isDigit = true) : isBlank c = false := by
  obtain ⟨least, most⟩ := Digits.toNat_of_isDigit digit
  simp only [isBlank, Bool.or_eq_false_iff, Bool.and_eq_false_iff, decide_eq_false_iff_not, beq_eq_false_iff_ne]
  omega

theorem trimStart_eq_self {cs : List Char} (first : ∀ c ∈ cs.head?, isBlank c = false) : trimStart cs = cs := by
  cases cs with
  | nil => rfl
  | cons c cs => rw [trimStart, List.dropWhile_cons_of_neg (by simp [first c rfl])]

theorem trimStart_append {before : List Char} (blank : ∀ c ∈ before, isBlank c = true) (cs : List Char) :
    trimStart (before ++ cs) = trimStart cs := by
  rw [trimStart, List.dropWhile_append_of_pos blank]
  rfl

/-- Blank text around a text is cut off, up to the first character that shows and from the last one on. -/
theorem trimChars_append {before after cs : List Char} (blank : ∀ c ∈ before, isBlank c = true)
    (blank' : ∀ c ∈ after, isBlank c = true) (first : ∀ c ∈ cs.head?, isBlank c = false)
    (last : ∀ c ∈ cs.getLast?, isBlank c = false) : trimChars (before ++ (cs ++ after)) = cs := by
  have shown : ∀ c ∈ cs.reverse.head?, isBlank c = false := by rwa [List.head?_reverse]
  cases cs with
  | nil =>
    rw [trimChars_eq_nil_iff]
    intro c member
    rcases List.mem_append.mp member with front | back
    · exact blank c front
    · exact blank' c back
  | cons c cs =>
    have start : trimStart (c :: cs ++ after) = c :: cs ++ after :=
      trimStart_eq_self fun d member => first d member
    have blankEnd : ∀ c ∈ after.reverse, isBlank c = true := fun c member => blank' c (List.mem_reverse.mp member)
    rw [trimChars, trimStart_append blank, start, List.reverse_append, trimStart_append blankEnd,
      trimStart_eq_self shown, List.reverse_reverse]

theorem trimChars_eq_self {cs : List Char} (first : ∀ c ∈ cs.head?, isBlank c = false)
    (last : ∀ c ∈ cs.getLast?, isBlank c = false) : trimChars cs = cs := by
  have trimmed := @trimChars_append [] [] cs (by simp) (by simp) first last
  rwa [List.nil_append, List.append_nil] at trimmed

/-- What trimming cuts off is blank. -/
theorem exists_trimChars (cs : List Char) : ∃ before after, (∀ c ∈ before, isBlank c = true) ∧
    (∀ c ∈ after, isBlank c = true) ∧ cs = before ++ (trimChars cs ++ after) := by
  have blank (ds : List Char) : ∀ c ∈ ds.takeWhile isBlank, isBlank c = true :=
    List.all_eq_true.mp List.all_takeWhile
  have whole (ds : List Char) : ds.takeWhile isBlank ++ trimStart ds = ds := List.takeWhile_append_dropWhile
  have inner : trimChars cs ++ ((trimStart cs).reverse.takeWhile isBlank).reverse = trimStart cs := by
    rw [trimChars, ← List.reverse_append, whole, List.reverse_reverse]
  refine ⟨cs.takeWhile isBlank, ((trimStart cs).reverse.takeWhile isBlank).reverse, blank cs, fun c member => ?_, ?_⟩
  · exact blank _ c (List.mem_reverse.mp member)
  · rw [inner, whole]

/-- A text that ends in a numeral ends in a character that shows. -/
theorem isBlank_getLast?_digits {front digits : List Char} (filled : digits ≠ []) (all : ∀ c ∈ digits, c.isDigit) :
    ∀ c ∈ (front ++ digits).getLast?, isBlank c = false := by
  intro c member
  have last : digits.getLast? = some (digits.getLast filled) := List.getLast?_eq_some_getLast filled
  rw [List.getLast?_append, last, Option.some_or, ← last] at member
  exact isBlank_eq_false_of_isDigit (all c (List.mem_of_getLast? member))

end EventRelay.Text
