import EventRelay.Environment
import EventRelay.Proofs.Text.Blank

/-!
Numbers in the environment. A variable gives a number if its text is a numeral with blanks around it, and a number that
64 bits hold is read exactly where it is given.
-/

namespace EventRelay.Environment

/-- The text of a variable is this number, with blanks around it. -/
def Gives (env : Environment) (name : String) (n : Nat) : Prop :=
  ∃ before numeral after, env.text? name = some (String.ofList (before ++ (numeral ++ after))) ∧
    (∀ c ∈ before, Text.isBlank c = true) ∧ (∀ c ∈ after, Text.isBlank c = true) ∧ Digits.IsUnsigned n numeral

/-- A numeral begins and ends with a character that shows. -/
theorem trimChars_numeral {n : Nat} {before numeral after : List Char} (blank : ∀ c ∈ before, Text.isBlank c = true)
    (blank' : ∀ c ∈ after, Text.isBlank c = true) (unsigned : Digits.IsUnsigned n numeral) :
    Text.trimChars (before ++ (numeral ++ after)) = numeral := by
  obtain ⟨sign, digits, rfl, signed, filled, all, _⟩ := unsigned
  refine Text.trimChars_append blank blank' ?_ (Text.isBlank_getLast?_digits filled all)
  intro c member
  rcases signed with rfl | rfl
  · exact Text.isBlank_eq_false_of_isDigit (all c (List.mem_of_mem_head? member))
  · cases member
    decide

theorem word?_eq_some_iff {env : Environment} {name : String} {w : UInt64} :
    env.word? name = some w ↔ env.Gives name w.toNat := by
  have small : w.toNat ≤ UInt64.size - 1 := Nat.le_sub_one_of_lt w.toNat_lt
  rw [word?, Option.bind_eq_some_iff]
  constructor
  · rintro ⟨text, given, read⟩
    obtain ⟨n, numeral, rfl⟩ := Option.map_eq_some_iff.mp read
    obtain ⟨unsigned, within⟩ := Digits.unsigned?_eq_some_iff.mp numeral
    obtain ⟨before, after, blank, blank', split⟩ := Text.exists_trimChars text.toList
    refine ⟨before, Text.trimChars text.toList, after, ?_, blank, blank', ?_⟩
    · rw [← split, String.ofList_toList, given]
    · rwa [UInt64.toNat_ofNat_of_lt' (Nat.lt_of_le_pred (by decide) within)]
  · rintro ⟨before, numeral, after, given, blank, blank', unsigned⟩
    refine ⟨_, given, ?_⟩
    have read := Digits.unsigned?_eq_some_iff.mpr ⟨unsigned, small⟩
    rw [parseWord?, String.toList_ofList, trimChars_numeral blank blank' unsigned, read, Option.map_some,
      UInt64.ofNat_toNat]

theorem gives_unique {env : Environment} {name : String} {w w' : UInt64} (given : env.Gives name w.toNat)
    (given' : env.Gives name w'.toNat) : w = w' :=
  Option.some.inj ((word?_eq_some_iff.mpr given).symm.trans (word?_eq_some_iff.mpr given'))

/-- A number that is given stands in place of the default. -/
theorem wordD_of_gives {env : Environment} {name : String} {w : UInt64} (given : env.Gives name w.toNat)
    (default : UInt64) : env.wordD name default = w := by
  rw [wordD, word?_eq_some_iff.mpr given, Option.getD_some]

theorem wordD_of_forall_not_gives {env : Environment} {name : String}
    (none : ∀ w : UInt64, ¬env.Gives name w.toNat) (default : UInt64) : env.wordD name default = default := by
  have unread : env.word? name = .none := by
    rw [Option.eq_none_iff_forall_ne_some]
    exact fun w read => none w (word?_eq_some_iff.mp read)
  rw [wordD, unread, Option.getD_none]

end EventRelay.Environment
