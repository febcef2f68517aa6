import EventRelay.Proofs.Text.Utf8

/-!
Text in order. Texts are ordered by their characters, and so are their bytes in UTF-8.
-/

namespace EventRelay.Utf8

/-- The bytes of two characters are told apart before either of them ends. -/
theorem encodeChar_append_lt {c d : Char} (less : c.toNat < d.toNat) (s t : Bytes) :
    encodeChar c ++ s < encodeChar d ++ t := by
  have bound := toNat_lt d
  simp only [encodeChar]
  -- a longer character has a greater first byte, and two of one length have their bits in the same places
  repeat' split
  all_goals try omega
  all_goals
    simp (disch := omega) only [List.cons_append, List.nil_append, List.cons_lt_cons_iff, UInt8.lt_iff_toNat_lt,
      ← UInt8.toNat_inj, toNat_byte]
    omega

theorem encodeChar_ne_nil (c : Char) : encodeChar c ≠ [] := by
  simp only [encodeChar]
  split
  · exact List.cons_ne_nil _ _
  split
  · exact List.cons_ne_nil _ _
  split <;> exact List.cons_ne_nil _ _

theorem encode_lt {cs ds : List Char} (less : cs < ds) : encode cs < encode ds := by
  induction less with
  | @nil d ds =>
    obtain ⟨b, s, same⟩ := List.exists_cons_of_ne_nil (encodeChar_ne_nil d)
    rw [encode_cons, same]
    exact List.nil_lt_cons _ _
  | rel less =>
    rw [encode_cons, encode_cons]
    exact encodeChar_append_lt less _ _
  | cons _ ih =>
    rw [encode_cons, encode_cons]
    exact List.append_left_lt ih

theorem ofString_ofList_lt {cs ds : List Char} (less : cs < ds) :
    ofString (String.ofList cs) < ofString (String.ofList ds) := by
  rw [ofString, ofString, String.toList_ofList, String.toList_ofList]
  exact encode_lt less

theorem ofString_lt {s t : String} (less : compare s t = .lt) : ofString s < ofString t :=
  encode_lt (String.lt_iff.mp (compareOfLessAndEq_eq_lt.mp less))

end EventRelay.Utf8
