import EventRelay.Proofs.Json.Reading
import EventRelay.Proofs.Text.Digits

/-!
Integers are written in one way only, and those that 64 bits hold are read exactly.
-/

namespace EventRelay.Json

theorem absorb_eq {most n : Nat} {digits : List Nat} (fits : digits.foldl (fun n d => n * 10 + d) n ≤ most) :
    absorb most n digits = (digits.foldl (fun n d => n * 10 + d) n, []) := by
  have grows (digits : List Nat) (n : Nat) : n ≤ digits.foldl (fun n d => n * 10 + d) n := by
    induction digits generalizing n with
    | nil => exact Nat.le_refl n
    | cons d digits ih => exact Nat.le_trans (by omega) (ih (n * 10 + d))
  induction digits generalizing n with
  | nil => rfl
  | cons d digits ih =>
    rw [absorb, if_pos (Nat.le_trans (grows digits _) fits), ih fits]
    rfl

theorem encodeChar_digit {c : Char} (digit : c.isDigit) : Utf8.encodeChar c = [UInt8.ofNat c.toNat] := by
  obtain ⟨_, most⟩ := Digits.toNat_of_isDigit digit
  exact Utf8.encodeChar_ascii (by omega)

theorem toNat_digit {c : Char} (digit : c.isDigit) : (UInt8.ofNat c.toNat).toNat = c.toNat := by
  obtain ⟨_, most⟩ := Digits.toNat_of_isDigit digit
  exact Utf8.toNat_byte (by omega)

theorem isDigit_digit {c : Char} (digit : c.isDigit) : isDigit (UInt8.ofNat c.toNat) = true := by
  obtain ⟨least, most⟩ := Digits.toNat_of_isDigit digit
  simp [isDigit, UInt8.le_iff_toNat_le, toNat_digit digit, least, most]

theorem encode_digits {cs : List Char} (digits : ∀ c ∈ cs, c.isDigit) :
    Utf8.encode cs = cs.map fun c => UInt8.ofNat c.toNat := by
  induction cs with
  | nil => rfl
  | cons c cs ih =>
    obtain ⟨first, rest⟩ := List.forall_mem_cons.mp digits
    rw [Utf8.encode_cons, encodeChar_digit first, ih rest]
    rfl

theorem encode_decimal (n : Nat) :
    Utf8.encode (Digits.decimal n) = (Digits.decimal n).map fun c => UInt8.ofNat c.toNat :=
  encode_digits fun _ => Digits.isDigit_of_mem_decimal

theorem isWhole_decimal (n : Nat) : IsWhole (Utf8.encode (Digits.decimal n)) := by
  rw [encode_decimal]
  refine ⟨⟨fun nothing => Digits.decimal_ne_nil n (List.map_eq_nil_iff.mp nothing), ?_⟩, fun rest zero => ?_⟩
  · intro b member
    obtain ⟨c, digit, rfl⟩ := List.mem_map.mp member
    exact isDigit_digit (Digits.isDigit_of_mem_decimal digit)
  · obtain ⟨c, cs, same, first, rfl⟩ := List.map_eq_cons_iff.mp zero
    have digit : c.isDigit := Digits.isDigit_of_mem_decimal (same ▸ List.mem_cons_self)
    have value : c.toNat = 0x30 := by
      rw [← toNat_digit digit, first]
      rfl
    obtain rfl : c = '0' := Char.toNat_inj.mp value
    rw [Digits.decimal_zero same]
    rfl

theorem readNumber_decimal {n : Nat} (fits : n ≤ greatestWord) (positive : Bool) {tail : Bytes} (apart : Apart tail) :
    readNumber positive (Utf8.encode (Digits.decimal n) ++ tail) = wholeNumber positive n tail := by
  have read : ((Utf8.encode (Digits.decimal n)).map fun b => b.toNat - 0x30).foldl (fun n d => n * 10 + d) 0 = n := by
    have digits : (Utf8.encode (Digits.decimal n)).map (fun b => b.toNat - 0x30) =
        (Digits.decimal n).map fun c => c.toNat - '0'.toNat := by
      rw [encode_decimal, List.map_map]
      refine List.map_congr_left fun c member => ?_
      rw [Function.comp_apply, toNat_digit (Digits.isDigit_of_mem_decimal member)]
      rfl
    rw [digits, List.foldl_map]
    exact Digits.value_decimal n
  have absorbed : absorb greatestWord 0 ((Utf8.encode (Digits.decimal n)).map fun b => b.toNat - 0x30) = (n, []) := by
    rw [absorb_eq (by rwa [read]), read]
  rw [readNumber_whole (isWhole_decimal n) positive absorbed apart.noDigit, afterWhole_apart apart]
  rfl

/-- What 64 bits hold, with a sign or without. -/
def InWord (i : Int) : Prop :=
  -0x8000000000000000 ≤ i ∧ i ≤ 0xFFFFFFFFFFFFFFFF

theorem IsWhole.magnitude {s : Bytes} (whole : IsWhole s) : IsMagnitude s :=
  ⟨s, [], [], by simp, whole, .none, .none⟩

theorem ofString_signedText_ofNat (n : Nat) :
    Utf8.ofString (Digits.signedText (.ofNat n)) = Utf8.encode (Digits.decimal n) := by
  rw [Utf8.ofString, Digits.signedText, Digits.toText, String.toList_ofList]

theorem ofString_signedText_negSucc (n : Nat) :
    Utf8.ofString (Digits.signedText (.negSucc n)) = 0x2D :: Utf8.encode (Digits.decimal (n + 1)) := by
  rw [Utf8.ofString, Digits.signedText, String.toList_ofList]
  rfl

theorem scalar_signedText (i : Int) : Scalar (Utf8.ofString (Digits.signedText i)) := by
  cases i with
  | ofNat n =>
    rw [ofString_signedText_ofNat]
    exact .positive (isWhole_decimal n).magnitude
  | negSucc n =>
    rw [ofString_signedText_negSucc]
    exact .negative (isWhole_decimal (n + 1)).magnitude

/-- An integer that 64 bits hold is read as itself. -/
theorem denotes_integer {i : Int} (fits : InWord i) (depth : Nat) :
    Denotes depth (Utf8.ofString (Digits.signedText i)) (.number (.integer i)) := by
  obtain ⟨least, most⟩ := fits
  have scalar := scalar_signedText i
  cases i with
  | ofNat n =>
    have fits : n ≤ greatestWord := by
      simp only [Int.ofNat_eq_natCast] at most
      rw [greatestWord]
      omega
    rw [ofString_signedText_ofNat] at scalar ⊢
    obtain ⟨b, s, text, _⟩ := scalar.head
    have whole := (isWhole_decimal n).magnitude
    rw [text] at scalar whole ⊢
    refine scalar.denotes (fun tail apart => ?_) depth
    rw [readScalar_digit whole.head, ← List.cons_append, ← text, readNumber_decimal fits true apart]
    rfl
  | negSucc n =>
    have small : n + 1 ≤ 0x8000000000000000 := by omega
    have fits : n + 1 ≤ greatestWord := Nat.le_trans small (by decide)
    rw [ofString_signedText_negSucc] at scalar ⊢
    refine scalar.denotes (fun tail apart => ?_) depth
    have signed : wholeNumber false (n + 1) tail = .ok (.integer (.negSucc n), tail) := by
      rw [wholeNumber, if_neg (by decide), if_pos ⟨Nat.succ_pos n, small⟩]
      rfl
    have read : readScalar 0x2D (Utf8.encode (Digits.decimal (n + 1)) ++ tail) =
        (readNumber false (Utf8.encode (Digits.decimal (n + 1)) ++ tail) >>= fun p => .ok (.number p.1, p.2)) := rfl
    rw [read, readNumber_decimal fits false apart, signed]
    rfl

end EventRelay.Json
