import EventRelay.Proofs.Event.Presentation
import EventRelay.Proofs.Json.Cuts

/-!
Payloads that are too short or too long. A payload that carries an envelope shows where it ends: nothing that it
begins with is a payload too, and nothing but space may follow it.
-/

namespace EventRelay

open Json

namespace Envelope

variable {e : Envelope} {p : Bytes}

/-- A text that is cut off before its closing quote is none, whatever the field. -/
theorem fails_readField_cut {f : Field} {t : Bytes} {s : String} (literal : Literal t s) (cut : Cut p t) :
    Fails (readField f p) := by
  have pad (s : Bytes) : readField f s = readField f ((default : Gap).val ++ s) := rfl
  rcases literal.fails_cut cut with rfl | ⟨p, rfl, fails⟩
  · by_cases other : f = .metadata
    · subst other
      exact (fails_faultAtNext .endInValue []).bind _
    cases required : f.isRequired with
    | true =>
      rw [pad, Field.readField_required required]
      exact fails_faultAtNext _ _
    | false =>
      rw [pad, Field.readField_optional other required]
      exact fails_faultAtNext _ _
  · have text : Fails (readText (0x22 :: p)) := by
      rw [readText, skipSpace_of_not_isSpace (by decide)]
      exact fails
    by_cases other : f = .metadata
    · subst other
      have value : Fails (readValue (fuelFor (0x22 :: p)) (depthLimit - 1) (0x22 :: p)) := by
        rw [fuelFor, readValue, skipSpace_of_not_isSpace (by decide)]
        exact fails.bind _
      exact value.bind _
    cases required : f.isRequired with
    | true =>
      rw [pad, Field.readField_required required]
      exact text
    | false =>
      rw [pad, Field.readField_optional other required, Field.readTextOrNull_other (by decide) (by decide)]
      exact text

theorem entry_text (e : Envelope) (first : Bool) (f : Field) : (e.entry f).text first =
    separator first ++ Utf8.encode (quoteText f.name) ++ 0x3A :: Utf8.encode (quoteText (e.get f)) := by
  rw [List.append_assoc]
  rfl

/-- A member that is cut off before its end. -/
theorem fails_readNamed_inside {fuel : Nat} {first : Bool} {given : Given} {f : Field}
    (cut : Cut p ((e.entry f).text first)) : Fails (readNamed fuel first given p) := by
  cases fuel with
  | zero => exact fails_faultAtNext _ _
  | succ fuel =>
  rw [entry_text] at cut
  rw [readNamed]
  rcases cut.of_append with name | ⟨p, rfl, after⟩
  · exact (fails_nextName_cut (literal_quoteText f.name) name).bind _
  rw [List.append_assoc, nextName_literal (literal_quoteText f.name), ok_bind]
  simp only [Field.ofName?_name]
  split
  · exact fails_fault _ _
  rcases after.of_cons with rfl | ⟨p, rfl, value⟩
  · exact (fails_faultAtNext .endInObject []).bind _
  · rw [readColon, skipSpace_of_not_isSpace (by decide)]
    exact (fails_readField_cut (literal_quoteText (e.get f)) value).bind _

/-- An object is cut off inside a member, or after some of them. -/
theorem fails_readNamed_cut {fs : List Field} {fuel : Nat} {first : Bool} {given : Given}
    (cut : Cut p (Entry.texts first (fs.map e.entry) ++ [0x7D])) : Fails (readNamed fuel first given p) := by
  induction fs generalizing fuel first given p with
  | nil =>
    rcases cut.of_cons with rfl | ⟨p, rfl, missing, some, whole⟩
    · cases fuel <;> exact fails_faultAtNext _ _
    · exact absurd (List.append_eq_nil_iff.mp whole).2 some
  | cons f fs ih =>
    rw [List.map_cons, Entry.texts, List.append_assoc] at cut
    rcases cut.of_append with inside | ⟨p, rfl, later⟩
    · exact fails_readNamed_inside inside
    cases fuel with
    | zero => exact fails_faultAtNext _ _
    | succ fuel =>
    have known := e.field?_entry f
    cases fresh : given.find? f with
    | some _ => exact Entry.fails_readNamed_again known (by simp [fresh]) fuel p
    | none =>
      have apart : Apart p := later.apart (Entry.texts_apart (fs.map e.entry) default [])
      have read : readField f ((e.entry f).pad.val ++ ((e.entry f).value ++ p)) = .ok (f.reread (e.get f), p) :=
        Field.reads_literal (literal_quoteText (e.get f)) _ p apart
      rw [Entry.readNamed_take known fresh, read, ok_bind]
      exact ih later

theorem encode_eq_texts (e : Envelope) : e.encode = 0x7B :: (Entry.texts true (Field.all.map e.entry) ++ [0x7D]) := by
  rw [encode_eq_objectText]
  rfl

theorem read_brace (s : Bytes) :
    read (0x7B :: s) = (readObject s >>= fun p => expectEnd p.2 >>= fun _ => .ok p.1) := by
  rw [read, skipSpace_of_not_isSpace (by decide)]
  rfl

theorem fails_read_cut (cut : Cut p e.encode) : Fails (read p) := by
  rw [encode_eq_texts] at cut
  rcases cut.of_cons with rfl | ⟨p, rfl, inside⟩
  · exact (fails_faultAtNext .endInValue []).bind _
  · have object : Fails (readObject p) := (fails_readNamed_cut inside).bind _
    rw [read_brace]
    exact object.bind _

/-- What an envelope's payload begins with is no payload. -/
theorem decode_cut (cut : Cut p e.encode) (some : p ≠ []) :
    ∃ cause place, decode p = .error (.malformed cause place) := by
  have fails := fails_read_cut cut
  rw [encode_eq_texts] at cut
  rcases cut.of_cons with rfl | ⟨p, rfl, _⟩
  · exact absurd rfl some
  · exact decode_of_fails rfl fails

theorem objectText_map_entry (e : Envelope) (before after : Gap) :
    Entry.objectText before default after (Field.all.map e.entry) = before.val ++ (e.encode ++ after.val) := by
  rw [encode_eq_texts, List.cons_append, List.append_assoc]
  rfl

/-- Space around a payload makes no difference. -/
theorem decode_spaced (e : Envelope) (before after : Gap) :
    decode (before.val ++ (e.encode ++ after.val)) = decode e.encode := by
  have presents := e.presents_map_entry (.refl _)
  rw [← objectText_map_entry, encode_eq_objectText, presents.decode, presents.decode]

theorem expectEnd_of_mem {tail : Bytes} {b : UInt8} (member : b ∈ tail) (word : isSpace b = false) :
    ∃ left, expectEnd tail = .error ⟨.trailingCharacters, left⟩ := by
  have some : skipSpace tail ≠ [] := by
    intro nothing
    have whole : tail.takeWhile isSpace ++ skipSpace tail = tail := List.takeWhile_append_dropWhile
    rw [nothing, List.append_nil] at whole
    have space := List.all_eq_true.mp List.all_takeWhile b (whole ▸ member)
    simp [space] at word
  obtain ⟨c, rest, same⟩ := List.exists_cons_of_ne_nil some
  exact ⟨_, by rw [expectEnd, same]; rfl⟩

/-- What follows a payload has to be space. -/
theorem decode_followed (e : Envelope) {tail : Bytes} {b : UInt8} (member : b ∈ tail) (word : isSpace b = false) :
    ∃ place, decode (e.encode ++ tail) = .error (.malformed .trailingCharacters place) := by
  obtain ⟨left, refused⟩ := expectEnd_of_mem member word
  have object : readObject (Entry.texts true (Field.all.map e.entry) ++ 0x7D :: tail) = .ok (e.reread, tail) :=
    (e.presents_map_entry (.refl _)).readObject default tail
  have whole : e.encode ++ tail = 0x7B :: (Entry.texts true (Field.all.map e.entry) ++ 0x7D :: tail) := by
    rw [encode_eq_texts, List.cons_append, List.append_assoc]
    rfl
  have parsed : read (e.encode ++ tail) = .error ⟨.trailingCharacters, left⟩ := by
    rw [whole, read_brace, object, ok_bind, refused]
    rfl
  refine ⟨.ofLeft (e.encode ++ tail) left, ?_⟩
  have brace : (e.encode ++ tail).all isEmptySpace = false := by
    rw [whole]
    rfl
  simp only [decode, brace, parsed, Bool.false_eq_true, if_false]

/-- Where the payload of an envelope ends. A part of it that is cut off is refused: it is empty if nothing is left
of it and malformed otherwise, wherever the cut is. With space around it the payload is what it is without, and with
anything else after it, at once or after some space, it is malformed. -/
theorem decode_whole (e : Envelope) :
    (∀ p, p <+: e.encode → p ≠ e.encode → (p = [] → decode p = .error .empty) ∧
      (p ≠ [] → ∃ cause place, decode p = .error (.malformed cause place))) ∧
    (∀ before after : Gap, decode (before.val ++ (e.encode ++ after.val)) = decode e.encode) ∧
    ∀ tail, (∃ b ∈ tail, isSpace b = false) →
      ∃ place, decode (e.encode ++ tail) = .error (.malformed .trailingCharacters place) := by
  refine ⟨fun p front other => ⟨?_, fun some => ?_⟩, e.decode_spaced, ?_⟩
  · rintro rfl
    rfl
  · obtain ⟨missing, whole⟩ := front
    refine decode_cut ⟨missing, ?_, whole⟩ some
    rintro rfl
    exact other (by rw [← whole, List.append_nil])
  · rintro tail ⟨b, member, word⟩
    exact e.decode_followed member word

/-- A payload without its last byte, and one with a blank and a second brace after it. -/
theorem decode_whole_sparse :
    (sparse.encode.dropLast <+: sparse.encode ∧ sparse.encode.dropLast ≠ sparse.encode ∧ sparse.encode.dropLast ≠ [] ∧
      ∃ cause place, decode sparse.encode.dropLast = .error (.malformed cause place)) ∧
    (∃ b ∈ [0x20, 0x7D], isSpace b = false) ∧
      ∃ place, decode (sparse.encode ++ [0x20, 0x7D]) = .error (.malformed .trailingCharacters place) := by
  have other : sparse.encode.dropLast ≠ sparse.encode := by decide +kernel
  have some : sparse.encode.dropLast ≠ [] := by decide +kernel
  have brace : ∃ b ∈ [0x20, 0x7D], isSpace b = false := ⟨0x7D, by simp, rfl⟩
  exact ⟨⟨List.dropLast_prefix _, other, some, ((decode_whole sparse).1 _ (List.dropLast_prefix _) other).2 some⟩, brace,
    (decode_whole sparse).2.2 _ brace⟩

end Envelope

end EventRelay
