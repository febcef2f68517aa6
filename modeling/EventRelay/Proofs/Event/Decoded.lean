import EventRelay.Proofs.Event.RoundTrip
import EventRelay.Proofs.Text.Blank

/-!
What can come out of reading a payload: an identifier and a type that are not blank, and metadata
that is not blank either, whatever JSON value it was given as. Such an envelope comes back as it is
when it is written and read again.
-/

namespace EventRelay

open Json

theorem Digits.exists_mem_decimal (n : Nat) : ∃ c ∈ Digits.decimal n, Text.isBlank c = false := by
  obtain ⟨c, member⟩ := List.exists_mem_of_ne_nil _ (decimal_ne_nil n)
  exact ⟨c, member, Text.isBlank_eq_false_of_isDigit (isDigit_of_mem_decimal member)⟩

theorem DecimalLayout.exists_mem_positive {layout : DecimalLayout} (point : '.' ∈ layout.wholeEnding) (d : Decimal) :
    ∃ c ∈ layout.positive d, Text.isBlank c = false := by
  simp only [positive]
  split
  · split
    · exact ⟨'.', List.mem_append_right _ point, by decide⟩
    split
    · exact ⟨'.', by simp, by decide⟩
    · exact ⟨'0', by simp, by decide⟩
  · exact ⟨'e', by simp, by decide⟩

theorem Json.Number.exists_mem_chars (n : Number) : ∃ c ∈ n.chars, Text.isBlank c = false := by
  cases n with
  | integer i =>
    cases i with
    | ofNat n =>
      obtain ⟨c, member, shown⟩ := Digits.exists_mem_decimal n
      exact ⟨c, by simpa [chars, Digits.signedText, Digits.toText] using member, shown⟩
    | negSucc n => exact ⟨'-', by simp [chars, Digits.signedText], by decide⟩
  | float negative x =>
    have magnitude : ∃ c ∈ layout.chars x, Text.isBlank c = false := by
      unfold DecimalLayout.chars
      split
      · exact ⟨'0', List.mem_cons_self, by decide⟩
      · exact DecimalLayout.exists_mem_positive (by decide) x.shortest
    obtain ⟨c, member, shown⟩ := magnitude
    exact ⟨c, List.mem_append_right _ member, shown⟩

/-- Metadata says something, whatever JSON value it is given as. -/
theorem allBlank_metadataText (v : Value) : Text.allBlank (metadataText v) = false := by
  cases v with
  | null => decide
  | bool b => cases b <;> decide
  | number n =>
    obtain ⟨c, member, shown⟩ := n.exists_mem_chars
    exact Text.allBlank_eq_false_of_mem (by simpa [metadataText, Value.text, Value.chars] using member) shown
  | string s =>
    change Text.allBlank (if Text.allBlank s then Field.absent .metadata else s) = false
    split
    · decide
    · simpa using ‹¬ Text.allBlank s = true›
  | array items =>
    exact Text.allBlank_eq_false_of_mem (c := '[') (by simp [metadataText, Value.text, Value.chars]) (by decide)
  | object members =>
    exact Text.allBlank_eq_false_of_mem (c := '\x7b') (by simp [metadataText, Value.text, Value.chars]) (by decide)

namespace Envelope

/-- No metadata that was read is blank. -/
def Given.Shown (given : Given) : Prop :=
  ∀ text, (Field.metadata, text) ∈ given → Text.allBlank text = false

theorem Given.Shown.cons {given : Given} {f : Field} {s rest : Bytes} {text : String} (shown : given.Shown)
    (read : readField f s = .ok (text, rest)) : Given.Shown ((f, text) :: given) := by
  intro other member
  rcases List.mem_cons.mp member with same | old
  · cases same
    obtain ⟨⟨v, left⟩, _, result⟩ := bind_eq_ok.mp read
    cases result
    exact allBlank_metadataText v
  · exact shown other old

theorem Given.Shown.toEnvelope {given : Given} (shown : given.Shown) :
    Text.allBlank given.toEnvelope.metadata = false := by
  change Text.allBlank ((given.find? .metadata).getD (Field.absent .metadata)) = false
  cases found : given.find? .metadata with
  | none => decide
  | some text =>
    obtain ⟨before, after, split, _⟩ := List.lookup_eq_some_iff.mp found
    exact shown text (by simp [split])

theorem readNamed_shown {fuel : Nat} {first : Bool} {given out : Given} {s rest : Bytes} (shown : given.Shown)
    (read : readNamed fuel first given s = .ok (out, rest)) : out.Shown := by
  induction fuel generalizing first given s with
  | zero => cases read
  | succ fuel ih =>
    obtain ⟨⟨next, left⟩, _, read⟩ := bind_eq_ok.mp read
    cases next with
    | none =>
      cases read
      exact shown
    | some name =>
      dsimp only at read
      split at read
      · obtain ⟨_, _, read⟩ := bind_eq_ok.mp read
        obtain ⟨_, _, read⟩ := bind_eq_ok.mp read
        exact ih shown read
      split at read
      · cases read
      · obtain ⟨_, _, read⟩ := bind_eq_ok.mp read
        obtain ⟨_, field, read⟩ := bind_eq_ok.mp read
        exact ih (shown.cons field) read

theorem readInOrder_shown {fields : List Field} {first : Bool} {out : Given} {s rest : Bytes}
    (read : readInOrder fields first s = .ok (out, rest)) : out.Shown := by
  induction fields generalizing first out s with
  | nil =>
    obtain ⟨_, _, result⟩ := bind_eq_ok.mp read
    cases result
    simp [Given.Shown]
  | cons f fields ih =>
    obtain ⟨⟨next, left⟩, _, read⟩ := bind_eq_ok.mp read
    cases next with
    | none =>
      cases read
      simp [Given.Shown]
    | some _ =>
      obtain ⟨_, field, read⟩ := bind_eq_ok.mp read
      obtain ⟨_, more, result⟩ := bind_eq_ok.mp read
      cases result
      exact (ih more).cons field

theorem readObject_shown {s rest : Bytes} {e : Envelope} (read : readObject s = .ok (e, rest)) :
    Text.allBlank e.metadata = false := by
  obtain ⟨_, named, result⟩ := bind_eq_ok.mp read
  dsimp only at result
  split at result
  · cases result
  · cases result
    exact (readNamed_shown (by simp [Given.Shown]) named).toEnvelope

theorem readArray_shown {s rest : Bytes} {e : Envelope} (read : readArray s = .ok (e, rest)) :
    Text.allBlank e.metadata = false := by
  obtain ⟨_, ordered, result⟩ := bind_eq_ok.mp read
  dsimp only at result
  split at result
  · cases result
  · cases result
    exact (readInOrder_shown ordered).toEnvelope

theorem mismatch_ne_ok {α : Type} (expected : String) (s : Bytes) (a : α) : mismatch expected s ≠ .ok a := by
  intro read
  unfold mismatch at read
  split at read
  · cases read
  split at read
  · cases read
  split at read
  · cases read
  · obtain ⟨_, _, result⟩ := bind_eq_ok.mp read
    cases result

theorem eq_ok_of_expectEnd {x : Except Fault (Envelope × Bytes)} {e : Envelope}
    (whole : (x >>= fun (e, rest) => expectEnd rest >>= fun _ => .ok e) = .ok e) : ∃ rest, x = .ok (e, rest) := by
  obtain ⟨⟨e, rest⟩, found, ending⟩ := bind_eq_ok.mp whole
  obtain ⟨_, _, result⟩ := bind_eq_ok.mp ending
  cases result
  exact ⟨rest, found⟩

theorem read_shown {payload : Bytes} {e : Envelope} (parsed : read payload = .ok e) :
    Text.allBlank e.metadata = false := by
  unfold read at parsed
  dsimp only at parsed
  split at parsed
  · obtain ⟨_, whole⟩ := eq_ok_of_expectEnd parsed
    cases whole
  split at parsed
  · obtain ⟨_, whole⟩ := eq_ok_of_expectEnd parsed
    exact readArray_shown whole
  split at parsed
  · obtain ⟨_, whole⟩ := eq_ok_of_expectEnd parsed
    exact readObject_shown whole
  · obtain ⟨_, whole⟩ := eq_ok_of_expectEnd parsed
    exact absurd whole (mismatch_ne_ok _ _ _)

theorem decode_shown {payload : Bytes} {e : Envelope} (decoded : decode payload = .ok e) :
    Text.allBlank e.eventId = false ∧ Text.allBlank e.eventType = false ∧ Text.allBlank e.metadata = false := by
  unfold decode at decoded
  split at decoded
  · cases decoded
  split at decoded
  · cases decoded
  · rename_i parsed
    split at decoded
    · cases decoded
    split at decoded
    · cases decoded
    · rename_i id kind
      cases decoded
      exact ⟨by simpa using id, by simpa using kind, read_shown parsed⟩

theorem read_of_decode {payload : Bytes} {e : Envelope} (decoded : decode payload = .ok e) : read payload = .ok e := by
  unfold decode at decoded
  split at decoded
  · cases decoded
  split at decoded
  · cases decoded
  · rename_i parsed
    split at decoded
    · cases decoded
    split at decoded
    · cases decoded
    · cases decoded
      exact parsed

theorem reread_eq_self {e : Envelope} (shown : Text.allBlank e.metadata = false) : e.reread = e := by
  simp [reread, shown]

/-- Whatever a payload is read as, object or array, with escapes, with texts that are null or left
out and metadata of any kind: the envelope that comes out of it is written as a payload of its own
that is read as the same envelope again. -/
theorem decode_fixed {payload : Bytes} {e : Envelope} (decoded : decode payload = .ok e) :
    decode e.encode = .ok e := by
  obtain ⟨id, kind, metadata⟩ := decode_shown decoded
  rw [decode_encode_reread, id, kind, reread_eq_self metadata]
  rfl

/-- An object whose members are out of order, with escapes, a pair of surrogates, a null, a name that
is of no field, and a number for its metadata. -/
def oddPayload : Bytes :=
  Utf8.ofString (" \x7b\"metadata\": 1.50, \"x\": [1], \"event_category\": \"\", \"org_id\" :null," ++
    "\"event_type\":\"T\", \"event_id\":\"\\u0061\\ud83d\\ude00\\n\"\x7d ")

theorem decode_fixed_odd :
    ∃ e, decode oddPayload = .ok e ∧ e.eventId = "a😀\n" ∧ e.metadata = "1.5" ∧ decode e.encode = .ok e := by
  have texts : (decode oddPayload).toOption.map (fun e => (e.eventId, e.metadata)) = some ("a😀\n", "1.5") := by
    decide +kernel
  cases decoded : decode oddPayload with
  | error _ => simp [decoded, Except.toOption] at texts
  | ok e =>
    simp only [decoded, Except.toOption, Option.map_some, Option.some.injEq, Prod.mk.injEq] at texts
    exact ⟨e, rfl, texts.1, texts.2, decode_fixed decoded⟩

end Envelope

end EventRelay
