import EventRelay.Proofs.Event.Decoded
import EventRelay.Proofs.Event.Whole

/-!
Envelopes as lines. What an envelope is written as holds no control character, so a line feed ends a line and
nothing else does. An envelope can be told from its line, and so can rows from their lines.
-/

namespace EventRelay

open Json

namespace Envelope

theorem not_control_encode (e : Envelope) : ∀ b ∈ e.encode, ¬ b < 0x20 := by
  have members (first : Bool) (fs : List Field) : ∀ b ∈ Entry.texts first (fs.map e.entry), ¬ b < 0x20 := by
    induction fs generalizing first with
    | nil => simp [Entry.texts]
    | cons f fs ih =>
      have name := (literal_quoteText f.name).not_control
      have value := (literal_quoteText (e.get f)).not_control
      have comma : ∀ b ∈ separator first, ¬ b < 0x20 := by cases first <;> simp [separator]
      rw [List.map_cons, Entry.texts, entry_text]
      simp only [List.forall_mem_append, List.forall_mem_cons]
      exact ⟨⟨⟨comma, name⟩, by decide, value⟩, ih false⟩
  rw [encode_eq_texts]
  simp only [List.forall_mem_cons, List.forall_mem_append]
  exact ⟨by decide, members true Field.all, by decide, by simp⟩

/-- Members that are written the same hold the same. -/
theorem get_eq_of_texts {e e' : Envelope} {fs : List Field} {first : Bool} {s s' : Bytes}
    (same : Entry.texts first (fs.map e.entry) ++ s = Entry.texts first (fs.map e'.entry) ++ s') :
    ∀ f ∈ fs, e.get f = e'.get f := by
  induction fs generalizing first with
  | nil => simp
  | cons f fs ih =>
    simp only [List.map_cons, Entry.texts, entry_text, List.append_assoc, List.cons_append, List.append_cancel_left_eq,
      List.cons.injEq, true_and] at same
    obtain ⟨held, rest⟩ := (literal_quoteText (e.get f)).unique (literal_quoteText (e'.get f)) same
    exact List.forall_mem_cons.mpr ⟨held, ih rest⟩

theorem encode_injective {e e' : Envelope} (same : e.encode = e'.encode) : e = e' := by
  rw [encode_eq_texts, encode_eq_texts, List.cons.injEq] at same
  exact ext_get fun f => get_eq_of_texts same.2 f f.mem_all

/-! ### Lines -/

theorem linesText_bytes (rows : List Envelope) :
    Utf8.ofString (linesText rows) = rows.flatMap fun e => e.encode ++ [0x0A] := by
  rw [Utf8.ofString, linesText, String.toList_ofList, linesChars]
  induction rows with
  | nil => rfl
  | cons e rows ih =>
    rw [List.flatMap_cons, Utf8.encode_append, ih, Utf8.encode_append]
    rfl

theorem not_mem_encode (e : Envelope) : 0x0A ∉ e.encode :=
  fun member => e.not_control_encode _ member (by decide)

/-- Lines that each end with a line feed are lines with a line feed between them, of which the last one is empty. -/
theorem splitOn_linesText (rows : List Envelope) :
    (Utf8.ofString (linesText rows)).splitOn 0x0A = rows.map encode ++ [[]] := by
  have between : Utf8.ofString (linesText rows) = [0x0A].intercalate (rows.map encode ++ [[]]) := by
    rw [linesText_bytes]
    induction rows with
    | nil => rfl
    | cons e rows ih =>
      have some : rows.map encode ++ [[]] ≠ [] := by simp
      rw [List.flatMap_cons, ih, List.map_cons, List.cons_append, List.intercalate_cons_of_ne_nil some]
  rw [between]
  refine List.splitOn_intercalate 0x0A ?_ (by simp)
  simp only [List.forall_mem_append, List.forall_mem_map]
  exact ⟨fun e _ => e.not_mem_encode, by simp⟩

theorem count_linesText (rows : List Envelope) : (Utf8.ofString (linesText rows)).count 0x0A = rows.length := by
  rw [linesText_bytes]
  induction rows with
  | nil => rfl
  | cons e rows ih =>
    have own : (e.encode ++ [0x0A]).count 0x0A = 1 := by
      rw [List.count_append, List.count_eq_zero.mpr e.not_mem_encode]
      rfl
    rw [List.flatMap_cons, List.count_append, own, ih, List.length_cons, Nat.add_comm]

theorem control_of_mem_linesText {rows : List Envelope} {b : UInt8} (member : b ∈ Utf8.ofString (linesText rows))
    (control : b < 0x20) : b = 0x0A := by
  rw [linesText_bytes] at member
  obtain ⟨e, _, line⟩ := List.mem_flatMap.mp member
  rcases List.mem_append.mp line with inside | last
  · exact absurd control (e.not_control_encode b inside)
  · exact List.mem_singleton.mp last

theorem linesText_injective {rows others : List Envelope} (same : linesText rows = linesText others) :
    rows = others := by
  have lines := splitOn_linesText rows
  rw [same, splitOn_linesText, List.append_cancel_right_eq] at lines
  exact List.map_injective_iff.mpr (fun _ _ => encode_injective) lines.symm

/-- Rows and their lines. There is one line feed for each row and no other control character, whatever the rows hold.
Cut at the line feeds, the text gives what each row is written as, in order, and each of these lines is read as its
row, with its line feed and without, if the row has an identifier, a type and metadata. No other rows have this text. -/
theorem linesText_framed (rows : List Envelope) :
    (Utf8.ofString (linesText rows)).count 0x0A = rows.length ∧
    (∀ b ∈ Utf8.ofString (linesText rows), b < 0x20 → b = 0x0A) ∧
    (Utf8.ofString (linesText rows)).splitOn 0x0A = rows.map encode ++ [[]] ∧
    (∀ e ∈ rows, Text.allBlank e.eventId = false → Text.allBlank e.eventType = false →
      Text.allBlank e.metadata = false → decode e.encode = .ok e ∧ decode (e.encode ++ [0x0A]) = .ok e) ∧
    ∀ others, linesText others = linesText rows → others = rows := by
  refine ⟨count_linesText rows, fun b => control_of_mem_linesText, splitOn_linesText rows,
    fun e _ id kind metadata => ?_, fun others => linesText_injective⟩
  have read : decode e.encode = .ok e := by
    rw [decode_encode_reread, id, kind, reread_eq_self metadata]
    rfl
  have line := e.decode_spaced default ⟨[0x0A], by simp [isSpace]⟩
  exact ⟨read, line.trans read⟩

/-- Metadata of two lines, in a row of its own. -/
def twoLines : Envelope :=
  { sparse with metadata := "a\nb" }

theorem linesText_framed_twoLines :
    twoLines ∈ [sparse, twoLines] ∧ Text.allBlank twoLines.eventId = false ∧ Text.allBlank twoLines.eventType = false ∧
      Text.allBlank twoLines.metadata = false ∧ decode twoLines.encode = .ok twoLines ∧
      decode (twoLines.encode ++ [0x0A]) = .ok twoLines ∧
      (Utf8.ofString (linesText [sparse, twoLines])).splitOn 0x0A = [sparse.encode, twoLines.encode, []] := by
  have member : twoLines ∈ [sparse, twoLines] := by simp
  have id : Text.allBlank twoLines.eventId = false := by decide
  have kind : Text.allBlank twoLines.eventType = false := by decide
  have metadata : Text.allBlank twoLines.metadata = false := by decide
  obtain ⟨_, _, cut, read, _⟩ := linesText_framed [sparse, twoLines]
  exact ⟨member, id, kind, metadata, (read _ member id kind metadata).1, (read _ member id kind metadata).2, cut⟩

end Envelope

end EventRelay
