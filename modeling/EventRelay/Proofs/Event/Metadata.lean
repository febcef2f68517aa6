import EventRelay.Event.Draft
import EventRelay.Proofs.Event.Decoded
import EventRelay.Proofs.Event.Presentation
import EventRelay.Proofs.Json.Depth

/-!
Metadata on both sides of the bus. An application gives a JSON value, and a consumer reads one: both keep the same
text of it, but for a string that is blank, which only the consumer takes for no metadata at all.
-/

namespace EventRelay

open Json Envelope

theorem Uuid.allBlank_text (id : Uuid) : Text.allBlank id.text = false :=
  Text.allBlank_eq_false_of_mem (c := '-') (by simp [text]) (by decide)

theorem EventType.allBlank_name (kind : EventType) : Text.allBlank kind.name = false := by
  cases kind <;> decide

/-- Whatever an application says of an event, it can be read again. -/
theorem Draft.decode_toEnvelope (d : Draft) (id : Uuid) (now : Instant) :
    Envelope.decode (d.toEnvelope id now).encode = .ok (d.toEnvelope id now).reread := by
  have shown : Text.allBlank (d.toEnvelope id now).eventId = false := id.allBlank_text
  have kind : Text.allBlank (d.toEnvelope id now).eventType = false := d.type.allBlank_name
  rw [Envelope.decode_encode_reread, shown, kind]
  rfl

/-- A string in which nothing shows. -/
def Json.Value.isBlank : Value → Bool
  | .string s => Text.allBlank s
  | _ => false

namespace Draft

/-- The two texts of a value: they are one and the same, unless it is a blank string. -/
theorem metadataText_eq (v : Value) : EventRelay.metadataText v =
    if v.isBlank then Field.absent .metadata else metadataText v := by
  cases v <;> rfl

theorem metadataText_eq_iff (v : Value) : metadataText v = EventRelay.metadataText v ↔ v.isBlank = false := by
  rw [metadataText_eq]
  cases blank : v.isBlank with
  | false => simp
  | true =>
    rw [if_pos rfl]
    cases v with
    | string s =>
      refine ⟨fun same => ?_, nofun⟩
      have same : s = Field.absent .metadata := same
      rw [Value.isBlank, same] at blank
      exact absurd blank (by decide)
    | _ => cases blank

theorem allBlank_metadataText (v : Value) : Text.allBlank (metadataText v) = v.isBlank := by
  cases blank : v.isBlank with
  | false =>
    rw [(metadataText_eq_iff v).mpr blank]
    exact EventRelay.allBlank_metadataText v
  | true =>
    cases v with
    | string s => exact blank
    | _ => cases blank

end Draft

/-- What was given stays given. -/
theorem Gives.find?_kept {ms : List Entry} {given out : Given} (gives : Gives ms given out) {f : Field} {text : String}
    (old : given.find? f = some text) : out.find? f = some text := by
  induction gives with
  | done => exact old
  | pass _ _ ih => exact ih old
  | @take m ms g _ given out _ fresh _ _ ih =>
    have other : f ≠ g := by
      rintro rfl
      rw [fresh] at old
      cases old
    exact ih ((Given.find?_cons_of_ne given other).trans old)

/-- Each member of a field has its part in what is given. -/
theorem Gives.exists_find? {ms : List Entry} {given out : Given} (gives : Gives ms given out) {m : Entry} (member : m ∈ ms)
    {f : Field} (known : m.field? = some f) : ∃ text, f.Reads m.value text ∧ out.find? f = some text := by
  induction gives with
  | done => cases member
  | pass other _ ih =>
    rcases List.mem_cons.mp member with rfl | later
    · rw [other] at known
      cases known
    · exact ih later
  | @take _ _ _ text _ _ about _ reads rest ih =>
    rcases List.mem_cons.mp member with rfl | later
    · obtain rfl := Option.some.inj (about.symm.trans known)
      exact ⟨text, reads, rest.find?_kept (by simp [Given.find?])⟩
    · exact ih later

theorem Field.Reads.unique {f : Field} {t : Bytes} {text text' : String} (reads : f.Reads t text)
    (reads' : f.Reads t text') : text = text' := by
  have same := (reads default [] apart_nil).symm.trans (reads' default [] apart_nil)
  cases same
  rfl

/-- Metadata that is read in an object is that of a value, which is also the value of the text alone. -/
theorem Entry.metadata_of_decode {ms : List Entry} {start close finish : Gap} {e : Envelope}
    (decoded : decode (objectText start close finish ms) = .ok e) {m : Entry} (member : m ∈ ms)
    (known : m.field? = some .metadata) :
    ∃ v, Denotes depthLimit m.value v ∧ e.metadata = metadataText v := by
  obtain ⟨out, gives, _, rfl⟩ := gives_of_read (read_of_decode decoded)
  obtain ⟨text, reads, found⟩ := gives.exists_find? member known
  have held : out.toEnvelope.metadata = text := by
    change (out.find? .metadata).getD _ = text
    rw [found, Option.getD_some]
  rw [held]
  rcases Field.metadata_reads_or_refuses m.formed with ⟨v, denotes⟩ | refuses
  · exact ⟨v, denotes.deeper, reads.unique (Field.reads_metadata denotes)⟩
  · obtain ⟨_, refused⟩ := refuses default [] apart_nil
    rw [reads default [] apart_nil] at refused
    cases refused

namespace Draft

theorem reread_toEnvelope (d : Draft) (id : Uuid) (now : Instant) : (d.toEnvelope id now).reread =
    { d.toEnvelope id now with metadata := EventRelay.metadataText d.metadata } := by
  rw [Envelope.reread, metadataText_eq]
  simp only [toEnvelope, allBlank_metadataText]

/-- Metadata on both sides. The text that an event gets of a value is the one that a payload with this value is
decoded to, unless the value is a blank string; and an event comes back as it was written, unless its metadata is
one. Blank metadata is written as it is and read as an empty object. -/
theorem metadata_agrees (d : Draft) (id : Uuid) (now : Instant) :
    (∀ (ms : List Entry) (start close finish : Gap) (e : Envelope),
      decode (Entry.objectText start close finish ms) = .ok e → ∀ m ∈ ms, m.field? = some .metadata →
        ∃ v, (∀ before after : Gap, Value.ofBytes (before.val ++ (m.value ++ after.val)) = .ok v) ∧
          e.metadata = (if v.isBlank then "\x7b\x7d" else ({ d with metadata := v }.toEnvelope id now).metadata) ∧
          (({ d with metadata := v }.toEnvelope id now).metadata = e.metadata ↔ v.isBlank = false)) ∧
    decode (d.toEnvelope id now).encode = .ok { d.toEnvelope id now with
      metadata := if d.metadata.isBlank then "\x7b\x7d" else (d.toEnvelope id now).metadata } ∧
    (decode (d.toEnvelope id now).encode = .ok (d.toEnvelope id now) ↔ d.metadata.isBlank = false) := by
  constructor
  · intro ms start close finish e decoded m member known
    obtain ⟨v, denotes, metadata⟩ := Entry.metadata_of_decode decoded member known
    rw [metadata]
    exact ⟨v, denotes.ofBytes, metadataText_eq v, metadataText_eq_iff v⟩
  rw [decode_toEnvelope, reread_toEnvelope]
  constructor
  · rw [metadataText_eq]
    rfl
  rw [Except.ok.injEq, ← metadataText_eq_iff]
  constructor
  · intro same
    exact (congrArg Envelope.metadata same).symm
  · intro same
    rw [← same]
    rfl

/-- The metadata is an array of null, with space inside. -/
def listing : Entry :=
  spaced Field.metadata.name (.array (.item default oneBlank (.scalar .nullWord) (.lastItem oneBlank)))

def listed : List Entry :=
  [listing, sparse.entry .eventType, sparse.entry .eventId, sparse.entry .eventCategory]

/-- An event with a blank string for its metadata. -/
def vague : Draft where
  type := .accessGranted
  metadata := .string " "

theorem metadata_agrees_listed :
    ∃ e, decode (Entry.objectText default default default listed) = .ok e ∧ listing ∈ listed ∧
      listing.field? = some .metadata ∧ e.metadata = "[null]" ∧
      ∃ v, (∀ before after : Gap, Value.ofBytes (before.val ++ (listing.value ++ after.val)) = .ok v) ∧
        e.metadata = (if v.isBlank then "\x7b\x7d" else ({ vague with metadata := v }.toEnvelope ⟨1⟩ .epoch).metadata) ∧
        (({ vague with metadata := v }.toEnvelope ⟨1⟩ .epoch).metadata = e.metadata ↔ v.isBlank = false) := by
  have text : (decode (Entry.objectText default default default listed)).toOption.map (·.metadata) = some "[null]" := by
    decide +kernel
  cases decoded : decode (Entry.objectText default default default listed) with
  | error _ => simp [decoded, Except.toOption] at text
  | ok e =>
    simp only [decoded, Except.toOption, Option.map_some, Option.some.injEq] at text
    have about : listing.field? = some .metadata := Field.ofName?_name .metadata
    exact ⟨e, rfl, List.mem_cons_self, about, text,
      (metadata_agrees vague ⟨1⟩ .epoch).1 listed _ _ _ e decoded listing List.mem_cons_self about⟩

/-- The same blank string is kept on one side and dropped on the other. -/
theorem metadata_differs_vague :
    (∃ e, decode (Entry.objectText default default default (Field.all.map (vague.toEnvelope ⟨1⟩ .epoch).entry)) = .ok e ∧
      e.metadata = "\x7b\x7d") ∧
    Value.ofBytes ((vague.toEnvelope ⟨1⟩ .epoch).entry .metadata).value = .ok vague.metadata ∧
    (vague.toEnvelope ⟨1⟩ .epoch).metadata = " " ∧
    decode (vague.toEnvelope ⟨1⟩ .epoch).encode ≠ .ok (vague.toEnvelope ⟨1⟩ .epoch) := by
  have read := decode_toEnvelope vague ⟨1⟩ .epoch
  refine ⟨⟨(vague.toEnvelope ⟨1⟩ .epoch).reread, ?_, by decide⟩, ?_, rfl, fun same => ?_⟩
  · rw [← encode_eq_objectText, read]
  · have alone : Value.ofBytes (Utf8.encode (quoteText " ") ++ []) = .ok (.string " ") :=
      ((literal_quoteText " ").denotes depthLimit).ofBytes default default
    rw [List.append_nil] at alone
    exact alone
  · rw [read, reread_toEnvelope, Except.ok.injEq] at same
    exact absurd (congrArg Envelope.metadata same) (by decide)

end Draft

end EventRelay
