import EventRelay.Proofs.Event.Metadata
import EventRelay.Proofs.Json.Printing

/-!
Metadata that is a JSON value of its own. Whatever text stands for the value, an event gets one and the same text of
it, and it keeps this text from then on.
-/

namespace EventRelay

open Json Envelope

namespace Envelope.Given

theorem find?_cons (given : Given) (f g : Field) (text : String) :
    Given.find? ((f, text) :: given) g = if g = f then some text else given.find? g := by
  by_cases same : g = f
  · subst same
    simp [find?]
  · rw [if_neg same, given.find?_cons_of_ne same]

theorem find?_append (news given : Given) (f : Field) :
    Given.find? (news ++ given) f = (Given.find? news f).or (given.find? f) :=
  List.lookup_append

end Envelope.Given

/-- What members add to what was given depends on it only as to which fields it has. -/
theorem Gives.exists_append {ms : List Entry} {given given' out : Given} (gives : Gives ms given out)
    (same : ∀ f, given.find? f = none ↔ given'.find? f = none) :
    ∃ news, out = news ++ given ∧ Gives ms given' (news ++ given') := by
  induction gives generalizing given' with
  | done => exact ⟨[], rfl, .done⟩
  | pass other _ ih =>
    obtain ⟨news, added, gives⟩ := ih same
    exact ⟨news, added, .pass other gives⟩
  | @take m ms f text given out known fresh reads _ ih =>
    have still (g : Field) :
        Given.find? ((f, text) :: given) g = none ↔ Given.find? ((f, text) :: given') g = none := by
      rw [Given.find?_cons, Given.find?_cons]
      split
      · simp
      · exact same g
    obtain ⟨news, rfl, gives⟩ := ih still
    exact ⟨news ++ [(f, text)], by simp, .take known ((same f).mp fresh) reads (by simpa using gives)⟩

/-- A member in place of another one of its field changes what is given for this field, and nothing else. -/
theorem Gives.replace {before after : List Entry} {m m' : Entry} {f : Field} {text : String} {given out : Given}
    (gives : Gives (before ++ m :: after) given out) (known : m.field? = some f) (known' : m'.field? = some f)
    (reads : f.Reads m'.value text) :
    ∃ out', Gives (before ++ m' :: after) given out' ∧ out'.find? f = some text ∧
      ∀ g, g ≠ f → out'.find? g = out.find? g := by
  induction before generalizing given with
  | nil =>
    -- the members after it find the same fields given, so they add the same
    cases gives with
    | pass other =>
      rw [other] at known
      cases known
    | @take _ _ g old _ _ about fresh _ later =>
      obtain rfl := Option.some.inj (about.symm.trans known)
      have still (f : Field) :
          Given.find? ((g, old) :: given) f = none ↔ Given.find? ((g, text) :: given) f = none := by
        rw [Given.find?_cons, Given.find?_cons]
        split <;> simp
      obtain ⟨news, rfl, gives⟩ := later.exists_append still
      refine ⟨news ++ (g, text) :: given, .take known' fresh reads gives, gives.find?_kept ?_, fun f other => ?_⟩
      · rw [Given.find?_cons, if_pos rfl]
      · rw [Given.find?_append, Given.find?_append, Given.find?_cons, Given.find?_cons, if_neg other, if_neg other]
  | cons first before ih =>
    cases gives with
    | pass other rest =>
      obtain ⟨out', gives, own, others⟩ := ih rest
      exact ⟨out', .pass other gives, own, others⟩
    | take about fresh read rest =>
      obtain ⟨out', gives, own, others⟩ := ih rest
      exact ⟨out', .take about fresh read gives, own, others⟩

namespace Entry

variable {start close finish : Gap} {before after : List Entry} {m m' : Entry} {e : Envelope}

/-- Metadata that is read in place of other metadata is the only thing that changes. -/
theorem decode_replace {text : String}
    (decoded : decode (objectText start close finish (before ++ m :: after)) = .ok e)
    (known : m.field? = some .metadata) (known' : m'.field? = some .metadata)
    (reads : Field.Reads .metadata m'.value text) :
    decode (objectText start close finish (before ++ m' :: after)) = .ok { e with metadata := text } := by
  obtain ⟨id, kind, _⟩ := decode_shown decoded
  obtain ⟨out, gives, complete, rfl⟩ := gives_of_read (read_of_decode decoded)
  obtain ⟨out', gives', own, others⟩ := gives.replace known known' reads
  have complete' (f : Field) (required : f.isRequired = true) : out'.find? f ≠ none := by
    have other : f ≠ .metadata := by
      rintro rfl
      cases required
    rw [others f other]
    exact complete f required
  have same : out'.toEnvelope = { out.toEnvelope with metadata := text } := by
    simp [Given.toEnvelope, ofFields, own, others]
  have whole : read (objectText start close finish (before ++ m' :: after)) = .ok out'.toEnvelope := by
    rw [read_objectText, readObject_of_gives gives' complete', ok_bind, expectEnd_gap, ok_bind]
  rw [same] at whole
  simp only [decode, objectText_not_empty, whole, id, kind, Bool.false_eq_true, if_false]

/-- A payload with metadata that is refused. -/
theorem malformed_of_refuses {ms : List Entry} (member : m ∈ ms) {f : Field} (known : m.field? = some f)
    (refuses : f.Refuses m.value) :
    ∃ cause place, decode (objectText start close finish ms) = .error (.malformed cause place) := by
  refine decode_of_forall_not_gives fun out gives => ?_
  obtain ⟨text, reads, _⟩ := gives.exists_find? member known
  obtain ⟨fault, refused⟩ := refuses default [] apart_nil
  rw [reads default [] apart_nil] at refused
  cases refused

end Entry

/-- What an event gets of a value that is neither null nor a string is the value's text. -/
theorem metadataText_eq_text {v : Value} (given : v ≠ .null) (other : ∀ s, v ≠ .string s) :
    metadataText v = v.text := by
  cases v with
  | null => exact absurd rfl given
  | string s => exact absurd rfl (other s)
  | _ => rfl

/-- The text of a value is not changed when it is given as a string. -/
theorem metadataText_text {v : Value} (given : v ≠ .null) (other : ∀ s, v ≠ .string s) :
    metadataText (.string v.text) = v.text := by
  have shown := allBlank_metadataText v
  rw [metadataText_eq_text given other] at shown
  rw [metadataText, shown]
  rfl

/-- An object that carries an envelope: it is decoded to it, or its members present it with an identifier and a
type. -/
def Envelope.CarriedBy (e : Envelope) (start close finish : Gap) (ms : List Entry) : Prop :=
  decode (Entry.objectText start close finish ms) = .ok e ∨
    e.Presents ms ∧ Text.allBlank e.eventId = false ∧ Text.allBlank e.eventType = false

theorem Envelope.CarriedBy.decode {e : Envelope} {start close finish : Gap} {ms : List Entry}
    (carried : e.CarriedBy start close finish ms) :
    ∃ text, Envelope.decode (Entry.objectText start close finish ms) = .ok { e with metadata := text } := by
  rcases carried with decoded | ⟨presents, id, kind⟩
  · exact ⟨e.metadata, decoded⟩
  · refine ⟨e.reread.metadata, ?_⟩
    rw [presents.decode, id, kind]
    rfl

/-- Metadata is kept in one text. Take a value that is neither null nor a string, in which all numbers are integers
that 64 bits hold. If it is not nested too deep, then an object that carries an envelope can have any text of the
value for its metadata: it is still decoded, and the event gets the printed text of the value. So it does if the
metadata becomes this printed text, as a value or in a string. The printed text is read as the value, and it has the
names in each object in the order of their bytes. If the value is nested deeper, then no payload with a text of it for
metadata can be decoded. -/
theorem metadata_canonical {v : Value} (precise : v.Exact) (given : v ≠ .null) (other : ∀ s, v ≠ .string s) :
    (v.levels < depthLimit - 1 →
      (∀ (before after : List Entry) (m m' : Entry) (start close finish : Gap) (e : Envelope),
        e.CarriedBy start close finish (before ++ m :: after) →
        m.field? = some .metadata → m'.field? = some .metadata →
        (∃ order, Form order (depthLimit - 1) (.value v) m'.value) ∨ m'.value = Utf8.ofString v.text ∨
          Literal m'.value v.text →
        decode (Entry.objectText start close finish (before ++ m' :: after)) = .ok { e with metadata := v.text }) ∧
      Value.ofText v.text = .ok v ∧
      Form InByteOrder (depthLimit - 1) (.value v) (Utf8.ofString v.text)) ∧
    (depthLimit - 1 ≤ v.levels →
      ∀ (ms : List Entry) (start close finish : Gap), ∀ m ∈ ms, m.field? = some .metadata →
        (∃ order depth, Form order depth (.value v) m.value) →
        ∃ cause place, decode (Entry.objectText start close finish ms) = .error (.malformed cause place)) := by
  have kept := metadataText_eq_text given other
  refine ⟨fun within => ?_, fun deep ms start close finish m member known ⟨order, depth, form⟩ => ?_⟩
  · have form : Form InByteOrder (depthLimit - 1) (.value v) (Utf8.ofString v.text) := by
      rw [ofString_text]
      exact precise.form within
    refine ⟨fun before after m m' start close finish e carried known known' shown => ?_, ?_, form⟩
    · have reads : Field.Reads .metadata m'.value v.text := by
        rcases shown with ⟨order, form'⟩ | printed | literal
        · rw [← kept]
          exact Field.reads_metadata form'.reads
        · rw [← kept, printed]
          exact Field.reads_metadata form.reads
        · have reads := Field.reads_metadata (literal.denotes (depthLimit - 1))
          rwa [metadataText_text given other] at reads
      obtain ⟨_, decoded⟩ := carried.decode
      have replaced := Entry.decode_replace decoded known known' reads
      exact replaced
    · have denotes : Denotes depthLimit (Utf8.ofString v.text) v := Denotes.deeper form.reads
      have alone : Value.ofBytes (Utf8.ofString v.text ++ []) = .ok v := denotes.ofBytes default default
      rwa [List.append_nil] at alone
  · refine Entry.malformed_of_refuses member known ?_
    rcases Field.metadata_reads_or_refuses form.formed with ⟨w, denotes⟩ | refuses
    · have shallow := denotes.levels_lt (by decide)
      rw [denotes.unique form.reads] at shallow
      omega
    · exact refuses

/-- The members of an object, with numbers at both ends of what 64 bits hold. -/
def extremes : List (String × Value) :=
  [("a", .number (.integer (-0x8000000000000000))), ("é", .array [.number (.integer 0xFFFFFFFFFFFFFFFF), .bool true])]

/-- The same members out of order, with escapes, some space, and a name that comes twice. -/
def tangledText : Bytes :=
  Utf8.ofString "\x7b \"\\u00e9\":null,\"\\u0061\" : -9223372036854775808,\"é\":[18446744073709551615 ,true]\x7d"

theorem collects_extremes : Collects (("é", .null) :: extremes) extremes := by
  refine ⟨by simp [Ascending.Sorted, extremes]; decide, fun name => ?_⟩
  by_cases a : name = "a"
  · simp [extremes, Ascending.find?, List.lookup_cons, a]
  by_cases e : name = "é"
  · simp [extremes, Ascending.find?, e]
  · simp [extremes, Ascending.find?, List.lookup_cons, a, e, beq_eq_false_iff_ne.mpr a, beq_eq_false_iff_ne.mpr e]

theorem form_tangledText : Form (fun _ => True) (depthLimit - 1) (.value (.object extremes)) tangledText := by
  have accented : Literal (quoted [0x5C, 0x75, 0x30, 0x30, 0x65, 0x39]) "é" :=
    ⟨_, _, rfl, .word (n := 0xE9) rfl rfl rfl .nil, by decide⟩
  have plain : Literal (quoted [0x5C, 0x75, 0x30, 0x30, 0x36, 0x31]) "a" :=
    ⟨_, _, rfl, .word (n := 0x61) rfl rfl rfl .nil, by decide⟩
  have number : Form (fun _ => True) 126 (.value (.number (.integer (-0x8000000000000000)))) _ :=
    .integer ⟨by decide, by decide⟩
  have list : Form (fun _ => True) 126 (.value (.array [.number (.integer 0xFFFFFFFFFFFFFFFF), .bool true])) _ :=
    .array (.item default default (.integer ⟨by decide, by decide⟩)
      (.item oneBlank default .trueWord (.lastItem default)))
  have third := @Form.member _ _ false _ _ _ _ _ _ default default default default (literal_quoteText "é") list
    (.lastMember default)
  have second := @Form.member _ _ false _ _ _ _ _ _ default default oneBlank oneBlank plain number third
  have first := @Form.overridden _ _ true _ _ _ _ _ _ oneBlank default default default accented (by decide)
    (.scalar .nullWord) (denotes_null _) second
  exact .object first trivial collects_extremes

/-- An array in an array, and so on. -/
def nested : Nat → Value
  | 0 => .array []
  | n + 1 => .array [nested n]

theorem exact_nested (n : Nat) : (nested n).Exact := by
  induction n with
  | zero => exact .array (by simp)
  | succ n ih => exact .array (by simpa using ih)

theorem levels_nested (n : Nat) : (nested n).levels = n + 1 := by
  induction n with
  | zero => rfl
  | succ n ih => rw [nested, Value.levels, itemsLevels, ih, itemsLevels, Nat.max_zero]

theorem form_nested (n : Nat) : Form InByteOrder (n + 2) (.value (nested n)) (Utf8.encode (nested n).chars) :=
  (exact_nested n).form (by rw [levels_nested]; omega)

def tangledMetadata : Entry :=
  spaced Field.metadata.name form_tangledText.formed

def nestedMetadata : Entry :=
  spaced Field.metadata.name (form_nested 126).formed

/-- The fields of an event other than its metadata, which comes last. -/
def withoutMetadata : List Entry :=
  Field.all.dropLast.map sparse.entry

theorem carriedBy_withMetadata :
    sparse.CarriedBy default default default (withoutMetadata ++ [sparse.entry .metadata]) :=
  .inr ⟨sparse.presents_map_entry (.refl _), by decide, by decide⟩

/-- The members out of order come out in order, and one level more than may be opened is refused. -/
theorem metadata_canonical_extremes :
    (Value.object extremes).levels < depthLimit - 1 ∧
    decode (Entry.objectText default default default (withoutMetadata ++ [tangledMetadata])) =
      .ok { sparse with metadata := "\x7b\"a\":-9223372036854775808,\"é\":[18446744073709551615,true]\x7d" } ∧
    depthLimit - 1 ≤ (nested 126).levels ∧
    ∃ cause place, decode (Entry.objectText default default default [nestedMetadata]) =
      .error (.malformed cause place) := by
  have within : (Value.object extremes).levels < depthLimit - 1 := by decide
  have deep : depthLimit - 1 ≤ (nested 126).levels := by
    rw [levels_nested]
    decide
  have precise : (Value.object extremes).Exact := by
    have word : InWord 0xFFFFFFFFFFFFFFFF := ⟨by decide, by decide⟩
    refine .object collects_extremes.1 ?_
    simp only [extremes, List.forall_mem_cons]
    exact ⟨.integer ⟨by decide, by decide⟩, .array (by simp [Value.Exact.bool, Value.Exact.integer word]), by simp⟩
  have about (m : Entry) (named : m.name = Field.metadata.name) : m.field? = some .metadata := by
    rw [Entry.field?, named]
    exact Field.ofName?_name .metadata
  have printed : (Value.object extremes).text =
      "\x7b\"a\":-9223372036854775808,\"é\":[18446744073709551615,true]\x7d" := by
    decide +kernel
  have kept := ((metadata_canonical precise (by simp) (by simp)).1 within).1 withoutMetadata [] _ tangledMetadata _ _ _
    sparse carriedBy_withMetadata (about _ rfl) (about _ rfl) (.inl ⟨_, form_tangledText⟩)
  rw [printed] at kept
  obtain ⟨items, array⟩ : ∃ items, nested 126 = .array items := ⟨_, rfl⟩
  have refused := (metadata_canonical (exact_nested 126) (by simp [array]) (by simp [array])).2 deep [nestedMetadata]
    default default default nestedMetadata List.mem_cons_self (about _ rfl) ⟨_, _, form_nested 126⟩
  exact ⟨within, kept, deep, refused⟩

end EventRelay
