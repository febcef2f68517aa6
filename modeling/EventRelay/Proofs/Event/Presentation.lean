import EventRelay.Proofs.Event.Members
import Mathlib.Data.List.Nodup

/-!
One envelope has many payloads. Its members may stand in any order, with any space between words and with members
that are of no field, texts may be escaped in any way, and what says nothing may be null or left out. All of them
are read as the payload that the envelope is written as.
-/

namespace EventRelay

open Json Envelope

/-- The fields that members are about. -/
def Entry.fields (ms : List Entry) : List Field :=
  ms.filterMap Entry.field?

/-- A field given last hides no other field. -/
theorem Envelope.Given.find?_cons_of_ne {f g : Field} {text : String} (given : Given) (other : g ≠ f) :
    Given.find? ((f, text) :: given) g = given.find? g := by
  rw [Given.find?, List.lookup_cons, beq_eq_false_iff_ne.mpr other]
  rfl

/-- No field is given twice. -/
theorem Gives.fields_fresh {ms : List Entry} {given out : Given} (gives : Gives ms given out) :
    (Entry.fields ms).Nodup ∧ ∀ f ∈ Entry.fields ms, given.find? f = none := by
  induction gives with
  | done => exact ⟨.nil, nofun⟩
  | pass other _ ih => rwa [Entry.fields, List.filterMap_cons_none other]
  | @take m ms f text given out known fresh _ _ ih =>
    obtain ⟨distinct, new⟩ := ih
    rw [Entry.fields, List.filterMap_cons_some known]
    have other : f ∉ Entry.fields ms := fun again => by simpa [Given.find?] using new f again
    refine ⟨List.nodup_cons.mpr ⟨other, distinct⟩, List.forall_mem_cons.mpr ⟨fresh, fun g member => ?_⟩⟩
    have apart : g ≠ f := fun same => other (same ▸ member)
    rw [← Given.find?_cons_of_ne given apart]
    exact new g member

namespace Envelope

/-- A field says nothing that its absence would not say. -/
inductive Lacks (e : Envelope) : Field → Prop
  | text {f : Field} : f.isRequired = false → f ≠ .metadata → e.get f = "" → e.Lacks f
  | metadata : Text.allBlank e.metadata = true ∨ e.metadata = "\x7b\x7d" → e.Lacks .metadata

/-- A value shows what a field of an envelope holds. -/
inductive Shows (e : Envelope) : Field → Bytes → Prop
  | text {f : Field} {t : Bytes} : Literal t (e.get f) → e.Shows f t
  | null {f : Field} : e.Lacks f → e.Shows f [0x6E, 0x75, 0x6C, 0x6C]
  | blank {t : Bytes} {s : String} : e.Lacks .metadata → Literal t s → Text.allBlank s = true → e.Shows .metadata t
  | nothing (gap : Gap) : e.Lacks .metadata → e.Shows .metadata (0x7B :: (gap.val ++ [0x7D]))

/-- Members that present an envelope: none of its fields twice, each as the envelope has it, and all of them but
those that say nothing. Members that are of no field do not count. -/
structure Presents (e : Envelope) (ms : List Entry) : Prop where
  once : (Entry.fields ms).Nodup
  shows : ∀ m ∈ ms, ∀ f, m.field? = some f → e.Shows f m.value
  complete : ∀ f, f ∉ Entry.fields ms → e.Lacks f

variable {e : Envelope} {f : Field} {ms : List Entry}

/-- A field with what is read of it. -/
def rereadField (e : Envelope) (f : Field) : Field × String :=
  (f, f.reread (e.get f))

theorem lookup_rereadField (e : Envelope) {f : Field} {fs : List Field} (member : f ∈ fs) :
    (fs.map e.rereadField).lookup f = some (f.reread (e.get f)) := by
  induction fs with
  | nil => exact absurd member List.not_mem_nil
  | cons g fs ih =>
    rw [List.map_cons, rereadField, List.lookup_cons]
    by_cases same : f = g
    · simp [same]
    · rw [beq_eq_false_iff_ne.mpr same]
      exact ih ((List.mem_cons.mp member).resolve_left same)

/-- The envelope that comes back: all texts as they were, but blank metadata. -/
def reread (e : Envelope) : Envelope :=
  { e with metadata := if Text.allBlank e.metadata then Field.absent .metadata else e.metadata }

theorem ofFields_reread (e : Envelope) : ofFields (fun f => f.reread (e.get f)) = e.reread := rfl

theorem reread_metadata_of_blank {s : String} (blank : Text.allBlank s = true) :
    Field.reread .metadata s = Field.absent .metadata := by
  rw [Field.reread, if_pos rfl, metadataText, if_pos blank]

theorem Lacks.reread (lacks : e.Lacks f) : f.isRequired = false ∧ f.reread (e.get f) = f.absent := by
  cases lacks with
  | text optional other nothing =>
    refine ⟨optional, ?_⟩
    rw [Field.reread, if_neg other, nothing]
    cases f <;> first | rfl | exact absurd rfl other
  | metadata nothing =>
    refine ⟨rfl, ?_⟩
    rcases nothing with blank | empty
    · exact reread_metadata_of_blank blank
    · rw [get, empty]
      decide

theorem Shows.reads {t : Bytes} (shows : e.Shows f t) : f.Reads t (f.reread (e.get f)) := by
  cases shows with
  | text literal => exact Field.reads_literal literal
  | null lacks =>
    rw [lacks.reread.2]
    exact Field.reads_null lacks.reread.1
  | blank lacks literal blank =>
    rw [lacks.reread.2, ← reread_metadata_of_blank blank]
    exact Field.reads_literal literal
  | nothing gap lacks =>
    rw [lacks.reread.2]
    exact Field.reads_nothing gap

/-- Members that each show a field give the fields in this order, the last one first. -/
theorem gives_of_shows {given : Given} (once : (Entry.fields ms).Nodup)
    (fresh : ∀ f ∈ Entry.fields ms, given.find? f = none) (shows : ∀ m ∈ ms, ∀ f, m.field? = some f → e.Shows f m.value) :
    Gives ms given (((Entry.fields ms).map e.rereadField).reverse ++ given) := by
  induction ms generalizing given with
  | nil => exact .done
  | cons m ms ih =>
    have showsLater : ∀ m ∈ ms, ∀ f, m.field? = some f → e.Shows f m.value := fun m member =>
      shows m (List.mem_cons_of_mem _ member)
    cases known : m.field? with
    | none =>
      rw [Entry.fields, List.filterMap_cons_none known] at once fresh ⊢
      exact .pass known (ih once fresh showsLater)
    | some f =>
      rw [Entry.fields, List.filterMap_cons_some known] at once fresh ⊢
      obtain ⟨new, distinct⟩ := List.nodup_cons.mp once
      have later : ∀ g ∈ Entry.fields ms, Given.find? ((f, f.reread (e.get f)) :: given) g = none := by
        intro g member
        have other : g ≠ f := fun same => new (same ▸ member)
        rw [Given.find?_cons_of_ne given other]
        exact fresh g (List.mem_cons_of_mem _ member)
      have more := ih distinct later showsLater
      rw [List.map_cons, List.reverse_cons, List.append_assoc]
      exact .take known (fresh f List.mem_cons_self) (shows m List.mem_cons_self f known).reads more

/-- Members that present an envelope are read as it, whatever stands between them and after the object. -/
theorem Presents.readObject (presents : e.Presents ms) (close : Gap) (rest : Bytes) :
    Envelope.readObject (Entry.texts true ms ++ (close.val ++ 0x7D :: rest)) = .ok (e.reread, rest) := by
  have gives : Gives ms [] _ := gives_of_shows presents.once (fun _ _ => rfl) presents.shows
  rw [List.append_nil, ← List.map_reverse] at gives
  have found (f : Field) : (Given.find? ((Entry.fields ms).reverse.map e.rereadField) f).getD f.absent =
      f.reread (e.get f) ∧
      (f.isRequired = true → Given.find? ((Entry.fields ms).reverse.map e.rereadField) f ≠ none) := by
    by_cases given : f ∈ Entry.fields ms
    · rw [Given.find?, lookup_rereadField e (List.mem_reverse.mpr given)]
      exact ⟨rfl, fun _ => by simp⟩
    · obtain ⟨optional, nothing⟩ := (presents.complete f given).reread
      have absent : Given.find? ((Entry.fields ms).reverse.map e.rereadField) f = none := by
        rw [Given.find?, List.lookup_eq_none_iff]
        intro p member
        obtain ⟨g, listed, rfl⟩ := List.mem_map.mp member
        exact bne_iff_ne.mpr fun same => given (same ▸ List.mem_reverse.mp listed)
      rw [absent, optional]
      exact ⟨nothing.symm, fun required => by cases required⟩
  have content : Given.toEnvelope ((Entry.fields ms).reverse.map e.rereadField) = e.reread := by
    rw [← ofFields_reread, Given.toEnvelope, funext fun f => (found f).1]
  rw [← content]
  exact Entry.readObject_of_gives gives (fun f required => (found f).2 required) rest

theorem Presents.read (presents : e.Presents ms) (start close finish : Gap) :
    Envelope.read (Entry.objectText start close finish ms) = .ok e.reread := by
  rw [Entry.read_objectText, presents.readObject, ok_bind, expectEnd_gap, ok_bind]

theorem Presents.decode (presents : e.Presents ms) (start close finish : Gap) :
    Envelope.decode (Entry.objectText start close finish ms) =
      if Text.allBlank e.eventId then .error (.missingField Field.eventId.name)
      else if Text.allBlank e.eventType then .error (.missingField Field.eventType.name)
      else .ok e.reread := by
  simp only [Envelope.decode, Entry.objectText_not_empty, presents.read, reread]
  rfl

/-- A member as it is written, with no space. -/
def entry (e : Envelope) (f : Field) : Entry where
  name := f.name
  label := Utf8.encode (quoteText f.name)
  value := Utf8.encode (quoteText (e.get f))
  before := default
  lead := default
  gap := default
  pad := default
  spelled := literal_quoteText f.name
  formed := (literal_quoteText (e.get f)).formed

theorem field?_entry (e : Envelope) (f : Field) : (e.entry f).field? = some f :=
  Field.ofName?_name f

theorem fields_map_entry (e : Envelope) (fs : List Field) : Entry.fields (fs.map e.entry) = fs := by
  have own : Entry.field? ∘ e.entry = some := funext e.field?_entry
  rw [Entry.fields, List.filterMap_map, own, List.filterMap_some]

/-- The members of an envelope may stand in any order. -/
theorem presents_map_entry (e : Envelope) {fs : List Field} (order : fs.Perm Field.all) : e.Presents (fs.map e.entry) where
  once := by
    rw [fields_map_entry]
    exact order.nodup_iff.mpr (by decide)
  shows := by
    intro m member f known
    obtain ⟨g, _, rfl⟩ := List.mem_map.mp member
    obtain rfl : g = f := Option.some.inj ((e.field?_entry g).symm.trans known)
    exact .text (literal_quoteText _)
  complete := by
    intro f missing
    rw [fields_map_entry] at missing
    exact absurd (order.mem_iff.mpr f.mem_all) missing

/-- A member of the object as bytes. -/
def memberBytes (e : Envelope) (f : Field) : Bytes :=
  Utf8.encode (quoteText f.name) ++ 0x3A :: Utf8.encode (quoteText (e.get f))

theorem encode_memberChars (e : Envelope) (f : Field) :
    Utf8.encode (e.memberChars f) = e.memberBytes f := by
  rw [memberChars, Utf8.encode_append, Utf8.encode_cons]
  rfl

/-- Members one after the other; `first` tells whether no comma precedes the first of them. -/
def membersBytes (e : Envelope) : Bool → List Field → Bytes
  | _, [] => []
  | first, f :: fs => (if first then [] else [0x2C]) ++ e.memberBytes f ++ e.membersBytes false fs

theorem encode_intercalate (e : Envelope) (fs : List Field) :
    Utf8.encode ([','].intercalate (fs.map e.memberChars)) = e.membersBytes true fs := by
  have comma : Utf8.encodeChar ',' = [0x2C] := by decide
  induction fs with
  | nil => rfl
  | cons f fs ih =>
    cases fs with
    | nil => simp [membersBytes, encode_memberChars]
    | cons g fs => simpa [membersBytes, encode_memberChars, comma] using ih

theorem encode_eq (e : Envelope) : e.encode = 0x7B :: (e.membersBytes true Field.all ++ [0x7D]) := by
  rw [encode, chars, List.cons_append, Utf8.encode_cons, Utf8.encode_append, encode_intercalate]
  rfl

theorem texts_map_entry (e : Envelope) (first : Bool) (fs : List Field) :
    Entry.texts first (fs.map e.entry) = e.membersBytes first fs := by
  induction fs generalizing first with
  | nil => rfl
  | cons f fs ih =>
    rw [List.map_cons, Entry.texts, ih, membersBytes, Entry.text, memberText, memberBytes, List.append_assoc]
    cases first <;> rfl

/-- What an envelope is written as is one of its presentations. -/
theorem encode_eq_objectText (e : Envelope) :
    e.encode = Entry.objectText default default default (Field.all.map e.entry) := by
  rw [e.encode_eq, Entry.objectText, texts_map_entry]
  rfl

/-- How an envelope is presented makes no difference. The order of its members, the space in the object, how texts
are escaped, what is null or left out, and members of other names with values of any kind: a payload that presents
an envelope is decoded as the one that the envelope is written as. With an identifier and a type that is the envelope
itself, but for blank metadata. A payload in which a field stands twice is malformed, whatever the values. -/
theorem decode_objectText (e : Envelope) (ms : List Entry) (start close finish : Gap) :
    (e.Presents ms →
      Envelope.decode (Entry.objectText start close finish ms) = Envelope.decode e.encode ∧
      (Text.allBlank e.eventId = false → Text.allBlank e.eventType = false →
        Envelope.decode (Entry.objectText start close finish ms) = .ok e.reread)) ∧
      ∀ f, 2 ≤ (Entry.fields ms).count f →
        ∃ cause place, Envelope.decode (Entry.objectText start close finish ms) = .error (.malformed cause place) := by
  refine ⟨fun presents => ⟨?_, fun named typed => ?_⟩, fun f twice => ?_⟩
  · rw [presents.decode, encode_eq_objectText, (e.presents_map_entry (.refl _)).decode]
  · rw [presents.decode, named, typed]
    rfl
  · refine Entry.decode_of_forall_not_gives fun out gives => ?_
    have once := List.nodup_iff_count_le_one.mp gives.fields_fresh.1 f
    omega

def oneBlank : Gap :=
  ⟨[0x20], List.forall_mem_singleton.mpr rfl⟩

/-- A member with a blank wherever one may stand. -/
def spaced (name : String) {value : Bytes} (formed : Formed .value value) : Entry where
  name
  label := Utf8.encode (quoteText name)
  value
  before := oneBlank
  lead := oneBlank
  gap := oneBlank
  pad := oneBlank
  spelled := literal_quoteText name
  formed

theorem shows_spaced {t : Bytes} (formed : Formed .value t) (shows : e.Shows f t) (g : Field)
    (known : (spaced f.name formed).field? = some g) : e.Shows g (spaced f.name formed).value := by
  obtain rfl : f = g := Option.some.inj ((Field.ofName?_name f).symm.trans known)
  exact shows

/-- An event of which little is known. -/
def sparse : Envelope :=
  ofFields fun
    | .eventId => "e1"
    | .eventType => "INJECT_SUCCESS"
    | .eventCategory => "access"
    | .metadata => " "
    | _ => ""

/-- Its members in another order, most of them left out, with null for one, an empty object for the metadata, and
one more member: an array of an empty array and null. -/
def sparsely : List Entry :=
  [spaced Field.metadata.name (.object (.lastMember default)), spaced Field.orgId.name (.scalar .nullWord),
    spaced Field.eventCategory.name (literal_quoteText "access").formed,
    spaced "more" (.array (.item default default (.array (.lastItem default))
      (.item default default (.scalar .nullWord) (.lastItem default)))),
    spaced Field.eventId.name (literal_quoteText "e1").formed,
    spaced Field.eventType.name (literal_quoteText "INJECT_SUCCESS").formed]

theorem presents_sparsely : sparse.Presents sparsely where
  once := by decide
  shows := by
    have blank : sparse.Lacks .metadata := .metadata (.inl (by decide))
    have nobody : sparse.Lacks .orgId := .text rfl nofun rfl
    simp only [sparsely, List.forall_mem_cons]
    refine ⟨shows_spaced _ (.nothing default blank), shows_spaced _ (.null nobody),
      shows_spaced _ (.text (literal_quoteText _)), fun f known => absurd known (by decide +revert),
      shows_spaced _ (.text (literal_quoteText _)), shows_spaced _ (.text (literal_quoteText _)), by simp⟩
  complete := by
    intro f missing
    cases f <;> first | exact .text rfl nofun rfl | exact absurd (by decide) missing

theorem decode_sparsely :
    (sparse.Presents sparsely ∧ Text.allBlank sparse.eventId = false ∧ Text.allBlank sparse.eventType = false ∧
      Envelope.decode (Entry.objectText default default default sparsely) = Envelope.decode sparse.encode ∧
      Envelope.decode (Entry.objectText default default default sparsely) = .ok sparse.reread) ∧
    2 ≤ (Entry.fields (sparsely ++ [sparse.entry .orgId])).count .orgId ∧
    ∃ cause place, Envelope.decode (Entry.objectText default default default (sparsely ++ [sparse.entry .orgId])) =
      .error (.malformed cause place) :=
  have twice : 2 ≤ (Entry.fields (sparsely ++ [sparse.entry .orgId])).count .orgId := by decide
  have named : Text.allBlank sparse.eventId = false := by decide
  have typed : Text.allBlank sparse.eventType = false := by decide
  have read := (decode_objectText _ _ default default default).1 presents_sparsely
  ⟨⟨presents_sparsely, named, typed, read.1, read.2 named typed⟩, twice,
    (decode_objectText sparse _ _ _ _).2 .orgId twice⟩

end Envelope

end EventRelay
