import EventRelay.Event.Decoding
import EventRelay.Proofs.Json.Reading

/-!
Payloads that are objects, with any members. What an object gives depends on each member's name and on what its
value is read as, and not on how either is written or on the space between them.
-/

namespace EventRelay

open Json Envelope

namespace Field

variable {f : Field} {t : Bytes} {text : String}

/-- A value is read as a text, when it is the value of a field. -/
def Reads (f : Field) (t : Bytes) (text : String) : Prop :=
  ∀ (pad : Gap) (tail : Bytes), Apart tail → readField f (pad.val ++ (t ++ tail)) = .ok (text, tail)

/-- A value is not one of a field. -/
def Refuses (f : Field) (t : Bytes) : Prop :=
  ∀ (pad : Gap) (tail : Bytes), Apart tail → Fails (readField f (pad.val ++ (t ++ tail)))

theorem fails_mismatch {α : Type} (expected : String) (s : Bytes) : Fails (mismatch expected s : Except Fault α) := by
  unfold mismatch
  split
  · exact fails_faultAtNext _ _
  split
  · exact fails_fault _ _
  split
  · exact fails_fault _ _
  · rename_i b s _ _
    rcases readScalar b s with f | ⟨v, rest⟩
    · exact ⟨f, rfl⟩
    · exact fails_fault _ _

theorem readField_metadata (pad : Gap) (s : Bytes) : ∃ fuel, s.length ≤ fuel ∧ readField .metadata (pad.val ++ s) =
    (readValue fuel (depthLimit - 1) s >>= fun p => .ok (metadataText p.1, p.2)) := by
  refine ⟨fuelFor (pad.val ++ s), by simp only [fuelFor, List.length_append]; omega, ?_⟩
  rw [readField, if_pos rfl, fuelFor, readValue_gap]

theorem reads_metadata {v : Value} (denotes : Denotes (depthLimit - 1) t v) : Reads .metadata t (metadataText v) := by
  intro pad tail apart
  obtain ⟨fuel, enough, same⟩ := readField_metadata pad (t ++ tail)
  rw [List.length_append] at enough
  rw [same, denotes fuel tail (by omega) apart, ok_bind]

theorem metadata_reads_or_refuses (formed : Formed .value t) :
    (∃ v, Denotes (depthLimit - 1) t v) ∨ Refuses .metadata t := by
  rcases formed.denotes (depthLimit - 1) with ⟨v, denotes⟩ | refused
  · exact .inl ⟨v, denotes⟩
  · refine .inr fun pad tail apart => ?_
    obtain ⟨fuel, enough, same⟩ := readField_metadata pad (t ++ tail)
    rw [List.length_append] at enough
    rw [same]
    exact (refused fuel tail (by omega) apart).bind _

theorem readText_gap (pad : Gap) (s : Bytes) : readText (pad.val ++ s) = readText s := by
  rw [readText, readText, skipSpace_gap]

theorem readTextOrNull_gap (pad : Gap) (s : Bytes) : readTextOrNull (pad.val ++ s) = readTextOrNull s := by
  rw [readTextOrNull, readTextOrNull, skipSpace_gap]

/-- Only a string begins with a quote. -/
theorem exists_body {s : Bytes} (formed : Formed .value (0x22 :: s)) : ∃ body, StringBody body ∧ s = body ++ [0x22] := by
  cases formed with
  | scalar scalar =>
    cases scalar with
    | string body => exact ⟨_, body, rfl⟩
    | positive magnitude => exact absurd magnitude.head (by decide)

/-- Only null begins like it. -/
theorem eq_nullWord {s : Bytes} (formed : Formed .value (0x6E :: s)) : s = [0x75, 0x6C, 0x6C] := by
  cases formed with
  | scalar scalar =>
    cases scalar with
    | nullWord => rfl
    | positive magnitude => exact absurd magnitude.head (by decide)

theorem readText_reads_or_fails (formed : Formed .value t) :
    (∃ s, Literal t s) ∨ ∀ tail, Fails (readText (t ++ tail)) := by
  obtain ⟨b, s, rfl, word, _⟩ := formed.head
  by_cases quote : b = 0x22
  · subst quote
    obtain ⟨body, between, rfl⟩ := exists_body formed
    rcases readString_body between with ⟨text, literal, _⟩ | refused
    · exact .inl ⟨text, literal⟩
    · refine .inr fun tail => ?_
      rw [readText, List.cons_append, skipSpace_of_not_isSpace word]
      simp only [List.append_assoc, if_true]
      exact refused tail
  · refine .inr fun tail => ?_
    rw [readText, List.cons_append, skipSpace_of_not_isSpace word]
    simp only [if_neg quote, fails_mismatch]

theorem readText_literal (literal : Literal t text) (tail : Bytes) : readText (t ++ tail) = .ok (text, tail) := by
  obtain ⟨body, rfl, found⟩ := literal.read
  rw [readText, quoted, List.cons_append, List.append_assoc, skipSpace_of_not_isSpace (by decide)]
  exact found tail

theorem readTextOrNull_other {b : UInt8} (word : isSpace b = false) (other : b ≠ 0x6E) (s : Bytes) :
    readTextOrNull (b :: s) = readText (b :: s) := by
  rw [readTextOrNull, skipSpace_of_not_isSpace word]
  simp [other]

theorem readTextOrNull_null (tail : Bytes) : readTextOrNull ([0x6E, 0x75, 0x6C, 0x6C] ++ tail) = .ok ("", tail) := by
  rw [readTextOrNull, List.cons_append, skipSpace_of_not_isSpace (by decide)]
  simp only [readName_append, ok_bind]

theorem readField_required (required : f.isRequired = true) (pad : Gap) (s : Bytes) :
    readField f (pad.val ++ s) = readText s := by
  have other : f ≠ .metadata := by
    rintro rfl
    cases required
  rw [readField, if_neg other, if_pos required, readText_gap]

theorem readField_optional (other : f ≠ .metadata) (optional : f.isRequired = false) (pad : Gap) (s : Bytes) :
    readField f (pad.val ++ s) = readTextOrNull s := by
  rw [readField, if_neg other, optional, if_neg (by decide), readTextOrNull_gap]

/-- What is read of a field whose text was written. -/
def reread (f : Field) (text : String) : String :=
  if f = .metadata then metadataText (.string text) else text

theorem reads_literal (literal : Literal t text) : f.Reads t (f.reread text) := by
  by_cases other : f = .metadata
  · subst other
    exact reads_metadata (literal.denotes _)
  intro pad tail _
  rw [reread, if_neg other]
  cases required : f.isRequired with
  | true => rw [readField_required required, readText_literal literal]
  | false =>
    obtain ⟨body, rfl, _⟩ := literal.read
    have read := readText_literal literal tail
    rw [readField_optional other required, quoted, List.cons_append, readTextOrNull_other (by decide) (by decide)]
    exact read

theorem reads_null (optional : f.isRequired = false) : f.Reads [0x6E, 0x75, 0x6C, 0x6C] f.absent := by
  by_cases other : f = .metadata
  · subst other
    exact reads_metadata (denotes_null _)
  · intro pad tail _
    have nothing : f.absent = "" := by cases f <;> first | rfl | exact absurd rfl other
    rw [readField_optional other optional, readTextOrNull_null, nothing]

theorem reads_nothing (gap : Gap) : Reads .metadata (0x7B :: (gap.val ++ [0x7D])) (Field.absent .metadata) := by
  have empty : metadataText (.object []) = Field.absent .metadata := by decide
  rw [← empty]
  exact reads_metadata (denotes_nothing (by decide) gap)

/-- What the value of a field may be: a string, or null where no text need be given. Metadata may be anything that
is not nested too deep. -/
theorem reads_or_refuses (formed : Formed .value t) : (∃ text, f.Reads t text) ∨ f.Refuses t := by
  by_cases other : f = .metadata
  · subst other
    rcases metadata_reads_or_refuses formed with ⟨v, denotes⟩ | refuses
    · exact .inl ⟨_, reads_metadata denotes⟩
    · exact .inr refuses
  rcases readText_reads_or_fails formed with ⟨text, literal⟩ | refused
  · exact .inl ⟨_, reads_literal literal⟩
  cases required : f.isRequired with
  | true =>
    refine .inr fun pad tail _ => ?_
    rw [readField_required required]
    exact refused tail
  | false =>
    obtain ⟨b, s, rfl, word, _⟩ := formed.head
    by_cases null : b = 0x6E
    · subst null
      obtain rfl := eq_nullWord formed
      exact .inl ⟨_, reads_null required⟩
    · refine .inr fun pad tail _ => ?_
      rw [readField_optional other required, List.cons_append, readTextOrNull_other word null]
      exact refused tail

end Field

/-- A payload that is not empty and cannot be read is malformed. -/
theorem Envelope.decode_of_fails {payload : Bytes} (filled : payload.all isEmptySpace = false)
    (fails : Fails (Envelope.read payload)) : ∃ cause place, decode payload = .error (.malformed cause place) := by
  obtain ⟨f, refused⟩ := fails
  refine ⟨f.cause, .ofLeft payload f.left, ?_⟩
  simp only [decode, filled, refused, Bool.false_eq_true, if_false]

/-- A member of an object, with the space in and before it. -/
structure Entry where
  name : String
  /-- The name as it is written. -/
  label : Bytes
  value : Bytes
  before : Gap
  lead : Gap
  gap : Gap
  pad : Gap
  spelled : Literal label name
  formed : Formed .value value

namespace Entry

/-- The field that a member is about. -/
def field? (m : Entry) : Option Field :=
  Field.ofName? m.name

def text (first : Bool) (m : Entry) : Bytes :=
  memberText first m.before m.lead m.gap m.pad m.label m.value

/-- Members one after the other; `first` tells whether no comma precedes the first of them. -/
def texts : Bool → List Entry → Bytes
  | _, [] => []
  | first, m :: ms => m.text first ++ texts false ms

/-- An object with some members, with space in and around it. -/
def objectText (start close finish : Gap) (ms : List Entry) : Bytes :=
  start.val ++ 0x7B :: (texts true ms ++ (close.val ++ 0x7D :: finish.val))

theorem texts_apart (ms : List Entry) (close : Gap) (s : Bytes) : Apart (texts false ms ++ (close.val ++ 0x7D :: s)) := by
  cases ms with
  | nil => exact apart_gap close (apart_cons s (by decide))
  | cons m ms =>
    rw [texts, text, memberText, List.append_assoc, List.append_assoc]
    exact apart_gap m.before (apart_cons _ (by decide))

theorem length_le_texts (first : Bool) (ms : List Entry) : ms.length ≤ (texts first ms).length := by
  induction ms generalizing first with
  | nil => exact Nat.le_refl _
  | cons m ms ih =>
    have rest := ih false
    simp only [texts, text, memberText, List.length_append, List.length_cons]
    omega

end Entry

/-- What members give, after those that were given before them. -/
inductive Gives : List Entry → Given → Given → Prop
  | done {given : Given} : Gives [] given given
  | pass {m : Entry} {ms : List Entry} {given out : Given} : m.field? = none → Gives ms given out →
      Gives (m :: ms) given out
  | take {m : Entry} {ms : List Entry} {f : Field} {text : String} {given out : Given} : m.field? = some f →
      given.find? f = none → f.Reads m.value text → Gives ms ((f, text) :: given) out → Gives (m :: ms) given out

namespace Entry

theorem nextName_text (first : Bool) (m : Entry) (s : Bytes) :
    nextName first (m.text first ++ s) = .ok (some m.name, m.gap.val ++ 0x3A :: (m.pad.val ++ (m.value ++ s))) := by
  obtain ⟨body, same, found⟩ := m.spelled.read
  rw [text, same, nextName_memberText, found, ok_bind]

theorem readNamed_pass {first : Bool} {m : Entry} {given : Given} (other : m.field? = none) (fuel : Nat) {s : Bytes}
    (apart : Apart s) : readNamed (fuel + 1) first given (m.text first ++ s) = readNamed fuel false given s := by
  have skipped : skipValue (fuelFor (m.pad.val ++ (m.value ++ s))) (m.pad.val ++ (m.value ++ s)) = .ok s := by
    rw [fuelFor, skipValue_gap]
    refine skipValue_formed m.formed ?_ apart
    simp only [List.length_append]
    omega
  have unknown : Field.ofName? m.name = none := other
  rw [readNamed, nextName_text]
  simp [unknown, readColon_gap, skipped]

theorem readNamed_take {first : Bool} {m : Entry} {given : Given} {f : Field} (known : m.field? = some f)
    (fresh : given.find? f = none) (fuel : Nat) (s : Bytes) :
    readNamed (fuel + 1) first given (m.text first ++ s) =
      (readField f (m.pad.val ++ (m.value ++ s)) >>= fun p => readNamed fuel false ((f, p.1) :: given) p.2) := by
  have known : Field.ofName? m.name = some f := known
  rw [readNamed, nextName_text]
  simp [known, fresh, readColon_gap]

/-- A name that stands in an object twice. -/
theorem fails_readNamed_again {first : Bool} {m : Entry} {given : Given} {f : Field} (known : m.field? = some f)
    (again : given.find? f ≠ none) (fuel : Nat) (s : Bytes) :
    Fails (readNamed (fuel + 1) first given (m.text first ++ s)) := by
  have known : Field.ofName? m.name = some f := known
  rw [readNamed, nextName_text]
  simp [known, Option.isSome_iff_ne_none.mpr again, fails_fault]

/-- Members are read as what they give. -/
theorem readNamed_of_gives {ms : List Entry} {given out : Given} (gives : Gives ms given out) (close : Gap) (rest : Bytes)
    {fuel : Nat} (enough : ms.length < fuel) (first : Bool) :
    readNamed fuel first given (texts first ms ++ (close.val ++ 0x7D :: rest)) = .ok (out, rest) := by
  induction gives generalizing fuel first with
  | done =>
    cases fuel with
    | zero => cases enough
    | succ fuel =>
      rw [texts, List.nil_append, readNamed, nextName_last]
      rfl
  | @pass m ms given out other _ ih =>
    cases fuel with
    | zero => cases enough
    | succ fuel =>
      rw [texts, List.append_assoc, readNamed_pass other fuel (texts_apart ms close rest)]
      exact ih (Nat.lt_of_succ_lt_succ enough) false
  | @take m ms f text given out known fresh reads _ ih =>
    cases fuel with
    | zero => cases enough
    | succ fuel =>
      rw [texts, List.append_assoc, readNamed_take known fresh, reads m.pad _ (texts_apart ms close rest), ok_bind]
      exact ih (Nat.lt_of_succ_lt_succ enough) false

/-- Members that are read give something. -/
theorem exists_gives {ms : List Entry} {given : Given} {close : Gap} {rest : Bytes} {fuel : Nat} {first : Bool}
    {p : Given × Bytes} (read : readNamed fuel first given (texts first ms ++ (close.val ++ 0x7D :: rest)) = .ok p) :
    ∃ out, Gives ms given out := by
  induction ms generalizing given fuel first with
  | nil => exact ⟨given, .done⟩
  | cons m ms ih =>
    have apart := texts_apart ms close rest
    cases fuel with
    | zero => cases read
    | succ fuel =>
      rw [texts, List.append_assoc] at read
      cases known : m.field? with
      | none =>
        rw [readNamed_pass known fuel apart] at read
        obtain ⟨out, gives⟩ := ih read
        exact ⟨out, .pass known gives⟩
      | some f =>
        cases fresh : given.find? f with
        | some _ =>
          obtain ⟨_, refused⟩ := fails_readNamed_again known (Option.ne_none_iff_exists'.mpr ⟨_, fresh⟩) fuel _
          rw [refused] at read
          cases read
        | none =>
          rw [readNamed_take known fresh] at read
          rcases f.reads_or_refuses m.formed with ⟨text, reads⟩ | refuses
          · rw [reads m.pad _ apart, ok_bind] at read
            obtain ⟨out, gives⟩ := ih read
            exact ⟨out, .take known fresh reads gives⟩
          · obtain ⟨_, refused⟩ := refuses m.pad _ apart
            rw [refused] at read
            cases read

variable {start close finish : Gap} {ms : List Entry} {out : Given}

theorem read_objectText : read (objectText start close finish ms) =
    (readObject (texts true ms ++ (close.val ++ 0x7D :: finish.val)) >>= fun p =>
      expectEnd p.2 >>= fun _ => .ok p.1) := by
  rw [Envelope.read, objectText, skipSpace_gap, skipSpace_of_not_isSpace (by decide)]
  rfl

/-- An object is read as the envelope that its members give, if they give all that is required. What follows its
closing brace is left. -/
theorem readObject_of_gives (gives : Gives ms [] out) (complete : ∀ f, f.isRequired = true → out.find? f ≠ none)
    (rest : Bytes) : readObject (texts true ms ++ (close.val ++ 0x7D :: rest)) = .ok (out.toEnvelope, rest) := by
  have enough : ms.length < (texts true ms ++ (close.val ++ 0x7D :: rest)).length + 1 := by
    have length := length_le_texts true ms
    simp only [List.length_append]
    omega
  have present : Field.all.find? (fun f => f.isRequired && (out.find? f).isNone) = none := by
    rw [List.find?_eq_none]
    intro f _
    cases required : f.isRequired with
    | false => simp
    | true => simpa using complete f required
  rw [readObject, readNamed_of_gives gives close rest enough true, ok_bind]
  simp only [present]

/-- An envelope that was read of an object is the one that its members give, and they give all that is required. -/
theorem gives_of_read {e : Envelope} (whole : read (objectText start close finish ms) = .ok e) :
    ∃ out, Gives ms [] out ∧ (∀ f, f.isRequired = true → out.find? f ≠ none) ∧ e = out.toEnvelope := by
  have enough : ms.length < (texts true ms ++ (close.val ++ 0x7D :: finish.val)).length + 1 := by
    have length := length_le_texts true ms
    simp only [List.length_append]
    omega
  rw [read_objectText, readObject] at whole
  rcases named : readNamed _ true [] (texts true ms ++ (close.val ++ 0x7D :: finish.val)) with _ | p
  · rw [named] at whole
    cases whole
  · obtain ⟨out, gives⟩ := exists_gives named
    rw [readNamed_of_gives gives close finish.val enough true, ok_bind] at whole
    dsimp only at whole
    split at whole
    · cases whole
    · rename_i present
      simp only [ok_bind, expectEnd_gap, Except.ok.injEq] at whole
      refine ⟨out, gives, fun f required missing => ?_, whole.symm⟩
      have given := List.find?_eq_none.mp present f f.mem_all
      simp [required, missing] at given

theorem objectText_not_empty : (objectText start close finish ms).all isEmptySpace = false := by
  rw [objectText, List.all_append, List.all_cons]
  simp [isEmptySpace, isSpace]

/-- Members that give nothing make a payload that is malformed. -/
theorem decode_of_forall_not_gives (never : ∀ out, ¬Gives ms [] out) :
    ∃ cause place, decode (objectText start close finish ms) = .error (.malformed cause place) := by
  refine decode_of_fails objectText_not_empty ?_
  cases result : read (objectText start close finish ms) with
  | ok e =>
    obtain ⟨out, gives, _⟩ := gives_of_read result
    exact absurd gives (never out)
  | error f => exact ⟨f, rfl⟩

end Entry

end EventRelay
