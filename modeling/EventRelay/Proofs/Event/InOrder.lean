import EventRelay.Proofs.Event.Presentation

/-!
Payloads that are arrays. An array tells its fields by their places and an object by their names, and each value is read
the same way in both. So the array of some values and the object that has them under the names of the first fields come
to one and the same.
-/

namespace EventRelay

open Json Envelope

/-- An item of an array, with the space before it. -/
structure Item where
  value : Bytes
  before : Gap
  lead : Gap
  formed : Formed .value value

namespace Item

def text (first : Bool) (item : Item) : Bytes :=
  item.before.val ++ (separator first ++ (item.lead.val ++ item.value))

/-- Items one after the other; `first` tells whether no comma precedes the first of them. -/
def texts : Bool → List Item → Bytes
  | _, [] => []
  | first, item :: items => item.text first ++ texts false items

/-- An array with some items, with space in and around it. -/
def arrayText (start close finish : Gap) (items : List Item) : Bytes :=
  start.val ++ 0x5B :: (texts true items ++ (close.val ++ 0x5D :: finish.val))

theorem text_append (first : Bool) (item : Item) (s : Bytes) :
    item.text first ++ s = item.before.val ++ (separator first ++ (item.lead.val ++ (item.value ++ s))) := by
  simp only [text, List.append_assoc]

theorem formed_texts (first : Bool) (items : List Item) (close : Gap) :
    Formed (.items first) (texts first items ++ (close.val ++ [0x5D])) := by
  induction items generalizing first with
  | nil => exact .lastItem close
  | cons item items ih =>
    rw [texts, List.append_assoc, text_append]
    exact .item item.before item.lead item.formed (ih false)

theorem texts_apart (items : List Item) (close : Gap) (s : Bytes) :
    Apart (texts false items ++ (close.val ++ 0x5D :: s)) := by
  have apart := (formed_texts false items close).items_apart s
  rwa [List.append_assoc, List.append_assoc] at apart

end Item

/-- Values that are read as texts of fields, one for each of the first fields. -/
inductive FieldTexts : List Field → List Bytes → Given → Prop
  | done (fs : List Field) : FieldTexts fs [] []
  | take {f : Field} {fs : List Field} {t : Bytes} {ts : List Bytes} {text : String} {given : Given} :
      f.Reads t text → FieldTexts fs ts given → FieldTexts (f :: fs) (t :: ts) ((f, text) :: given)

namespace FieldTexts

variable {fs : List Field} {ts : List Bytes} {given : Given}

theorem fields (told : FieldTexts fs ts given) : given.map Prod.fst = fs.take ts.length := by
  induction told with
  | done => rfl
  | take _ _ ih => rw [List.map_cons, ih, List.length_cons, List.take_succ_cons]

theorem length_le (told : FieldTexts fs ts given) : ts.length ≤ fs.length := by
  induction told with
  | done => exact Nat.zero_le _
  | take _ _ ih => exact Nat.succ_le_succ ih

end FieldTexts

namespace Item

theorem readInOrder_text {f : Field} {fs : List Field} {first : Bool} (item : Item) (s : Bytes) :
    readInOrder (f :: fs) first (item.text first ++ s) = (readField f (item.value ++ s) >>= fun p =>
      readInOrder fs false p.2 >>= fun q => .ok ((f, p.1) :: q.1, q.2)) := by
  rw [readInOrder, text_append, nextItem_item item.before item.lead item.formed, ok_bind]

/-- After the last field no item may follow. -/
theorem fails_readInOrder_text (first : Bool) (item : Item) (s : Bytes) :
    Fails (readInOrder [] first (item.text first ++ s)) := by
  have shown : ∃ b rest, skipSpace (item.text first ++ s) = b :: rest ∧ b ≠ 0x5D := by
    rw [text_append, skipSpace_gap]
    cases first with
    | false => exact ⟨0x2C, _, skipSpace_of_not_isSpace (by decide) _, by decide⟩
    | true =>
      obtain ⟨b, rest, same, _, other, _⟩ := item.formed.head
      refine ⟨b, rest ++ s, ?_, other⟩
      rw [separator, if_pos rfl, List.nil_append, skipSpace_gap, skipSpace_value item.formed, same, List.cons_append]
  obtain ⟨b, rest, opened, other⟩ := shown
  have ends : Fails (endItems (item.text first ++ s)) := by
    rw [endItems, opened]
    simp only [if_neg other]
    split
    · split <;> exact fails_faultAtNext _ _
    · exact fails_faultAtNext _ _
  exact ends.bind _

theorem readInOrder_nil (fs : List Field) (first : Bool) (close : Gap) (rest : Bytes) :
    readInOrder fs first (close.val ++ 0x5D :: rest) = .ok ([], rest) := by
  cases fs with
  | nil =>
    rw [readInOrder, endItems, skipSpace_gap, skipSpace_of_not_isSpace (by decide)]
    rfl
  | cons f fs =>
    rw [readInOrder, nextItem_last]
    rfl

/-- An array is read as what its values tell. -/
theorem readInOrder_of_told {fs : List Field} {items : List Item} {given : Given}
    (told : FieldTexts fs (items.map Item.value) given) (close : Gap) (rest : Bytes) (first : Bool) :
    readInOrder fs first (texts first items ++ (close.val ++ 0x5D :: rest)) = .ok (given, rest) := by
  induction items generalizing fs given first with
  | nil =>
    cases told
    exact readInOrder_nil fs first close rest
  | cons item items ih =>
    rw [List.map_cons] at told
    cases told with
    | @take f fs _ _ text more reads told =>
      have read : readField f (item.value ++ (texts false items ++ (close.val ++ 0x5D :: rest))) =
          .ok (text, texts false items ++ (close.val ++ 0x5D :: rest)) :=
        reads default _ (texts_apart items close rest)
      rw [texts, List.append_assoc, readInOrder_text, read, ok_bind, ih told, ok_bind]

/-- Items that are read tell something. -/
theorem exists_told {fs : List Field} {items : List Item} {close : Gap} {rest : Bytes} {first : Bool}
    {p : Given × Bytes} (read : readInOrder fs first (texts first items ++ (close.val ++ 0x5D :: rest)) = .ok p) :
    ∃ given, FieldTexts fs (items.map Item.value) given := by
  induction items generalizing fs first p with
  | nil => exact ⟨[], .done fs⟩
  | cons item items ih =>
    rw [texts, List.append_assoc] at read
    cases fs with
    | nil =>
      obtain ⟨_, refused⟩ := fails_readInOrder_text first item (texts false items ++ (close.val ++ 0x5D :: rest))
      rw [refused] at read
      cases read
    | cons f fs =>
      have apart := texts_apart items close rest
      rw [readInOrder_text] at read
      rcases f.reads_or_refuses item.formed with ⟨text, reads⟩ | refuses
      · have value : readField f (item.value ++ (texts false items ++ (close.val ++ 0x5D :: rest))) = .ok (text, _) :=
          reads default _ apart
        rw [value, ok_bind] at read
        obtain ⟨q, others, _⟩ := bind_eq_ok.mp read
        obtain ⟨given, told⟩ := ih others
        exact ⟨(f, text) :: given, .take reads told⟩
      · obtain ⟨_, refused⟩ := refuses default _ apart
        have value : readField f (item.value ++ (texts false items ++ (close.val ++ 0x5D :: rest))) = .error _ := refused
        rw [value] at read
        cases read

end Item

/-- Members that have some values under the names of the first fields, in this order. -/
structure Named (fs : List Field) (ts : List Bytes) (ms : List Entry) : Prop where
  names : ms.map Entry.name = (fs.take ts.length).map Field.name
  values : ms.map Entry.value = ts

namespace Named

variable {f : Field} {fs : List Field} {t : Bytes} {ts : List Bytes} {ms : List Entry} {given before out : Given}

theorem eq_nil (named : Named fs [] ms) : ms = [] :=
  List.map_eq_nil_iff.mp named.values

theorem exists_cons (named : Named (f :: fs) (t :: ts) ms) :
    ∃ m more, ms = m :: more ∧ m.field? = some f ∧ m.value = t ∧ Named fs ts more := by
  obtain ⟨names, values⟩ := named
  cases ms with
  | nil => cases values
  | cons m more =>
    obtain ⟨value, values⟩ := List.cons.inj values
    obtain ⟨name, names⟩ := List.cons.inj names
    exact ⟨m, more, rfl, by rw [Entry.field?, name, Field.ofName?_name], value, names, values⟩

/-- What values tell one after the other, an object gives of them, the last one first. -/
theorem gives (named : Named fs ts ms) (told : FieldTexts fs ts given) (distinct : fs.Nodup)
    (fresh : ∀ f ∈ fs, before.find? f = none) : Gives ms before (given.reverse ++ before) := by
  induction told generalizing ms before with
  | done fs =>
    rw [named.eq_nil]
    exact .done
  | @take f fs t ts text given reads _ ih =>
    obtain ⟨m, more, rfl, known, rfl, later⟩ := named.exists_cons
    obtain ⟨new, distinct⟩ := List.nodup_cons.mp distinct
    obtain ⟨unset, fresh⟩ := List.forall_mem_cons.mp fresh
    rw [List.reverse_cons, List.append_assoc]
    refine .take known unset reads (ih later distinct fun g member => ?_)
    have other : g ≠ f := fun same => new (same ▸ member)
    rw [Given.find?_cons_of_ne before other]
    exact fresh g member

/-- And values of which an object gives something tell something. -/
theorem exists_told (named : Named fs ts ms) (gives : Gives ms before out) (most : ts.length ≤ fs.length) :
    ∃ given, FieldTexts fs ts given := by
  induction ts generalizing fs ms before with
  | nil => exact ⟨[], .done fs⟩
  | cons t ts ih =>
    cases fs with
    | nil => cases most
    | cons f fs =>
      obtain ⟨m, more, rfl, known, rfl, later⟩ := named.exists_cons
      cases gives with
      | pass other =>
        rw [known] at other
        cases other
      | @take _ _ g text _ _ known' _ reads gives =>
        obtain rfl : f = g := Option.some.inj (known.symm.trans known')
        obtain ⟨given, told⟩ := ih later gives (Nat.le_of_succ_le_succ most)
        exact ⟨(f, text) :: given, .take reads told⟩

end Named

namespace Envelope.Given

variable {given : Given} {f : Field}

theorem find?_eq_none_iff : given.find? f = none ↔ f ∉ given.map Prod.fst := by
  rw [find?, List.lookup_eq_none_iff, List.mem_map]
  constructor
  · rintro other ⟨p, member, rfl⟩
    simpa using other p member
  · intro missing p member
    exact bne_iff_ne.mpr fun same => missing ⟨p, member, same.symm⟩

/-- If no field is given twice, their order makes no difference. -/
theorem find?_reverse (distinct : (given.map Prod.fst).Nodup) (f : Field) :
    Given.find? given.reverse f = given.find? f := by
  induction given with
  | nil => rfl
  | cons p given ih =>
    obtain ⟨g, text⟩ := p
    obtain ⟨new, distinct⟩ := List.nodup_cons.mp distinct
    have split : Given.find? ((g, text) :: given).reverse f =
        (Given.find? given.reverse f).or (Given.find? [(g, text)] f) := by
      rw [List.reverse_cons]
      exact List.lookup_append
    rw [split, ih distinct]
    by_cases same : f = g
    · subst same
      rw [find?_eq_none_iff.mpr new, Option.none_or, find?, find?, List.lookup_cons_self, List.lookup_cons_self]
    · rw [find?_cons_of_ne given same, find?_cons_of_ne [] same]
      exact Option.or_none

end Envelope.Given

namespace FieldTexts

variable {ts : List Bytes} {given : Given}

theorem distinct (told : FieldTexts Field.all ts given) : (given.map Prod.fst).Nodup := by
  rw [told.fields]
  exact List.Nodup.sublist (List.take_sublist _ _) (by decide)

/-- The fields that are required are the first three. -/
theorem find?_ne_none (told : FieldTexts Field.all ts given) (least : 3 ≤ ts.length) {f : Field}
    (required : f.isRequired = true) : given.find? f ≠ none := by
  have first : f ∈ Field.all.take 3 := by
    cases f <;> first | decide | cases required
  have member : f ∈ Field.all.take ts.length := (List.take_subset_take_left _ least) first
  rw [← told.fields] at member
  exact fun missing => Given.find?_eq_none_iff.mp missing member

theorem find?_eventCategory (told : FieldTexts Field.all ts given) (few : ts.length < 3) :
    given.find? .eventCategory = none := by
  rw [Given.find?_eq_none_iff, told.fields]
  intro member
  exact absurd (List.take_subset_take_left _ (Nat.le_of_lt_succ few) member) (by decide)

theorem toEnvelope_reverse (told : FieldTexts Field.all ts given) : Given.toEnvelope given.reverse = given.toEnvelope := by
  have same (f : Field) : (Given.find? given.reverse f).getD f.absent = (given.find? f).getD f.absent := by
    rw [Given.find?_reverse told.distinct]
  rw [Given.toEnvelope, Given.toEnvelope, funext same]

end FieldTexts

namespace Item

variable {start close finish : Gap} {items : List Item} {given : Given}

theorem read_arrayText : read (arrayText start close finish items) =
    (readArray (texts true items ++ (close.val ++ 0x5D :: finish.val)) >>= fun p =>
      expectEnd p.2 >>= fun _ => .ok p.1) := by
  rw [Envelope.read, arrayText, skipSpace_gap, skipSpace_of_not_isSpace (by decide)]
  rfl

theorem arrayText_not_empty : (arrayText start close finish items).all isEmptySpace = false := by
  rw [arrayText, List.all_append, List.all_cons]
  simp [isEmptySpace, isSpace]

/-- Three values or more make an envelope, if they tell texts of fields. -/
theorem read_of_told (told : FieldTexts Field.all (items.map Item.value) given) (least : 3 ≤ items.length) :
    read (arrayText start close finish items) = .ok given.toEnvelope := by
  have complete : (Field.all.any fun f => f.isRequired && (given.find? f).isNone) = false := by
    rw [List.any_eq_false]
    intro f _
    cases required : f.isRequired with
    | false => simp
    | true => simpa using told.find?_ne_none (by simpa using least) required
  rw [read_arrayText, readArray, readInOrder_of_told told, ok_bind]
  simp only [complete, Bool.false_eq_true, if_false, ok_bind, expectEnd_gap]

/-- An array that is read has three values or more, and they tell texts of fields. -/
theorem told_of_read {e : Envelope} (parsed : read (arrayText start close finish items) = .ok e) :
    3 ≤ items.length ∧ ∃ given, FieldTexts Field.all (items.map Item.value) given := by
  rw [read_arrayText, readArray] at parsed
  cases ordered : readInOrder Field.all true (texts true items ++ (close.val ++ 0x5D :: finish.val)) with
  | error _ =>
    rw [ordered] at parsed
    cases parsed
  | ok p =>
    obtain ⟨given, told⟩ := exists_told ordered
    refine ⟨?_, given, told⟩
    by_contra few
    have missing := told.find?_eventCategory (by rwa [List.length_map, ← Nat.not_le])
    have incomplete : (Field.all.any fun f => f.isRequired && (given.find? f).isNone) = true :=
      List.any_eq_true.mpr ⟨.eventCategory, Field.mem_all _, by simp [Field.isRequired, missing]⟩
    rw [readInOrder_of_told told, ok_bind] at parsed
    simp only [incomplete, if_true] at parsed
    cases parsed

theorem decode_of_not_told (never : ¬(3 ≤ items.length ∧ ∃ given, FieldTexts Field.all (items.map Item.value) given)) :
    ∃ cause place, decode (arrayText start close finish items) = .error (.malformed cause place) := by
  refine decode_of_fails arrayText_not_empty ?_
  cases result : read (arrayText start close finish items) with
  | ok e => exact absurd (told_of_read result) never
  | error f => exact ⟨f, rfl⟩

end Item

/-- An object that has the values under the names of the first fields is read as the same envelope. -/
theorem Named.read_of_told {ts : List Bytes} {ms : List Entry} {given : Given} (named : Named Field.all ts ms)
    (told : FieldTexts Field.all ts given) (least : 3 ≤ ts.length) (start close finish : Gap) :
    read (Entry.objectText start close finish ms) = .ok given.toEnvelope := by
  have gives : Gives ms [] given.reverse := by
    have gives : Gives ms [] (given.reverse ++ []) := named.gives told (by decide) fun _ _ => rfl
    rwa [List.append_nil] at gives
  have complete : ∀ f, f.isRequired = true → Given.find? given.reverse f ≠ none := by
    intro f required
    rw [Given.find?_reverse told.distinct]
    exact told.find?_ne_none least required
  rw [Entry.read_objectText, Entry.readObject_of_gives gives complete, told.toEnvelope_reverse, ok_bind, expectEnd_gap,
    ok_bind]

namespace Envelope

/-- What two payloads come to: one event, one field that is missing, or a fault in either text. -/
inductive SameOutcome : Except DecodeError Envelope → Except DecodeError Envelope → Prop
  | event (e : Envelope) : SameOutcome (.ok e) (.ok e)
  | missingField (name : String) : SameOutcome (.error (.missingField name)) (.error (.missingField name))
  | malformed (cause cause' : Cause) (place place' : Place) :
      SameOutcome (.error (.malformed cause place)) (.error (.malformed cause' place'))

/-- Payloads that are read as one envelope come to the same, whether or not it lacks an identifier. -/
theorem sameOutcome_of_read {payload payload' : Bytes} {e : Envelope} (filled : payload.all isEmptySpace = false)
    (filled' : payload'.all isEmptySpace = false) (parsed : read payload = .ok e) (parsed' : read payload' = .ok e) :
    SameOutcome (decode payload) (decode payload') := by
  simp only [decode, filled, filled', parsed, parsed', Bool.false_eq_true, if_false]
  split
  · exact .missingField _
  split
  · exact .missingField _
  · exact .event e

/-- An array and an object with the same values. From three values up to one for each field, the array comes to the
same as any object that has the values under the names of the first fields, however either is written and whatever
the values are. With fewer values or more, an array is malformed. -/
theorem decode_arrayText (items : List Item) (start close finish : Gap) :
    (3 ≤ items.length → items.length ≤ 19 → ∀ ms, Named Field.all (items.map Item.value) ms →
      ∀ start' close' finish', SameOutcome (decode (Item.arrayText start close finish items))
        (decode (Entry.objectText start' close' finish' ms))) ∧
    (items.length < 3 ∨ 19 < items.length →
      ∃ cause place, decode (Item.arrayText start close finish items) = .error (.malformed cause place)) := by
  refine ⟨fun least most ms named start' close' finish' => ?_, fun wrong => ?_⟩
  · -- the values alone decide: either form reads all of them, or one of them is refused in both
    by_cases told : ∃ given, FieldTexts Field.all (items.map Item.value) given
    · obtain ⟨given, told⟩ := told
      exact sameOutcome_of_read Item.arrayText_not_empty Entry.objectText_not_empty (Item.read_of_told told least)
        (named.read_of_told told (by simpa using least) start' close' finish')
    · have ungiven : ∀ out, ¬Gives ms [] out := fun out gives =>
        told (named.exists_told gives (by rwa [List.length_map]))
      obtain ⟨cause, place, array⟩ := @Item.decode_of_not_told start close finish items fun read => told read.2
      obtain ⟨cause', place', object⟩ := @Entry.decode_of_forall_not_gives start' close' finish' ms ungiven
      rw [array, object]
      exact .malformed cause cause' place place'
  · refine Item.decode_of_not_told ?_
    rintro ⟨least, given, told⟩
    have most := told.length_le
    rw [List.length_map] at most
    have fields : Field.all.length = 19 := rfl
    omega

theorem formed_null : Formed .value [0x6E, 0x75, 0x6C, 0x6C] :=
  .scalar .nullWord

/-- Four members in the order of the fields, the last of them null. -/
def foremost : List Entry :=
  [spaced Field.eventId.name (literal_quoteText "e2").formed,
    spaced Field.eventType.name (literal_quoteText "POLICY_VIOLATION").formed,
    spaced Field.eventCategory.name (literal_quoteText "policy").formed, spaced Field.agentId.name formed_null]

/-- The value of a member as an item. -/
def unnamed (m : Entry) : Item :=
  ⟨m.value, default, oneBlank, m.formed⟩

theorem decode_arrayText_foremost :
    (decode (Item.arrayText default default default (foremost.map unnamed))).toOption.isSome = true ∧
      SameOutcome (decode (Item.arrayText default default default (foremost.map unnamed)))
        (decode (Entry.objectText default default default foremost)) ∧
      ∃ cause place, decode (Item.arrayText default default default ((foremost.take 2).map unnamed)) =
        .error (.malformed cause place) := by
  have named : Named Field.all ((foremost.map unnamed).map Item.value) foremost := ⟨rfl, rfl⟩
  have four := decode_arrayText (foremost.map unnamed) default default default
  have two := decode_arrayText ((foremost.take 2).map unnamed) default default default
  exact ⟨by decide +kernel, four.1 (by decide) (by decide) foremost named default default default,
    two.2 (.inl (by decide))⟩

end Envelope

end EventRelay
