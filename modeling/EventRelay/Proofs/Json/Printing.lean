import EventRelay.Proofs.Json.Depth
import EventRelay.Proofs.Json.Forms
import EventRelay.Proofs.Text.Order

/-!
Values as they are printed. The text of a value is one of its texts: the one without space, in which the members of
each object stand in the order of the bytes of their names.
-/

namespace EventRelay.Json

/-- All numbers are integers that 64 bits hold, and all members are in order. -/
inductive Value.Exact : Value → Prop
  | null : Exact .null
  | bool (b : Bool) : Exact (.bool b)
  | integer {i : Int} : InWord i → Exact (.number (.integer i))
  | string (s : String) : Exact (.string s)
  | array {items : List Value} : (∀ v ∈ items, v.Exact) → Exact (.array items)
  | object {members : List (String × Value)} : Ascending.Sorted members → (∀ m ∈ members, m.2.Exact) →
      Exact (.object members)

/-- Names in the order of their bytes. -/
def InByteOrder (names : List String) : Prop :=
  names.Pairwise fun a b => Utf8.ofString a < Utf8.ofString b

theorem inByteOrder_of_sorted {ms : List (String × Value)} (sorted : Ascending.Sorted ms) :
    InByteOrder (ms.map Prod.fst) :=
  List.pairwise_map.mpr (sorted.imp Utf8.ofString_lt)

theorem collects_self {ms : List (String × Value)} (sorted : Ascending.Sorted ms) : Collects ms ms :=
  ⟨sorted, sorted.find?_eq_lookup_reverse⟩

theorem ofString_text (v : Value) : Utf8.ofString v.text = Utf8.encode v.chars := by
  rw [Utf8.ofString, Value.text, String.toList_ofList]

theorem itemsChars_cons (v : Value) (vs : List Value) :
    itemsChars (v :: vs) = v.chars ++ vs.flatMap fun w => ',' :: w.chars := by
  induction vs generalizing v with
  | nil => rw [itemsChars, List.flatMap_nil, List.append_nil]
  | cons w vs ih =>
    rw [itemsChars, ih w, List.flatMap_cons]
    · rfl
    · exact List.cons_ne_nil w vs

/-- A member as it is printed. -/
def memberChars (m : String × Value) : List Char :=
  quoteText m.1 ++ ':' :: m.2.chars

theorem membersChars_cons (m : String × Value) (ms : List (String × Value)) :
    membersChars (m :: ms) = memberChars m ++ ms.flatMap fun m => ',' :: memberChars m := by
  induction ms generalizing m with
  | nil => rw [membersChars, List.flatMap_nil, List.append_nil, memberChars]
  | cons w ms ih =>
    rw [membersChars, ih w, List.flatMap_cons, ← memberChars]
    · rfl
    · exact List.cons_ne_nil w ms

variable {order : List String → Prop} {depth : Nat}

theorem form_laterItems {vs : List Value} (all : ∀ v ∈ vs, Form order depth (.value v) (Utf8.encode v.chars)) :
    Form order depth (.items false vs) (Utf8.encode (vs.flatMap fun w => ',' :: w.chars) ++ [0x5D]) := by
  induction vs with
  | nil => exact .lastItem default
  | cons v vs ih =>
    obtain ⟨first, rest⟩ := List.forall_mem_cons.mp all
    rw [List.flatMap_cons, Utf8.encode_append, Utf8.encode_cons, List.append_assoc, List.append_assoc]
    exact .item default default first (ih rest)

theorem form_items {vs : List Value} (all : ∀ v ∈ vs, Form order depth (.value v) (Utf8.encode v.chars)) :
    Form order depth (.items true vs) (Utf8.encode (itemsChars vs) ++ [0x5D]) := by
  cases vs with
  | nil => exact .lastItem default
  | cons v vs =>
    obtain ⟨first, rest⟩ := List.forall_mem_cons.mp all
    rw [itemsChars_cons, Utf8.encode_append, List.append_assoc]
    exact .item default default first (form_laterItems rest)

theorem encode_memberChars (first : Bool) (m : String × Value) :
    separator first ++ Utf8.encode (memberChars m) =
      memberText first default default default default (Utf8.encode (quoteText m.1)) (Utf8.encode m.2.chars) := by
  rw [memberChars, Utf8.encode_append, Utf8.encode_cons]
  rfl

/-- A printed member before others. -/
theorem form_member (first : Bool) {m : String × Value} {ms : List (String × Value)} {s : Bytes}
    (value : Form order depth (.value m.2) (Utf8.encode m.2.chars)) (rest : Form order depth (.members false ms) s) :
    Form order depth (.members first (m :: ms)) (separator first ++ Utf8.encode (memberChars m) ++ s) := by
  rw [encode_memberChars]
  exact .member default default default default (literal_quoteText m.1) value rest

theorem form_laterMembers {ms : List (String × Value)}
    (all : ∀ m ∈ ms, Form order depth (.value m.2) (Utf8.encode m.2.chars)) :
    Form order depth (.members false ms) (Utf8.encode (ms.flatMap fun m => ',' :: memberChars m) ++ [0x7D]) := by
  induction ms with
  | nil => exact .lastMember default
  | cons m ms ih =>
    obtain ⟨first, rest⟩ := List.forall_mem_cons.mp all
    rw [List.flatMap_cons, Utf8.encode_append, Utf8.encode_cons, List.append_assoc]
    exact form_member false first (ih rest)

theorem form_members {ms : List (String × Value)}
    (all : ∀ m ∈ ms, Form order depth (.value m.2) (Utf8.encode m.2.chars)) :
    Form order depth (.members true ms) (Utf8.encode (membersChars ms) ++ [0x7D]) := by
  cases ms with
  | nil => exact .lastMember default
  | cons m ms =>
    obtain ⟨first, rest⟩ := List.forall_mem_cons.mp all
    rw [membersChars_cons, Utf8.encode_append, List.append_assoc]
    exact form_member true first (form_laterMembers rest)

/-- The printed text of a value is one of its texts, and it has the names in the order of their bytes. -/
theorem Value.Exact.form {v : Value} (precise : v.Exact) (within : v.levels < depth) :
    Form InByteOrder depth (.value v) (Utf8.encode v.chars) := by
  induction precise generalizing depth with
  | null => exact .nullWord
  | bool b =>
    cases b with
    | true => exact .trueWord
    | false => exact .falseWord
  | @integer i fits => exact .integer fits
  | string s => exact .string (literal_quoteText s)
  | @array items _ ih =>
    rw [levels] at within
    obtain ⟨depth, rfl⟩ := Nat.exists_eq_add_of_le' (show 2 ≤ depth by omega)
    have shallow := itemsLevels_le_iff.mp (show itemsLevels items ≤ depth by omega)
    have inside : Form InByteOrder (depth + 1) (.items true items) _ :=
      form_items fun v member => ih v member (Nat.lt_succ_of_le (shallow v member))
    have text : Utf8.encode (Value.array items).chars = 0x5B :: (Utf8.encode (itemsChars items) ++ [0x5D]) := by
      rw [chars, Utf8.encode_append, Utf8.encode_cons]
      rfl
    rw [text]
    exact .array inside
  | @object members sorted _ ih =>
    rw [levels] at within
    obtain ⟨depth, rfl⟩ := Nat.exists_eq_add_of_le' (show 2 ≤ depth by omega)
    have shallow := membersLevels_le_iff.mp (show membersLevels members ≤ depth by omega)
    have inside : Form InByteOrder (depth + 1) (.members true members) _ :=
      form_members fun m member => ih m member (Nat.lt_succ_of_le (shallow m member))
    have text : Utf8.encode (Value.object members).chars = 0x7B :: (Utf8.encode (membersChars members) ++ [0x7D]) := by
      rw [chars, Utf8.encode_append, Utf8.encode_cons]
      rfl
    rw [text]
    exact .object inside (inByteOrder_of_sorted sorted) (collects_self sorted)

end EventRelay.Json
