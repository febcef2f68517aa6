import EventRelay.Proofs.Ascending
import EventRelay.Proofs.Json.Integers

/-!
The texts of a value. One value has many: its members may stand in any order and more than once, strings may be
escaped in any way, and there may be space between words. All of them are read as this value.
-/

namespace EventRelay.Json

/-- What a text holds: a value, or the items or members from some place on up to the end of an array or an object.
Members are those that are written, in their order. -/
inductive Content
  | value (v : Value)
  | items (first : Bool) (vs : List Value)
  | members (first : Bool) (ws : List (String × Value))

def Content.part : Content → Part
  | .value _ => .value
  | .items first _ => .items first
  | .members first _ => .members first

/-- The members of an object, of those that are written: under each name the last one. -/
def Collects (ws ms : List (String × Value)) : Prop :=
  Ascending.Sorted ms ∧ ∀ name, Ascending.find? name ms = ws.reverse.lookup name

/-- The texts of a value in which all numbers are integers that 64 bits hold. `depth` levels may be opened, the last
of them not, and `order` is what holds of the names in each object. A member that is overridden by a later one may
have any value that can be read. -/
inductive Form (order : List String → Prop) : Nat → Content → Bytes → Prop
  | nullWord {depth : Nat} : Form order depth (.value .null) [0x6E, 0x75, 0x6C, 0x6C]
  | trueWord {depth : Nat} : Form order depth (.value (.bool true)) [0x74, 0x72, 0x75, 0x65]
  | falseWord {depth : Nat} : Form order depth (.value (.bool false)) [0x66, 0x61, 0x6C, 0x73, 0x65]
  | integer {depth : Nat} {i : Int} : InWord i →
      Form order depth (.value (.number (.integer i))) (Utf8.ofString (Digits.signedText i))
  | string {depth : Nat} {s : String} {t : Bytes} : Literal t s → Form order depth (.value (.string s)) t
  | array {depth : Nat} {vs : List Value} {s : Bytes} : Form order (depth + 1) (.items true vs) s →
      Form order (depth + 2) (.value (.array vs)) (0x5B :: s)
  | object {depth : Nat} {ws ms : List (String × Value)} {s : Bytes} : Form order (depth + 1) (.members true ws) s →
      order (ws.map Prod.fst) → Collects ws ms → Form order (depth + 2) (.value (.object ms)) (0x7B :: s)
  | lastItem {depth : Nat} {first : Bool} (before : Gap) : Form order depth (.items first []) (before.val ++ [0x5D])
  | item {depth : Nat} {first : Bool} {v : Value} {vs : List Value} {t s : Bytes} (before lead : Gap) :
      Form order depth (.value v) t → Form order depth (.items false vs) s →
      Form order depth (.items first (v :: vs)) (before.val ++ (separator first ++ (lead.val ++ (t ++ s))))
  | lastMember {depth : Nat} {first : Bool} (before : Gap) :
      Form order depth (.members first []) (before.val ++ [0x7D])
  | member {depth : Nat} {first : Bool} {name : String} {v : Value} {ws : List (String × Value)} {label t s : Bytes}
      (before lead gap pad : Gap) : Literal label name → Form order depth (.value v) t →
      Form order depth (.members false ws) s →
      Form order depth (.members first ((name, v) :: ws)) (memberText first before lead gap pad label t ++ s)
  | overridden {depth : Nat} {first : Bool} {name : String} {w : Value} {ws : List (String × Value)} {label t s : Bytes}
      (before lead gap pad : Gap) : Literal label name → name ∈ ws.map Prod.fst → Formed .value t → Denotes depth t w →
      Form order depth (.members false ws) s →
      Form order depth (.members first ((name, w) :: ws)) (memberText first before lead gap pad label t ++ s)

variable {order : List String → Prop} {depth : Nat} {content : Content} {t : Bytes}

theorem Form.formed (form : Form order depth content t) : Formed content.part t := by
  induction form with
  | nullWord => exact .scalar .nullWord
  | trueWord => exact .scalar .trueWord
  | falseWord => exact .scalar .falseWord
  | integer => exact .scalar (scalar_signedText _)
  | string literal => exact literal.formed
  | array _ ih => exact .array ih
  | object _ _ _ ih => exact .object ih
  | lastItem before => exact .lastItem before
  | item before lead _ _ value items => exact .item before lead value items
  | lastMember before => exact .lastMember before
  | member before lead gap pad literal _ _ value members =>
    obtain ⟨body, _, rfl, spells, _⟩ := literal
    exact .member before lead gap pad spells.stringBody value members
  | overridden before lead gap pad literal _ value _ _ members =>
    obtain ⟨body, _, rfl, spells, _⟩ := literal
    exact .member before lead gap pad spells.stringBody value members

/-- What is read of a text that holds something. -/
def Content.Reads (depth : Nat) : Content → Bytes → Prop
  | .value v, t => Denotes depth t v
  | .items first vs, t => ∀ fuel tail, t.length ≤ fuel → Apart tail →
      readItems fuel depth first (t ++ tail) = .ok (vs, tail)
  | .members first ws, t => ∀ fuel ms tail, t.length ≤ fuel → Apart tail →
      readMembers fuel depth first ms (t ++ tail) = .ok (Ascending.insertAll ws ms, tail)

/-- Members that are written are collected by being set one after the other. -/
theorem Collects.insertAll {ws ms : List (String × Value)} (collects : Collects ws ms) :
    Ascending.insertAll ws [] = ms := by
  obtain ⟨sorted, last⟩ := collects
  refine (Ascending.sorted_nil.insertAll ws).ext sorted fun name => ?_
  rw [Ascending.sorted_nil.find?_insertAll, last]
  exact Option.or_none

/-- A member is set, whether a later one overrides it or not, and the others are read after it. -/
theorem reads_member {first : Bool} {name : String} {v : Value} {ws : List (String × Value)} {label s : Bytes}
    (before lead gap pad : Gap) (literal : Literal label name) (value : Denotes depth t v)
    (later : Formed (.members false) s) (members : (Content.members false ws).Reads depth s) :
    (Content.members first ((name, v) :: ws)).Reads depth (memberText first before lead gap pad label t ++ s) := by
  intro fuel ms tail enough apart
  obtain ⟨body, rfl, found⟩ := literal.read
  have long : t.length + s.length + 2 ≤ fuel := by
    simp only [memberText, quoted, List.length_append, List.length_cons] at enough
    omega
  obtain ⟨fuel, rfl⟩ := Nat.exists_eq_add_of_le' (show 2 ≤ fuel by omega)
  rw [readMembers_member before lead gap pad found, value _ _ (by omega) (later.members_apart tail), ok_bind]
  exact members (fuel + 1) _ tail (by omega) apart

/-- A text is read as the value that it is a text of, whatever comes after it. -/
theorem Form.reads (form : Form order depth content t) : content.Reads depth t := by
  -- each call reads a byte at least, so there are as many calls as bytes at most
  induction form with
  | nullWord => exact denotes_null _
  | trueWord =>
    refine Scalar.denotes .trueWord (fun tail _ => ?_) _
    rw [readScalar, if_neg (by decide), if_pos rfl, readName_append, ok_bind]
  | falseWord =>
    refine Scalar.denotes .falseWord (fun tail _ => ?_) _
    rw [readScalar, if_neg (by decide), if_neg (by decide), if_pos rfl, readName_append, ok_bind]
  | integer fits => exact denotes_integer fits _
  | string literal => exact literal.denotes _
  | array _ ih =>
    intro fuel tail enough apart
    cases fuel with
    | zero => cases enough
    | succ fuel =>
      rw [readValue, List.cons_append, skipSpace_of_not_isSpace (by decide)]
      simp [ih fuel tail (Nat.le_of_succ_le_succ enough) apart]
  | object _ _ collects ih =>
    intro fuel tail enough apart
    cases fuel with
    | zero => cases enough
    | succ fuel =>
      rw [readValue, List.cons_append, skipSpace_of_not_isSpace (by decide)]
      simp [ih fuel [] tail (Nat.le_of_succ_le_succ enough) apart, collects.insertAll]
  | lastItem before =>
    intro fuel tail enough _
    cases fuel with
    | zero => simp at enough
    | succ fuel =>
      rw [readItems, List.append_assoc, List.singleton_append, nextItem_last]
      rfl
  | item before lead value items ihv ihi =>
    intro fuel tail enough apart
    have one := value.formed.length_pos
    have more := items.formed.length_pos
    simp only [List.length_append] at enough
    cases fuel with
    | zero => omega
    | succ fuel =>
      rw [readItems_item before lead value.formed, ihv fuel _ (by omega) (items.formed.items_apart tail), ok_bind]
      simp only [ihi fuel tail (by omega) apart, ok_bind]
  | lastMember before =>
    intro fuel ms tail enough _
    cases fuel with
    | zero => simp at enough
    | succ fuel =>
      rw [readMembers, List.append_assoc, List.singleton_append, nextName_last]
      rfl
  | member before lead gap pad literal _ members ihv ihm =>
    exact reads_member before lead gap pad literal ihv members.formed ihm
  | overridden before lead gap pad literal _ _ value members ihm =>
    exact reads_member before lead gap pad literal value members.formed ihm

end EventRelay.Json
