import EventRelay.Proofs.Ascending
import EventRelay.Proofs.Json.Reading

/-!
The limit on how deep a text may be nested. It only refuses texts: a value that is read inside an object is read
the same as a whole text, where one level more may be opened. And it refuses all texts that go beyond it.
-/

namespace EventRelay.Json

/-- What stands inside a level that was opened. -/
theorem opened_inv {α : Type} {depth : Nat} {s : Bytes} {x : Except Fault α} {p : α}
    (read : (if depth ≤ 1 then faultAtNext .tooDeep s else x) = .ok p) : 1 < depth ∧ x = .ok p := by
  by_cases shallow : depth ≤ 1
  · rw [if_pos shallow] at read
    cases read
  · rw [if_neg shallow] at read
    exact ⟨Nat.lt_of_not_le shallow, read⟩

/-- What stands inside a level that may be opened is read with one level less. -/
theorem opened_deeper {α : Type} {depth : Nat} {s : Bytes} {x y : Except Fault α} {p : α}
    (read : (if depth ≤ 1 then faultAtNext .tooDeep s else x) = .ok p)
    (more : depth + 1 - 1 = depth - 1 + 1 → x = .ok p → y = .ok p) :
    (if depth + 1 ≤ 1 then faultAtNext .tooDeep s else y) = .ok p := by
  obtain ⟨deep, read⟩ := opened_inv read
  rw [if_neg (by omega)]
  exact more (by omega) read

/-- One level more takes nothing away. The three readers call each other, so they are taken together, by induction
on the number of calls. -/
theorem read_deeper (fuel : Nat) :
    (∀ depth s p, readValue fuel depth s = .ok p → readValue fuel (depth + 1) s = .ok p) ∧
    (∀ depth first s p, readItems fuel depth first s = .ok p → readItems fuel (depth + 1) first s = .ok p) ∧
    ∀ depth first members s p, readMembers fuel depth first members s = .ok p →
      readMembers fuel (depth + 1) first members s = .ok p := by
  induction fuel with
  | zero => exact ⟨nofun, nofun, nofun⟩
  | succ fuel ih =>
    obtain ⟨value, items, members⟩ := ih
    refine ⟨fun depth s p read => ?_, fun depth first s p read => ?_, fun depth first before s p read => ?_⟩
    · rw [readValue] at read ⊢
      cases opened : skipSpace s with
      | nil =>
        rw [opened] at read
        cases read
      | cons b rest =>
        simp only [opened] at read ⊢
        by_cases bracket : b = 0x5B
        · rw [if_pos bracket] at read ⊢
          refine opened_deeper read fun inner read => ?_
          obtain ⟨_, more, read⟩ := bind_eq_ok.mp read
          rw [inner]
          exact bind_eq_ok.mpr ⟨_, items _ _ _ _ more, read⟩
        by_cases brace : b = 0x7B
        · rw [if_neg bracket, if_pos brace] at read ⊢
          refine opened_deeper read fun inner read => ?_
          obtain ⟨_, more, read⟩ := bind_eq_ok.mp read
          rw [inner]
          exact bind_eq_ok.mpr ⟨_, members _ _ _ _ _ more, read⟩
        · rw [if_neg bracket, if_neg brace] at read ⊢
          exact read
    · obtain ⟨⟨next, rest⟩, begun, read⟩ := bind_eq_ok.mp read
      refine bind_eq_ok.mpr ⟨_, begun, ?_⟩
      cases next with
      | none => exact read
      | some _ =>
        obtain ⟨_, first, read⟩ := bind_eq_ok.mp read
        obtain ⟨_, others, read⟩ := bind_eq_ok.mp read
        exact bind_eq_ok.mpr ⟨_, value _ _ _ first, bind_eq_ok.mpr ⟨_, items _ _ _ _ others, read⟩⟩
    · obtain ⟨⟨next, rest⟩, begun, read⟩ := bind_eq_ok.mp read
      refine bind_eq_ok.mpr ⟨_, begun, ?_⟩
      cases next with
      | none => exact read
      | some _ =>
        obtain ⟨_, colon, read⟩ := bind_eq_ok.mp read
        obtain ⟨_, first, others⟩ := bind_eq_ok.mp read
        exact bind_eq_ok.mpr ⟨_, colon, bind_eq_ok.mpr ⟨_, value _ _ _ first, members _ _ _ _ _ others⟩⟩

theorem Denotes.deeper {depth : Nat} {t : Bytes} {v : Value} (denotes : Denotes depth t v) : Denotes (depth + 1) t v :=
  fun fuel tail enough apart => (read_deeper fuel).1 _ _ _ (denotes fuel tail enough apart)

/-- A text with nothing but space around it is a whole one. -/
theorem Denotes.ofBytes {t : Bytes} {v : Value} (denotes : Denotes depthLimit t v) (before after : Gap) :
    Value.ofBytes (before.val ++ (t ++ after.val)) = .ok v := by
  have apart := apart_gap after apart_nil
  rw [List.append_nil] at apart
  have enough : t.length ≤ 2 * (before.val ++ (t ++ after.val)).length + 1 + 1 := by
    simp only [List.length_append]
    omega
  rw [Value.ofBytes, fuelFor, readValue_gap, denotes _ _ enough apart, ok_bind]
  simp only [expectEnd_gap, ok_bind]

/-! ### Levels -/

mutual

/-- How many arrays and objects stand one inside the other. -/
def Value.levels : Value → Nat
  | .array items => itemsLevels items + 1
  | .object members => membersLevels members + 1
  | _ => 0

def itemsLevels : List Value → Nat
  | [] => 0
  | v :: vs => max v.levels (itemsLevels vs)

def membersLevels : List (String × Value) → Nat
  | [] => 0
  | (_, v) :: ms => max v.levels (membersLevels ms)

end

theorem membersLevels_le_iff {ms : List (String × Value)} {n : Nat} :
    membersLevels ms ≤ n ↔ ∀ m ∈ ms, m.2.levels ≤ n := by
  induction ms with
  | nil => simp [membersLevels]
  | cons m ms ih => rw [membersLevels, Nat.max_le, ih, List.forall_mem_cons]

theorem itemsLevels_le_iff {vs : List Value} {n : Nat} :
    itemsLevels vs ≤ n ↔ ∀ v ∈ vs, v.levels ≤ n := by
  induction vs with
  | nil => simp [itemsLevels]
  | cons v vs ih => rw [itemsLevels, Nat.max_le, ih, List.forall_mem_cons]

theorem levels_readScalar {b : UInt8} {s rest : Bytes} {v : Value} (read : readScalar b s = .ok (v, rest)) :
    v.levels = 0 := by
  unfold readScalar at read
  repeat' split at read
  all_goals
    first
    | cases read
    | obtain ⟨_, _, same⟩ := bind_eq_ok.mp read
      cases same
      rfl

/-- Whatever is read has no more levels than may be opened. The readers are taken together as before. -/
theorem levels_read (fuel : Nat) :
    (∀ depth s v rest, readValue fuel depth s = .ok (v, rest) → v.levels ≤ depth - 1) ∧
    (∀ depth first s vs rest, readItems fuel depth first s = .ok (vs, rest) → ∀ v ∈ vs, v.levels ≤ depth - 1) ∧
    ∀ depth first ms s out rest, readMembers fuel depth first ms s = .ok (out, rest) →
      (∀ m ∈ ms, m.2.levels ≤ depth - 1) → ∀ m ∈ out, m.2.levels ≤ depth - 1 := by
  induction fuel with
  | zero => exact ⟨nofun, nofun, nofun⟩
  | succ fuel ih =>
    obtain ⟨value, items, members⟩ := ih
    refine ⟨fun depth s v rest read => ?_, fun depth first s vs rest read => ?_,
      fun depth first ms s out rest read before => ?_⟩
    · rw [readValue] at read
      split at read
      · cases read
      split at read
      · obtain ⟨deep, read⟩ := opened_inv read
        obtain ⟨⟨vs, _⟩, inside, same⟩ := bind_eq_ok.mp read
        cases same
        have most := itemsLevels_le_iff.mpr (items _ _ _ _ _ inside)
        rw [Value.levels]
        omega
      split at read
      · obtain ⟨deep, read⟩ := opened_inv read
        obtain ⟨⟨ms, _⟩, inside, same⟩ := bind_eq_ok.mp read
        cases same
        have most := membersLevels_le_iff.mpr (members _ _ _ _ _ _ inside (by simp))
        rw [Value.levels]
        omega
      · rw [levels_readScalar read]
        exact Nat.zero_le _
    · obtain ⟨⟨next, left⟩, _, read⟩ := bind_eq_ok.mp read
      cases next with
      | none =>
        cases read
        simp
      | some _ =>
        obtain ⟨⟨v, left⟩, first, read⟩ := bind_eq_ok.mp read
        obtain ⟨⟨vs, left⟩, others, same⟩ := bind_eq_ok.mp read
        cases same
        exact List.forall_mem_cons.mpr ⟨value _ _ _ _ first, items _ _ _ _ _ others⟩
    · obtain ⟨⟨next, left⟩, _, read⟩ := bind_eq_ok.mp read
      cases next with
      | none =>
        cases read
        exact before
      | some name =>
        obtain ⟨_, _, read⟩ := bind_eq_ok.mp read
        obtain ⟨⟨v, left⟩, first, others⟩ := bind_eq_ok.mp read
        refine members _ _ _ _ _ _ others fun m member => ?_
        rcases Ascending.mem_alter member with old | ⟨_, new⟩
        · exact before m old
        · rw [new]
          exact value _ _ _ _ first

theorem Denotes.levels_lt {depth : Nat} {t : Bytes} {v : Value} (denotes : Denotes depth t v) (some : 0 < depth) :
    v.levels < depth := by
  have most := (levels_read t.length).1 _ _ _ _ (denotes t.length [] (Nat.le_refl _) apart_nil)
  omega

theorem Denotes.mono {depth more : Nat} {t : Bytes} {v : Value} (denotes : Denotes depth t v) (le : depth ≤ more) :
    Denotes more t v := by
  induction le with
  | refl => exact denotes
  | step _ ih => exact ih.deeper

/-- A text is read as one value, however many levels may be opened. -/
theorem Denotes.unique {depth depth' : Nat} {t : Bytes} {v v' : Value} (denotes : Denotes depth t v)
    (denotes' : Denotes depth' t v') : v = v' := by
  have read := denotes.mono (Nat.le_max_left depth depth') t.length [] (Nat.le_refl _) apart_nil
  rw [denotes'.mono (Nat.le_max_right depth depth') t.length [] (Nat.le_refl _) apart_nil] at read
  cases read
  rfl

end EventRelay.Json
