import EventRelay.Ascending
import Mathlib.Data.List.Sort

/-!
Entries in ascending order of their keys: a change of one entry keeps the order, is seen under its
own key and under no other.
-/

namespace EventRelay.Ascending

variable {κ ν : Type} [Ord κ]

/-- Each key is below all that come after it. -/
def Sorted (entries : List (κ × ν)) : Prop :=
  entries.Pairwise fun a b => compare a.1 b.1 = .lt

theorem sorted_nil : Sorted ([] : List (κ × ν)) :=
  .nil

variable [Std.LawfulEqOrd κ]

theorem find?_eq_none_iff {k : κ} {entries : List (κ × ν)} :
    find? k entries = none ↔ k ∉ entries.map Prod.fst := by
  induction entries with
  | nil => simp [find?]
  | cons head rest ih =>
    obtain ⟨other, v⟩ := head
    by_cases same : k = other
    · simp [find?, same]
    · simp [find?, same, ih]

theorem find?_mem {k : κ} {v : ν} {entries : List (κ × ν)} (found : find? k entries = some v) :
    (k, v) ∈ entries := by
  induction entries with
  | nil => simp [find?] at found
  | cons head rest ih =>
    obtain ⟨other, w⟩ := head
    by_cases same : k = other
    · subst same
      simp only [find?, Std.compare_eq_iff_eq, if_true, Option.some.injEq] at found
      simp [found]
    · simp only [find?, Std.compare_eq_iff_eq, same, if_false] at found
      exact List.mem_cons_of_mem _ (ih found)

theorem alter_key_mem {key k : κ} {change : Option ν → ν} {entries : List (κ × ν)} :
    k ∈ (alter key change entries).map Prod.fst ↔ k = key ∨ k ∈ entries.map Prod.fst := by
  induction entries with
  | nil => simp [alter]
  | cons head rest ih =>
    obtain ⟨other, v⟩ := head
    simp only [alter]
    split
    · simp
    · rename_i same
      simp [Std.compare_eq_iff_eq.mp same]
    · simp only [List.map_cons, List.mem_cons, ih]
      exact or_left_comm

omit [Std.LawfulEqOrd κ] in
/-- Each entry is an old one or holds the change. -/
theorem mem_alter {key : κ} {change : Option ν → ν} {entries : List (κ × ν)} {entry : κ × ν}
    (member : entry ∈ alter key change entries) : entry ∈ entries ∨ ∃ old, entry.2 = change old := by
  induction entries with
  | nil => exact .inr ⟨none, by rw [List.mem_singleton.mp member]⟩
  | cons head rest ih =>
    obtain ⟨k, v⟩ := head
    simp only [alter] at member
    split at member
    · rcases List.mem_cons.mp member with rfl | old
      · exact .inr ⟨none, rfl⟩
      · exact .inl old
    · rcases List.mem_cons.mp member with rfl | old
      · exact .inr ⟨some v, rfl⟩
      · exact .inl (List.mem_cons_of_mem _ old)
    · rcases List.mem_cons.mp member with rfl | later
      · exact .inl List.mem_cons_self
      · exact (ih later).imp_left (List.mem_cons_of_mem _)

theorem Sorted.alter [Std.TransOrd κ] {key : κ} {change : Option ν → ν} {entries : List (κ × ν)}
    (sorted : Sorted entries) : Sorted (alter key change entries) := by
  induction entries with
  | nil => exact List.pairwise_singleton ..
  | cons head rest ih =>
    obtain ⟨other, v⟩ := head
    obtain ⟨below, tail⟩ := List.pairwise_cons.mp sorted
    simp only [Ascending.alter]
    split
    · rename_i less
      refine List.pairwise_cons.mpr ⟨?_, sorted⟩
      intro entry member
      rcases List.mem_cons.mp member with same | later
      · exact same ▸ less
      · exact Std.TransCmp.lt_trans less (below entry later)
    · exact List.pairwise_cons.mpr ⟨below, tail⟩
    · rename_i greater
      refine List.pairwise_cons.mpr ⟨?_, ih tail⟩
      intro entry member
      rcases alter_key_mem.mp (List.mem_map_of_mem member) with same | old
      · exact same ▸ Std.OrientedCmp.gt_iff_lt.mp greater
      · obtain ⟨former, inRest, same⟩ := List.mem_map.mp old
        exact same ▸ below former inRest

theorem Sorted.find?_eq_some_iff {k : κ} {v : ν} {entries : List (κ × ν)} (sorted : Sorted entries) :
    find? k entries = some v ↔ (k, v) ∈ entries := by
  refine ⟨find?_mem, fun member => ?_⟩
  induction entries with
  | nil => simp at member
  | cons head rest ih =>
    obtain ⟨other, w⟩ := head
    obtain ⟨below, tail⟩ := List.pairwise_cons.mp sorted
    rcases List.mem_cons.mp member with same | later
    · cases same
      simp [find?]
    · have different : k ≠ other := by
        rintro rfl
        simpa using below _ later
      simp only [find?, Std.compare_eq_iff_eq, different, if_false]
      exact ih tail later

theorem Sorted.find?_alter_self [Std.TransOrd κ] {key : κ} {change : Option ν → ν} {entries : List (κ × ν)}
    (sorted : Sorted entries) :
    find? key (Ascending.alter key change entries) = some (change (find? key entries)) := by
  induction entries with
  | nil => simp [Ascending.alter, find?]
  | cons head rest ih =>
    obtain ⟨other, v⟩ := head
    obtain ⟨below, tail⟩ := List.pairwise_cons.mp sorted
    simp only [Ascending.alter]
    split
    · rename_i less
      have absent : find? key ((other, v) :: rest) = none := by
        rw [find?_eq_none_iff]
        intro member
        obtain ⟨entry, inEntries, same⟩ := List.mem_map.mp member
        rcases List.mem_cons.mp inEntries with head | later
        · simp [← same, head] at less
        · have between := Std.TransCmp.lt_trans less (below entry later)
          simp [same] at between
      rw [absent]
      simp [find?]
    · rename_i equal
      simp [Std.compare_eq_iff_eq.mp equal, find?]
    · rename_i greater
      have different : key ≠ other := by
        rintro rfl
        simp at greater
      simp [find?, different, ih tail]

/-- Entries under other keys stay what they were. -/
theorem find?_alter_of_ne {key k : κ} {change : Option ν → ν} {entries : List (κ × ν)} (different : k ≠ key) :
    find? k (alter key change entries) = find? k entries := by
  induction entries with
  | nil => simp [alter, find?, different]
  | cons head rest ih =>
    obtain ⟨other, v⟩ := head
    simp only [alter]
    split
    · simp [find?, different]
    · rename_i equal
      simp [find?, ← Std.compare_eq_iff_eq.mp equal, different]
    · simp [find?, ih]

/-- Entries in order are told apart by what stands under their keys. -/
theorem Sorted.ext [Std.TransOrd κ] {entries others : List (κ × ν)} (sorted : Sorted entries) (sorted' : Sorted others)
    (same : ∀ k, find? k entries = find? k others) : entries = others := by
  have irrefl : Std.Irrefl fun a b : κ × ν => compare a.1 b.1 = .lt := ⟨fun a => by simp⟩
  have antisymm : Std.Antisymm fun a b : κ × ν => compare a.1 b.1 = .lt :=
    ⟨fun a b less greater => absurd less (Std.OrientedCmp.not_lt_of_lt greater)⟩
  refine sorted.eq_of_mem_iff sorted' fun ⟨k, v⟩ => ?_
  rw [← sorted.find?_eq_some_iff, ← sorted'.find?_eq_some_iff, same]

/-! ### Many entries -/

/-- Sets one entry after the other. -/
def insertAll (changes entries : List (κ × ν)) : List (κ × ν) :=
  changes.foldl (fun entries change => insert change.1 change.2 entries) entries

theorem Sorted.insertAll [Std.TransOrd κ] (changes : List (κ × ν)) {entries : List (κ × ν)} (sorted : Sorted entries) :
    Sorted (insertAll changes entries) := by
  induction changes generalizing entries with
  | nil => exact sorted
  | cons change changes ih => exact ih sorted.alter

variable [BEq κ] [LawfulBEq κ]

/-- Of changes to one key the last one counts. -/
theorem Sorted.find?_insertAll [Std.TransOrd κ] (changes : List (κ × ν)) {entries : List (κ × ν)}
    (sorted : Sorted entries) (k : κ) : find? k (Ascending.insertAll changes entries) = (changes.reverse.lookup k).or (find? k entries) := by
  induction changes generalizing entries with
  | nil => rfl
  | cons change changes ih =>
    obtain ⟨key, v⟩ := change
    have first : find? k (insert key v entries) = (List.lookup k [(key, v)]).or (find? k entries) := by
      by_cases same : k = key
      · subst same
        simp [insert, sorted.find?_alter_self]
      · simp [insert, find?_alter_of_ne same, List.lookup_cons, beq_eq_false_iff_ne.mpr same]
    have later : find? k (Ascending.insertAll changes (insert key v entries)) =
        (changes.reverse.lookup k).or (find? k (insert key v entries)) := ih sorted.alter
    rw [List.reverse_cons, List.lookup_append, Option.or_assoc, ← first, ← later]
    rfl

/-- Entries in order have each key once, so it does not matter from which end they are searched. -/
theorem Sorted.find?_eq_lookup_reverse {entries : List (κ × ν)} (sorted : Sorted entries) (k : κ) :
    find? k entries = entries.reverse.lookup k := by
  induction entries with
  | nil => rfl
  | cons head rest ih =>
    obtain ⟨key, v⟩ := head
    obtain ⟨below, tail⟩ := List.pairwise_cons.mp sorted
    rw [List.reverse_cons, List.lookup_append, ← ih tail]
    by_cases same : k = key
    · subst same
      have once : find? k rest = none := by
        rw [find?_eq_none_iff]
        intro again
        obtain ⟨entry, member, rfl⟩ := List.mem_map.mp again
        simpa using below entry member
      simp [once, find?]
    · simp [find?, same, List.lookup_cons, beq_eq_false_iff_ne.mpr same]

end EventRelay.Ascending
