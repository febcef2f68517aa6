import EventRelay.Ingest.Consumer
import EventRelay.Proofs.Ascending
import Mathlib.Data.List.Induction

/-!
Offsets as the reads of messages give them: the extent that a batch keeps of a partition is the
least and the greatest offset read from it, the limit that is kept for a partition is the least
offset read in any dropped batch, and a commit goes one beyond the former but never beyond the
latter.
-/

namespace EventRelay

open Ascending

theorem Int64.toInt_min (a b : Int64) : (min a b).toInt = min a.toInt b.toInt := by
  change (if a ≤ b then a else b).toInt = _
  split <;> rename_i order <;> rw [Int64.le_iff_toInt_le] at order <;> omega

theorem Int64.toInt_max (a b : Int64) : (max a b).toInt = max a.toInt b.toInt := by
  change (if a ≤ b then b else a).toInt = _
  split <;> rename_i order <;> rw [Int64.le_iff_toInt_le] at order <;> omega

theorem Int64.toInt_succ {a : Int64} (below : a < Int64.maxValue) : (a + 1).toInt = a.toInt + 1 := by
  have upper := Int64.lt_iff_toInt_lt.mp below
  have lower := a.minValue_le_toInt
  rw [Int64.toInt_maxValue] at upper
  rw [Int64.toInt_minValue] at lower
  rw [Int64.toInt_add, Int64.toInt_one, Int.bmod_eq_of_le (by omega) (by omega)]

/-- Nothing lies between an offset and its successor; the successor of the greatest offset is the
least one and has nothing below it. -/
theorem Int64.le_of_lt_succ {a b : Int64} (below : a < b + 1) : a ≤ b := by
  by_cases last : b < Int64.maxValue
  · rw [Int64.lt_iff_toInt_lt, Int64.toInt_succ last] at below
    rw [Int64.le_iff_toInt_le]
    omega
  · have bound := a.toInt_le
    rw [Int64.lt_iff_toInt_lt] at last
    rw [Int64.le_iff_toInt_le]
    omega

instance : Std.TransOrd Partition :=
  inferInstanceAs (Std.TransCmp (compareLex (compareOn Partition.topic) (compareOn Partition.index)))

instance : Std.LawfulEqOrd Partition where
  eq_of_compare {p q} same := by
    obtain ⟨topic, index⟩ := Ordering.then_eq_eq.mp same
    cases p
    cases q
    simp_all

theorem min?_append (xs ys : List Int) : (xs ++ ys).min? = Option.merge min xs.min? ys.min? := by
  induction xs with
  | nil => simp
  | cons x xs ih =>
    rw [List.cons_append, List.min?_cons, ih, List.min?_cons]
    cases xs.min? <;> cases ys.min? <;> simp [Int.min_assoc]

theorem max?_append (xs ys : List Int) : (xs ++ ys).max? = Option.merge max xs.max? ys.max? := by
  induction xs with
  | nil => simp
  | cons x xs ih =>
    rw [List.cons_append, List.max?_cons, ih, List.max?_cons]
    cases xs.max? <;> cases ys.max? <;> simp [Int.max_assoc]

/-- The offsets that were read from a partition, in the order of reading. -/
def offsetsOn (k : Partition) (reads : List Position) : List Int :=
  (reads.filter (·.partition = k)).map (·.offset.toInt)

@[simp] theorem offsetsOn_append (k : Partition) (reads more : List Position) :
    offsetsOn k (reads ++ more) = offsetsOn k reads ++ offsetsOn k more := by
  simp [offsetsOn]

/-- What a batch keeps of the positions that were read for it. -/
def extentsOf (reads : List Position) : List (Partition × Extent) :=
  reads.foldl (fun extents p => alter p.partition (Extent.covering p.offset) extents) []

theorem extentsOf_concat (reads : List Position) (p : Position) :
    extentsOf (reads ++ [p]) = alter p.partition (Extent.covering p.offset) (extentsOf reads) := by
  simp [extentsOf]

/-- What dropped batches hold back, told by what was read for each of them. -/
def limitsOf (drops : List (List Position)) : List (Partition × Int64) :=
  drops.foldl (fun limits reads => Consumer.withhold (extentsOf reads) limits) []

theorem limitsOf_concat (drops : List (List Position)) (reads : List Position) :
    limitsOf (drops ++ [reads]) = Consumer.withhold (extentsOf reads) (limitsOf drops) := by
  simp [limitsOf]

theorem extentsOf_sorted (reads : List Position) : Sorted (extentsOf reads) := by
  induction reads using List.reverseRecOn with
  | nil => exact sorted_nil
  | append_singleton reads p ih => exact extentsOf_concat reads p ▸ ih.alter

theorem extentsOf_key_mem {k : Partition} {reads : List Position} :
    k ∈ (extentsOf reads).map Prod.fst ↔ ∃ p ∈ reads, p.partition = k := by
  induction reads using List.reverseRecOn with
  | nil => simp [extentsOf]
  | append_singleton reads p ih =>
    rw [extentsOf_concat, alter_key_mem, ih]
    simp [or_comm, eq_comm]

/-- The extent that a batch keeps of a partition reaches from the least offset read from it to the
greatest one, in whatever order they were read. -/
theorem find?_extentsOf (k : Partition) (reads : List Position) :
    (find? k (extentsOf reads)).map (·.first.toInt) = (offsetsOn k reads).min? ∧
      (find? k (extentsOf reads)).map (·.last.toInt) = (offsetsOn k reads).max? := by
  induction reads using List.reverseRecOn with
  | nil => exact ⟨rfl, rfl⟩
  | append_singleton reads p ih =>
    rw [extentsOf_concat, offsetsOn_append, min?_append, max?_append, ← ih.1, ← ih.2]
    by_cases same : p.partition = k
    · subst same
      rw [(extentsOf_sorted reads).find?_alter_self]
      cases find? p.partition (extentsOf reads) <;>
        simp [offsetsOn, Extent.covering, Int64.toInt_min, Int64.toInt_max]
    · rw [find?_alter_of_ne (Ne.symm same)]
      simp [offsetsOn, same]

theorem withhold_sorted {extents : List (Partition × Extent)} {limits : List (Partition × Int64)}
    (sorted : Sorted limits) : Sorted (Consumer.withhold extents limits) := by
  induction extents generalizing limits with
  | nil => exact sorted
  | cons head rest ih => exact ih sorted.alter

theorem find?_withhold {k : Partition} {extents : List (Partition × Extent)} {limits : List (Partition × Int64)}
    (ascending : Sorted extents) (sorted : Sorted limits) :
    find? k (Consumer.withhold extents limits) =
      Option.merge min (find? k limits) ((find? k extents).map (·.first)) := by
  induction extents generalizing limits with
  | nil => simp [Consumer.withhold, find?]
  | cons head rest ih =>
    obtain ⟨q, extent⟩ := head
    obtain ⟨below, tail⟩ := List.pairwise_cons.mp ascending
    refine (ih tail sorted.alter).trans ?_
    by_cases same : k = q
    · subst same
      have absent : find? k rest = none := by
        rw [find?_eq_none_iff]
        intro member
        obtain ⟨entry, inRest, equal⟩ := List.mem_map.mp member
        simpa [equal] using below entry inRest
      rw [absent, sorted.find?_alter_self]
      cases find? k limits <;> simp [find?]
    · rw [find?_alter_of_ne same]
      simp [find?, same]

theorem limitsOf_sorted (drops : List (List Position)) : Sorted (limitsOf drops) := by
  induction drops using List.reverseRecOn with
  | nil => exact sorted_nil
  | append_singleton drops reads ih => exact limitsOf_concat drops reads ▸ withhold_sorted ih

/-- The limit of a partition is the least offset that was read from it for any dropped batch. -/
theorem find?_limitsOf (k : Partition) (drops : List (List Position)) :
    (find? k (limitsOf drops)).map Int64.toInt = (offsetsOn k drops.flatten).min? := by
  induction drops using List.reverseRecOn with
  | nil => rfl
  | append_singleton drops reads ih =>
    rw [limitsOf_concat, find?_withhold (extentsOf_sorted reads) (limitsOf_sorted drops),
      List.flatten_concat, offsetsOn_append, min?_append, ← ih, ← (find?_extentsOf k reads).1]
    cases find? k (limitsOf drops) <;> cases find? k (extentsOf reads) <;> simp [Int64.toInt_min]

theorem nextPositions_partitions (extents : List (Partition × Extent)) (limits : List (Partition × Int64)) :
    (Consumer.nextPositions extents limits).map (·.partition) = extents.map Prod.fst := by
  simp [Consumer.nextPositions]

/-- A commit goes to the successor of the greatest offset that was read, or to the limit of the
partition if that is less. -/
theorem nextPositions_origin {reads : List Position} {limits : List (Partition × Int64)} {p : Position}
    (member : p ∈ Consumer.nextPositions (extentsOf reads) limits) :
    ∃ extent, find? p.partition (extentsOf reads) = some extent ∧
      p.offset = (find? p.partition limits).elim (extent.last + 1) (min · (extent.last + 1)) := by
  obtain ⟨⟨partition, extent⟩, kept, rfl⟩ := List.mem_map.mp member
  refine ⟨extent, (extentsOf_sorted reads).find?_eq_some_iff.mpr kept, ?_⟩
  dsimp only
  cases find? partition limits with
  | none => rfl
  | some limit =>
    change (if limit < extent.last + 1 then limit else extent.last + 1) = min limit (extent.last + 1)
    rw [← Int64.toInt_inj, Int64.toInt_min]
    split <;> rename_i order <;> rw [Int64.lt_iff_toInt_lt] at order <;> omega

theorem nextPositions_le_drop {reads : List Position} {drops : List (List Position)} {p q : Position}
    (member : p ∈ Consumer.nextPositions (extentsOf reads) (limitsOf drops))
    (dropped : q ∈ drops.flatten) (same : q.partition = p.partition) : p.offset ≤ q.offset := by
  obtain ⟨extent, _, offset⟩ := nextPositions_origin member
  have read : q.offset.toInt ∈ offsetsOn p.partition drops.flatten := by
    simp only [offsetsOn, List.mem_map, List.mem_filter]
    exact ⟨q, ⟨dropped, by simp [same]⟩, rfl⟩
  have least := find?_limitsOf p.partition drops
  cases found : find? p.partition (limitsOf drops) with
  | none =>
    rw [found, Option.map_none, eq_comm, List.min?_eq_none_iff] at least
    simp [least] at read
  | some limit =>
    rw [found, Option.map_some, eq_comm, List.min?_eq_some_iff] at least
    rw [found, Option.elim_some] at offset
    have bound := least.2 _ read
    rw [offset, Int64.le_iff_toInt_le, Int64.toInt_min]
    omega

/-- Whatever lies below a committed offset is at most the greatest offset that was read. -/
theorem nextPositions_reaches {reads : List Position} {limits : List (Partition × Int64)} {p : Position}
    {o : Int64}
    (member : p ∈ Consumer.nextPositions (extentsOf reads) limits) (below : o < p.offset) :
    ∃ q ∈ reads, q.partition = p.partition ∧ o ≤ q.offset := by
  obtain ⟨extent, found, offset⟩ := nextPositions_origin member
  have greatest := (find?_extentsOf p.partition reads).2
  rw [found, Option.map_some, eq_comm, List.max?_eq_some_iff] at greatest
  simp only [offsetsOn, List.mem_map, List.mem_filter, decide_eq_true_eq] at greatest
  obtain ⟨⟨q, ⟨read, same⟩, last⟩, _⟩ := greatest
  have next : o < extent.last + 1 := by
    cases held : find? p.partition limits with
    | none => rwa [offset, held] at below
    | some limit =>
      rw [offset, held, Option.elim_some, Int64.lt_iff_toInt_lt, Int64.toInt_min] at below
      rw [Int64.lt_iff_toInt_lt]
      omega
  exact ⟨q, read, same, Int64.toInt_inj.mp last ▸ Int64.le_of_lt_succ next⟩

theorem nextPositions_offset {reads : List Position} {drops : List (List Position)} {p : Position}
    (member : p ∈ Consumer.nextPositions (extentsOf reads) (limitsOf drops))
    (below : ∀ q ∈ reads, q.offset < Int64.maxValue) :
    ∃ high, (offsetsOn p.partition reads).max? = some high ∧
      ((high + 1) :: offsetsOn p.partition drops.flatten).min? = some p.offset.toInt := by
  obtain ⟨extent, found, offset⟩ := nextPositions_origin member
  have greatest := (find?_extentsOf p.partition reads).2
  rw [found, Option.map_some] at greatest
  refine ⟨extent.last.toInt, greatest.symm, ?_⟩
  have succ : (extent.last + 1).toInt = extent.last.toInt + 1 := by
    rw [eq_comm, List.max?_eq_some_iff] at greatest
    simp only [offsetsOn, List.mem_map, List.mem_filter, decide_eq_true_eq] at greatest
    obtain ⟨⟨q, ⟨read, _⟩, last⟩, _⟩ := greatest
    exact Int64.toInt_succ (Int64.toInt_inj.mp last ▸ below q read)
  rw [List.min?_cons, ← find?_limitsOf, offset]
  cases find? p.partition (limitsOf drops) with
  | none => simp [succ]
  | some limit => simp [Int64.toInt_min, succ, Int.min_comm]

end EventRelay
