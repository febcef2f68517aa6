import EventRelay.Proofs.Ingest.Commits

/-!
Commits go forward. As long as each partition is read in the order of its offsets, no commit goes to
an offset below one that was committed before: a batch that is dropped later holds back only what was
read later.
-/

namespace EventRelay

variable {σ : Type}

/-- The positions that messages were read at, in the order of reading. -/
def readsOf (calls : List Call) : List Position :=
  (deliveriesOf calls).map Prod.fst

/-- The positions of all commits, in order, of those that failed too. -/
def committedOf (calls : List Call) : List Position :=
  calls.flatMap fun
    | .commit positions _ => positions
    | _ => []

theorem readsOf_append (calls more : List Call) : readsOf (calls ++ more) = readsOf calls ++ readsOf more := by
  simp [readsOf, deliveriesOf]

theorem mem_readsOf {calls : List Call} {q : Position} :
    q ∈ readsOf calls ↔ ∃ wait payload, .poll wait (.message payload q) ∈ calls := by
  simp only [readsOf, List.mem_map, mem_deliveriesOf]
  constructor
  · rintro ⟨⟨_, payload⟩, ⟨wait, polled⟩, rfl⟩
    exact ⟨wait, payload, polled⟩
  · rintro ⟨wait, payload, polled⟩
    exact ⟨(q, payload), ⟨wait, polled⟩, rfl⟩

theorem mem_offsetsOn {k : Partition} {positions : List Position} {o : Int} :
    o ∈ offsetsOn k positions ↔ ∃ p ∈ positions, p.partition = k ∧ p.offset.toInt = o := by
  simp [offsetsOn, and_assoc]

theorem mem_committedOf {calls : List Call} {p : Position} :
    p ∈ committedOf calls ↔ ∃ positions succeeded, .commit positions succeeded ∈ calls ∧ p ∈ positions := by
  simp only [committedOf, List.mem_flatMap]
  constructor
  · rintro ⟨call, made, member⟩
    cases call with
    | commit positions succeeded => exact ⟨positions, succeeded, made, member⟩
    | _ => cases member
  · rintro ⟨positions, succeeded, made, member⟩
    exact ⟨_, made, member⟩

/-- No commit reaches beyond the successor of what was read before it. -/
theorem Lawful.committed_reaches {flushes : Nat} {calls : List Call} (lawful : Lawful flushes calls) {p : Position}
    {o : Int64} (committed : p ∈ committedOf calls) (below : o < p.offset) :
    ∃ r ∈ readsOf calls, r.partition = p.partition ∧ o ≤ r.offset := by
  obtain ⟨positions, succeeded, made, member⟩ := mem_committedOf.mp committed
  obtain ⟨before, after, rfl⟩ := List.append_of_mem made
  obtain ⟨earlier, rows, now, rfl, rfl⟩ := lawful _ _ _ rfl
  obtain ⟨r, inBatch, same, reached⟩ := nextPositions_reaches member below
  obtain ⟨wait, payload, polled⟩ := read_of_mem_reads inBatch
  exact ⟨r, mem_readsOf.mpr ⟨wait, payload, by simp [polled]⟩, same, reached⟩

/-- What was read but not written: for batches that were dropped, and for the one in hand. -/
def Ledger.unwritten (l : Ledger) : List Position :=
  l.drops.flatten ++ l.reads

theorem Ledger.Noted.unwritten {l next : Ledger} {call : Call} (noted : l.Noted call next) {q : Position}
    (member : q ∈ next.unwritten) :
    q ∈ l.unwritten ∨ ∃ wait payload, call = .poll wait (.message payload q) := by
  cases noted with
  | read wait payload position =>
    rw [Ledger.unwritten, ← List.append_assoc] at member
    rcases List.mem_append.mp member with old | new
    · exact .inl old
    · exact .inr ⟨wait, payload, by rw [List.mem_singleton.mp new]⟩
  | write rows => exact .inl (by simpa [Ledger.unwritten, drops, close] using Or.inl member)
  | drop short => exact .inl (by simpa [Ledger.unwritten, drops, close] using member)
  | abandon some => exact .inl (by simpa [Ledger.unwritten, drops, close] using member)
  | _ => exact .inl member

/-- What was not written lies nowhere below an offset that was committed, if each partition is read in the
order of its offsets. -/
theorem Lawful.committed_le {flushes : Nat} {calls : List Call} (lawful : Lawful flushes calls)
    (ascending : ∀ k, (offsetsOn k (readsOf calls)).Pairwise (· < ·)) {p q : Position}
    (committed : p ∈ committedOf calls) (member : q ∈ (ledgerOf flushes calls).unwritten)
    (same : q.partition = p.partition) : p.offset ≤ q.offset := by
  induction calls using List.reverseRecOn with
  | nil => simp [committedOf] at committed
  | append_singleton calls call ih =>
    simp only [readsOf_append, offsetsOn_append, List.pairwise_append] at ascending
    rw [committedOf, List.flatMap_append] at committed
    rcases List.mem_append.mp committed with before | last
    · rcases (ledgerOf_noted flushes calls call).unwritten member with old | ⟨wait, payload, rfl⟩
      · exact ih lawful.front (fun k => (ascending k).1) before old
      · by_contra above
        -- a commit beyond this message had to read one beyond it before
        obtain ⟨r, read, on, beyond⟩ := lawful.front.committed_reaches before (Int64.not_le.mp above)
        have below := (ascending p.partition).2.2 _ (mem_offsetsOn.mpr ⟨r, read, on, rfl⟩) _
          (mem_offsetsOn.mpr ⟨q, by simp [readsOf, deliveriesOf], same, rfl⟩)
        rw [Int64.le_iff_toInt_le] at beyond
        omega
    · cases call with
      | commit positions succeeded =>
        obtain ⟨earlier, rows, now, rfl, rfl⟩ := lawful.last
        have dropped : q ∈ (ledgerOf flushes earlier).drops.flatten := by
          simpa [ledgerOf_append, Ledger.note, Ledger.unwritten, Ledger.close, Ledger.drops] using member
        have due : p ∈ duePositions flushes earlier := by simpa using last
        exact nextPositions_le_drop due dropped same
      | _ => simp at last

/-- A commit goes to no offset below one that was committed before. -/
theorem Lawful.committed_le_next {flushes : Nat} {before after : List Call} {positions : List Position}
    {succeeded : Bool} (lawful : Lawful flushes (before ++ .commit positions succeeded :: after))
    (ascending : ∀ k, (offsetsOn k (readsOf before)).Pairwise (· < ·))
    (below : ∀ q ∈ readsOf before, q.offset < Int64.maxValue) {p next : Position}
    (committed : p ∈ committedOf before) (member : next ∈ positions) (same : next.partition = p.partition) :
    p.offset ≤ next.offset := by
  obtain ⟨earlier, rows, now, rfl, rfl⟩ := lawful _ _ _ rfl
  have reads : readsOf (earlier ++ [.insert rows rows.length, .instant now]) = readsOf earlier := by
    simp [readsOf, deliveriesOf]
  rw [reads] at ascending below
  have earlierCommitted : p ∈ committedOf earlier := by simpa [committedOf] using committed
  have least {q : Position} (unwritten : q ∈ (ledgerOf flushes earlier).unwritten)
      (on : q.partition = p.partition) : p.offset ≤ q.offset :=
    lawful.front.front.committed_le ascending earlierCommitted unwritten on
  obtain ⟨high, greatest, offset⟩ := nextPositions_offset member fun q read => by
    obtain ⟨wait, payload, polled⟩ := read_of_mem_reads read
    exact below q (mem_readsOf.mpr ⟨wait, payload, polled⟩)
  rw [Int64.le_iff_toInt_le]
  rcases List.mem_cons.mp (List.min?_mem offset) with beyond | held
  · obtain ⟨r, read, on, rfl⟩ := mem_offsetsOn.mp (List.max?_mem greatest)
    have reached := least (List.mem_append_right _ read) (on.trans same)
    rw [Int64.le_iff_toInt_le] at reached
    omega
  · obtain ⟨r, dropped, on, there⟩ := mem_offsetsOn.mp held
    have reached := least (List.mem_append_left _ dropped) (on.trans same)
    rw [Int64.le_iff_toInt_le] at reached
    omega

/-- A commit goes to at most one offset of each partition. -/
theorem Lawful.offsetsOn_commit {flushes : Nat} {before after : List Call} {positions : List Position}
    {succeeded : Bool} (lawful : Lawful flushes (before ++ .commit positions succeeded :: after)) (k : Partition) :
    (offsetsOn k positions).Pairwise (· ≤ ·) := by
  obtain ⟨earlier, rows, now, rfl, rfl⟩ := lawful _ _ _ rfl
  have distinct := duePositions_ascending flushes earlier
  rw [List.pairwise_map] at distinct
  refine List.pairwise_map.mpr ((distinct.filter _).imp_of_mem ?_)
  intro p q first second less
  simp only [List.mem_filter, decide_eq_true_eq] at first second
  simp [first.2, second.2] at less

theorem Lawful.committed_ascending {flushes : Nat} {calls : List Call} (lawful : Lawful flushes calls)
    (ascending : ∀ k, (offsetsOn k (readsOf calls)).Pairwise (· < ·))
    (below : ∀ q ∈ readsOf calls, q.offset < Int64.maxValue) (k : Partition) :
    (offsetsOn k (committedOf calls)).Pairwise (· ≤ ·) := by
  induction calls using List.reverseRecOn with
  | nil => exact .nil
  | append_singleton calls call ih =>
    simp only [readsOf_append, offsetsOn_append, List.pairwise_append] at ascending
    simp only [readsOf_append, List.mem_append, or_imp, forall_and] at below
    have older := ih lawful.front (fun k => (ascending k).1) below.1
    cases call with
    | commit positions succeeded =>
      have split : committedOf (calls ++ [.commit positions succeeded]) = committedOf calls ++ positions := by
        simp [committedOf]
      rw [split, offsetsOn_append, List.pairwise_append]
      refine ⟨older, lawful.offsetsOn_commit k, fun o committed o' next => ?_⟩
      obtain ⟨p, before, on, rfl⟩ := mem_offsetsOn.mp committed
      obtain ⟨q, member, same, rfl⟩ := mem_offsetsOn.mp next
      rw [← Int64.le_iff_toInt_le]
      exact lawful.committed_le_next (fun k => (ascending k).1) below.1 before member (same.trans on.symm)
    | _ => simpa [committedOf] using older

section Reach

variable {io : Ports σ} {settings : BatchPolicy} {metrics : Metrics} {world : σ} {c : Consumer (Recorded σ)}

/-- If each partition is read in the order of its offsets, the offsets of its commits never decrease, whatever
becomes of batches and commits in between. -/
theorem ConsumerReach.commits_ascending (reach : ConsumerReach io (.fresh settings metrics world) c)
    (ascending : ∀ k, (offsetsOn k (readsOf c.world.calls)).Pairwise (· < ·))
    (below : ∀ q ∈ readsOf c.world.calls, q.offset < Int64.maxValue) (k : Partition) :
    (offsetsOn k (committedOf c.world.calls)).Pairwise (· ≤ ·) :=
  reach.lawful.committed_ascending ascending below k

/-- Two partitions share batches. The first batch is retained and then written, but its commit fails. The
second is dropped, and holds back the commit of the third on one of the partitions. -/
def unsettled : Script where
  arrivals :=
    [{ delivery := .message threeTexts ⟨⟨"t", 0⟩, 0⟩ }, { delivery := .message threeTexts ⟨⟨"t", 1⟩, 5⟩ },
      { delivery := .message threeTexts ⟨⟨"t", 0⟩, 2⟩ }, { delivery := .message threeTexts ⟨⟨"t", 0⟩, 3⟩ },
      { delivery := .message threeTexts ⟨⟨"t", 0⟩, 7⟩ }, { delivery := .message threeTexts ⟨⟨"t", 1⟩, 6⟩ }]
  inserts := [some 0, none, some 0, some 0]
  commits := [some "refused"]

def settledInPairs : Consumer (Recorded Script) :=
  let io := Script.ports.recorded
  let policy : BatchPolicy := { maxSize := 2, maxFlushes := 2 }
  let fresh := Consumer.fresh policy { started := .epoch } unsettled
  (((((((fresh.step io).step io).step io).step io).step io).step io).step io).step io

theorem commits_ascending_unsettled :
    (∀ k, (offsetsOn k (readsOf settledInPairs.world.calls)).Pairwise (· < ·)) ∧
      committedOf settledInPairs.world.calls =
        [⟨⟨"t", 0⟩, 1⟩, ⟨⟨"t", 1⟩, 6⟩, ⟨⟨"t", 0⟩, 2⟩, ⟨⟨"t", 1⟩, 7⟩] ∧
      ∀ k, (offsetsOn k (committedOf settledInPairs.world.calls)).Pairwise (· ≤ ·) := by
  have reach : ConsumerReach Script.ports
      (.fresh { maxSize := 2, maxFlushes := 2 } { started := .epoch } unsettled) settledInPairs :=
    .step (.step (.step (.step (.step (.step (.step (.step .start)))))))
  have reads : readsOf settledInPairs.world.calls =
      [⟨⟨"t", 0⟩, 0⟩, ⟨⟨"t", 1⟩, 5⟩, ⟨⟨"t", 0⟩, 2⟩, ⟨⟨"t", 0⟩, 3⟩, ⟨⟨"t", 0⟩, 7⟩, ⟨⟨"t", 1⟩, 6⟩] := by
    decide +kernel
  have ascending (k : Partition) : (offsetsOn k (readsOf settledInPairs.world.calls)).Pairwise (· < ·) := by
    rw [reads]
    by_cases first : k = ⟨"t", 0⟩
    · subst first
      decide
    by_cases second : k = ⟨"t", 1⟩
    · subst second
      decide
    · simp [offsetsOn, Ne.symm first, Ne.symm second]
  refine ⟨ascending, by decide +kernel, fun k => reach.commits_ascending ascending ?_ k⟩
  rw [reads]
  decide

end Reach

end EventRelay
