import EventRelay.Proofs.Ingest.Tallies

/-!
What commits stand for. A committed offset leaves no message behind whose row was not written, and
it is the one that the messages read since the last batch, and those of dropped batches, call for.
-/

namespace EventRelay

variable {σ : Type}

/-- The event of a message is among the rows of an insert that wrote all rows it was given, in its
own place: after it come the rows of the messages read in between. -/
def WrittenIn (e : Envelope) (later : List Call) : Prop :=
  ∃ now between rows earlier rest,
    later = .instant now :: between ++ .insert rows rows.length :: rest ∧
      rows = earlier ++ e.normalized now :: rowsOf between

theorem WrittenIn.mono {e : Envelope} {later : List Call} (written : WrittenIn e later) (more : List Call) :
    WrittenIn e (later ++ more) := by
  obtain ⟨now, between, rows, earlier, rest, split, place⟩ := written
  exact ⟨now, between, rows, earlier, rest ++ more, by simp [split], place⟩

theorem Follows.owed_commit {flushes : Nat} {before : List Call} {positions : List Position} {succeeded : Bool}
    (follows : Follows flushes before (.commit positions succeeded)) : owedAfter before = .commit := by
  obtain ⟨earlier, rows, now, rfl, _⟩ := follows
  simp [owedAfter_append, Intake.note]

theorem Follows.settled_or {flushes : Nat} {before : List Call} {call : Call}
    (follows : Follows flushes before call) :
    owedAfter before = .nothing ∨ (∃ now, call = .instant now) ∨
      ∃ positions succeeded, call = .commit positions succeeded := by
  cases call with
  | instant now => exact .inr (.inl ⟨now, rfl⟩)
  | commit positions succeeded => exact .inr (.inr ⟨positions, succeeded, rfl⟩)
  | poll wait delivery => exact .inl follows.1
  | insert rows written => exact .inl follows.1
  | _ => exact .inl follows

/-- A time that is owed is asked for before anything else is done. -/
theorem Follows.instant {flushes : Nat} {before : List Call} {call : Call} (follows : Follows flushes before call)
    (owed : owedAfter before ≠ .nothing) (early : owedAfter before ≠ .commit) : ∃ now, call = .instant now := by
  rcases follows.settled_or with settled | read | ⟨_, _, rfl⟩
  · exact absurd settled owed
  · exact read
  · exact absurd follows.owed_commit early

theorem Follows.commit {flushes : Nat} {before : List Call} {call : Call} (follows : Follows flushes before call)
    (due : owedAfter before = .commit) : ∃ positions succeeded, call = .commit positions succeeded := by
  rcases follows.settled_or with settled | ⟨_, rfl⟩ | committed
  · simp [due] at settled
  · exact absurd due follows
  · exact committed

/-- An insert of all rows has the row of a message after which no batch was done with. -/
theorem Lawful.written_in {flushes : Nat} {first between : List Call} {wait : Span} {payload : Bytes}
    {position : Position} {e : Envelope} {now : Instant} {rows : List Envelope}
    (lawful : Lawful flushes
      ((first ++ .poll wait (.message payload position) :: .instant now :: between) ++ [.insert rows rows.length]))
    (decoded : Envelope.decode payload = .ok e)
    (same :
      (ledgerOf flushes (first ++ .poll wait (.message payload position) :: .instant now :: between)).closedRows =
        (ledgerOf flushes first).closedRows) :
    WrittenIn e (.instant now :: between ++ [.insert rows rows.length]) := by
  obtain ⟨held, made, _⟩ := lawful.front.front.open_rows
  obtain ⟨_, _, whole⟩ := lawful.last
  have place := rowsOf_message decoded first wait position now between
  rw [whole, same, made, List.append_assoc] at place
  exact ⟨now, between, rows, held, [], rfl, List.append_cancel_left place⟩

/-- What has become of a message that could be decoded: its time is still to be asked for, it is in
the batch in hand, its row was written, or it belongs to a batch that was dropped. -/
theorem Lawful.fate {flushes : Nat} {first later : List Call} {wait : Span} {payload : Bytes}
    {position : Position} {e : Envelope} (decoded : Envelope.decode payload = .ok e)
    (lawful : Lawful flushes (first ++ .poll wait (.message payload position) :: later)) :
    let ledger := ledgerOf flushes (first ++ .poll wait (.message payload position) :: later)
    later = [] ∨
      (∃ now between, later = .instant now :: between ∧ ledger.closedRows = (ledgerOf flushes first).closedRows ∧
        position ∈ ledger.reads) ∨
      WrittenIn e later ∨
      ∃ lot ∈ ledger.closed, lot.written = false ∧ position ∈ lot.reads := by
  induction later using List.reverseRecOn with
  | nil => exact .inl rfl
  | append_singleton later call ih =>
    have whole : first ++ .poll wait (.message payload position) :: (later ++ [call]) =
        (first ++ .poll wait (.message payload position) :: later) ++ [call] := by
      simp
    rw [whole] at lawful ⊢
    have follows := lawful.last
    right
    rcases ih lawful.front with rfl | ⟨now, between, rfl, same, read⟩ | written | ⟨lot, closed, dropped, member⟩
    · have awaiting : owedAfter (first ++ [.poll wait (.message payload position)]) = .event e := by
        simp [owedAfter_append, Intake.note, decoded]
      obtain ⟨now, rfl⟩ := follows.instant (by simp [awaiting]) (by simp [awaiting])
      exact .inl ⟨now, [], rfl, by simp [ledgerOf_append, Ledger.note, Ledger.closedRows],
        by simp [ledgerOf_append, Ledger.note]⟩
    · have noted := ledgerOf_noted flushes
        (first ++ .poll wait (.message payload position) :: (.instant now :: between)) call
      generalize ledgerOf flushes (_ ++ [call]) = next at noted
      cases noted with
      | read _ _ other => exact .inl ⟨now, _, rfl, same, List.mem_append_left _ read⟩
      | write rows => exact .inr (.inl (lawful.written_in decoded same))
      | drop short => exact .inr (.inr ⟨_, List.mem_concat_self, rfl, read⟩)
      | retain short => exact .inl ⟨now, _, rfl, same, read⟩
      | abandon some => exact .inr (.inr ⟨_, List.mem_concat_self, rfl, read⟩)
      | other different => exact .inl ⟨now, _, rfl, same, read⟩
    · exact .inr (.inl (written.mono [call]))
    · exact .inr (.inr ⟨lot, (ledgerOf_noted flushes _ call).closed_subset closed, dropped, member⟩)

theorem Lawful.committed {flushes : Nat} {first later after : List Call} {wait : Span} {payload : Bytes}
    {q p : Position} {e : Envelope} {positions : List Position} {succeeded : Bool}
    (lawful : Lawful flushes
      (first ++ .poll wait (.message payload q) :: later ++ .commit positions succeeded :: after))
    (decoded : Envelope.decode payload = .ok e) (member : p ∈ positions)
    (same : q.partition = p.partition) (below : q.offset < p.offset) : WrittenIn e later := by
  obtain ⟨earlier, rows, now, split, rfl⟩ := lawful _ _ _ rfl
  have done : ledgerOf flushes (first ++ .poll wait (.message payload q) :: later) =
      { ledgerOf flushes earlier with
        inserts := (ledgerOf flushes earlier).inserts ++ [rows] }.close true := by
    simp [split, ledgerOf_append, Ledger.note]
  rcases lawful.front.fate decoded with rfl | ⟨_, _, _, _, read⟩ | written | ⟨lot, closed, dropped, read⟩
  · obtain ⟨_, equal⟩ := List.append_inj' (split.trans (List.append_cons ..)) rfl
    simp at equal
  · simp [done, Ledger.close] at read
  · exact written
  · rw [done] at closed
    rcases List.mem_append.mp closed with old | new
    · have drop : q ∈ (ledgerOf flushes earlier).drops.flatten := by
        refine List.mem_flatten.mpr ⟨lot.reads, ?_, read⟩
        exact List.mem_map_of_mem (List.mem_filter.mpr ⟨old, by simp [dropped]⟩)
      have bound := nextPositions_le_drop member drop same
      exact absurd below (Int64.not_lt.mpr bound)
    · simp [List.mem_singleton.mp new] at dropped

theorem read_of_mem_reads {flushes : Nat} {calls : List Call} {q : Position}
    (member : q ∈ (ledgerOf flushes calls).reads) :
    ∃ wait payload, .poll wait (.message payload q) ∈ calls := by
  induction calls using List.reverseRecOn with
  | nil => simp [ledgerOf] at member
  | append_singleton calls call ih =>
    have older (old : q ∈ (ledgerOf flushes calls).reads) :
        ∃ wait payload, .poll wait (.message payload q) ∈ calls ++ [call] := by
      obtain ⟨wait, payload, read⟩ := ih old
      exact ⟨wait, payload, List.mem_append_left _ read⟩
    have noted := ledgerOf_noted flushes calls call
    generalize ledgerOf flushes (calls ++ [call]) = next at member noted
    cases noted with
    | read wait payload position =>
      rcases List.mem_append.mp member with old | new
      · exact older old
      · exact ⟨wait, payload, by simp [List.mem_singleton.mp new]⟩
    | write rows => simp [Ledger.close] at member
    | drop short => simp [Ledger.close] at member
    | abandon some => simp [Ledger.close] at member
    | retain short => exact older member
    | other different => exact older member

theorem duePositions_ascending (flushes : Nat) (calls : List Call) :
    ((duePositions flushes calls).map (·.partition)).Pairwise (compare · · = .lt) := by
  rw [duePositions, nextPositions_partitions, List.pairwise_map]
  exact extentsOf_sorted _

theorem mem_duePositions {flushes : Nat} {calls : List Call} {k : Partition} :
    k ∈ (duePositions flushes calls).map (·.partition) ↔
      ∃ q ∈ (ledgerOf flushes calls).reads, q.partition = k := by
  rw [duePositions, nextPositions_partitions, extentsOf_key_mem]

/-- An insert of all rows is committed before anything else is done. -/
theorem Lawful.written_committed {flushes : Nat} {before after : List Call} {rows : List Envelope}
    (lawful : Lawful flushes (before ++ .insert rows rows.length :: after))
    (settled : owedAfter (before ++ .insert rows rows.length :: after) = .nothing) :
    ∃ now positions succeeded rest, after = .instant now :: .commit positions succeeded :: rest := by
  have inserted : owedAfter (before ++ [.insert rows rows.length]) = .time := by
    simp [owedAfter_append, Intake.note]
  cases after with
  | nil => simp [inserted] at settled
  | cons next after =>
    have first := lawful (before ++ [.insert rows rows.length]) next after (by simp)
    obtain ⟨now, rfl⟩ := first.instant (by simp [inserted]) (by simp [inserted])
    have due : owedAfter (before ++ [.insert rows rows.length, .instant now]) = .commit := by
      simp [owedAfter_append, Intake.note]
    cases after with
    | nil => simp [due] at settled
    | cons next after =>
      have second := lawful (before ++ [.insert rows rows.length, .instant now]) next after (by simp)
      obtain ⟨positions, succeeded, rfl⟩ := second.commit due
      exact ⟨now, positions, succeeded, after, rfl⟩

theorem Consumer.Move.settings {io : Ports σ} {c d : Consumer (Recorded σ)} (move : Move io c d) :
    d.settings = c.settings := by
  cases move <;> rfl

section Reach

variable {io : Ports σ} {settings : BatchPolicy} {metrics : Metrics} {world : σ} {c : Consumer (Recorded σ)}

theorem ConsumerReach.settings_eq (reach : ConsumerReach io (.fresh settings metrics world) c) :
    c.settings = settings :=
  reach.preserves (fun move same => move.settings.trans same) (fun _ same => same) (fun same => same) rfl

theorem ConsumerReach.tallied (reach : ConsumerReach io (.fresh settings metrics world) c) :
    Tallies settings.maxFlushes c.world.calls c.batch c.limits :=
  reach.settings_eq ▸ reach.tallies

theorem ConsumerReach.lawful (reach : ConsumerReach io (.fresh settings metrics world) c) :
    Lawful settings.maxFlushes.toNat c.world.calls :=
  reach.tallied.lawful

/-- Whatever order messages are read in, and whatever becomes of their batches: a message below an
offset that is committed could not be decoded, or its row is among those of an insert that wrote
them all. -/
theorem ConsumerReach.committed_written (reach : ConsumerReach io (.fresh settings metrics world) c)
    {first later after : List Call} {wait : Span} {payload : Bytes} {q p : Position}
    {positions : List Position} {succeeded : Bool}
    (calls : c.world.calls =
      first ++ .poll wait (.message payload q) :: later ++ .commit positions succeeded :: after)
    (member : p ∈ positions) (same : q.partition = p.partition) (below : q.offset < p.offset) :
    (∃ error, Envelope.decode payload = .error error) ∨
      ∃ e, Envelope.decode payload = .ok e ∧ WrittenIn e later := by
  cases decoded : Envelope.decode payload with
  | error error => exact .inl ⟨error, rfl⟩
  | ok e =>
    have lawful := reach.lawful
    rw [calls] at lawful
    exact .inr ⟨e, rfl, lawful.committed decoded member same below⟩

def threeTexts : Bytes :=
  Utf8.ofString "[\"a\", \"T\", \"c\"]"

/-- Each message is a batch, inserted twice at most. -/
def twice : BatchPolicy where
  maxSize := 1
  maxFlushes := 2

/-- Offset 5 is read first and its batch dropped. Offsets 3 and 7 are read after it and written, with
an undecodable message at offset 9 in between. -/
def goingBack : Script where
  arrivals :=
    [{ delivery := .message threeTexts ⟨⟨"t", 0⟩, 5⟩ }, { delivery := .message threeTexts ⟨⟨"t", 0⟩, 3⟩ },
      { delivery := .message [] ⟨⟨"t", 0⟩, 9⟩ }, { delivery := .message threeTexts ⟨⟨"t", 0⟩, 7⟩ }]
  inserts := [some 0]

def wentBack : Consumer (Recorded Script) :=
  let io := Script.ports.recorded
  ((((Consumer.fresh { maxSize := 1 } { started := .epoch } goingBack).step io).step io).step io).step io

theorem wentBack_reach :
    ConsumerReach Script.ports (.fresh { maxSize := 1 } { started := .epoch } goingBack) wentBack :=
  .step (.step (.step (.step .start)))

/-- The last commit goes to offset 5, where the dropped batch holds it, and offset 3 is written. -/
theorem committed_written_goingBack :
    wentBack.world.calls = wentBack.world.calls.take 4 ++
        .poll (.ofSeconds 1) (.message threeTexts ⟨⟨"t", 0⟩, 3⟩) :: (wentBack.world.calls.drop 5).take 12 ++
        .commit [⟨⟨"t", 0⟩, 5⟩] true :: [] ∧
      ((∃ error, Envelope.decode threeTexts = .error error) ∨
        ∃ e, Envelope.decode threeTexts = .ok e ∧ WrittenIn e ((wentBack.world.calls.drop 5).take 12)) := by
  have split : wentBack.world.calls = wentBack.world.calls.take 4 ++
      .poll (.ofSeconds 1) (.message threeTexts ⟨⟨"t", 0⟩, 3⟩) :: (wentBack.world.calls.drop 5).take 12 ++
      .commit [⟨⟨"t", 0⟩, 5⟩] true :: [] := by
    decide +kernel
  exact ⟨split, wentBack_reach.committed_written split (List.mem_singleton_self _) rfl (by decide)⟩

/-- A commit is made right after each insert that wrote all rows, and at no other time. It has one
position for each partition that was read from since the batch was emptied, in ascending order: the
successor of the greatest offset read there, or else the least one read there for any batch that was
dropped so far. What the consumer keeps of its batch and of dropped ones is what those reads tell. -/
theorem ConsumerReach.commits_exact (reach : ConsumerReach io (.fresh settings metrics world) c)
    (below : ∀ wait payload q, .poll wait (.message payload q) ∈ c.world.calls → q.offset < Int64.maxValue) :
    (∀ before rows after, c.world.calls = before ++ .insert rows rows.length :: after →
      ∃ now positions succeeded rest, after = .instant now :: .commit positions succeeded :: rest) ∧
    (∀ before positions succeeded after, c.world.calls = before ++ .commit positions succeeded :: after →
      ∃ earlier rows now, before = earlier ++ [.insert rows rows.length, .instant now] ∧
        (positions.map (·.partition)).Pairwise (compare · · = .lt) ∧
        (∀ k, k ∈ positions.map (·.partition) ↔
          ∃ q ∈ (ledgerOf settings.maxFlushes.toNat earlier).reads, q.partition = k) ∧
        ∀ p ∈ positions, ∃ high,
          (offsetsOn p.partition (ledgerOf settings.maxFlushes.toNat earlier).reads).max? = some high ∧
            ((high + 1) :: offsetsOn p.partition
              (ledgerOf settings.maxFlushes.toNat earlier).drops.flatten).min? = some p.offset.toInt) ∧
    c.batch.extents = extentsOf (ledgerOf settings.maxFlushes.toNat c.world.calls).reads ∧
      c.limits = limitsOf (ledgerOf settings.maxFlushes.toNat c.world.calls).drops := by
  have lawful := reach.lawful
  have tallies := reach.tallied
  refine ⟨?_, ?_, tallies.extents, tallies.limits⟩
  · intro before rows after split
    have settled := tallies.settled
    rw [split] at lawful settled
    exact lawful.written_committed settled
  · intro before positions succeeded after split
    obtain ⟨earlier, rows, now, rfl, rfl⟩ := lawful _ _ _ split
    refine ⟨earlier, rows, now, rfl, duePositions_ascending _ _, fun k => mem_duePositions, ?_⟩
    intro p member
    refine nextPositions_offset member fun q read => ?_
    obtain ⟨wait, payload, polled⟩ := read_of_mem_reads read
    exact below wait payload q (by simp [split, polled])

/-- The insert of offset 7 is committed at the least of 10 and the dropped offset 5. -/
theorem commits_exact_goingBack :
    ∃ earlier rows now, wentBack.world.calls.take 17 = earlier ++ [.insert rows rows.length, .instant now] ∧
      ∃ high, (offsetsOn ⟨"t", 0⟩ (ledgerOf 1 earlier).reads).max? = some high ∧
        ((high + 1) :: offsetsOn ⟨"t", 0⟩ (ledgerOf 1 earlier).drops.flatten).min? = some 5 := by
  have all : ∀ m ∈ deliveriesOf wentBack.world.calls, m.1.offset < Int64.maxValue := by
    decide +kernel
  have commits := wentBack_reach.commits_exact fun wait payload q read =>
    all (q, payload) (mem_deliveriesOf.mpr ⟨wait, read⟩)
  obtain ⟨earlier, rows, now, split, _, _, offsets⟩ :=
    commits.2.1 (wentBack.world.calls.take 17) [⟨⟨"t", 0⟩, 5⟩] true [] (by decide +kernel)
  exact ⟨earlier, rows, now, split, offsets ⟨⟨"t", 0⟩, 5⟩ (List.mem_singleton_self _)⟩

end Reach

end EventRelay
