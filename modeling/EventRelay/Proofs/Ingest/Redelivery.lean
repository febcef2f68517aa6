import EventRelay.Proofs.Ingest.Rows

/-!
A group of consumers that live one after the other, each reading on where the last commit that
succeeded has left the group. Nothing else survives a crash: neither batches nor the limits that
dropped batches set. What is stored still tells which messages need not be read again.
-/

namespace EventRelay

/-- What the bus has of each partition, in ascending order of offsets. -/
structure Log where
  messages : List (Position × Bytes)
  ascending : messages.Pairwise fun a b => a.1.partition = b.1.partition → a.1.offset < b.1.offset

namespace Log

/-- The messages of a partition that a group is to read, given the next offset of each partition. -/
def unread (log : Log) (stored : Partition → Int64) (k : Partition) : List (Position × Bytes) :=
  log.messages.filter fun m => m.1.partition = k ∧ stored k ≤ m.1.offset

theorem unread_sorted (log : Log) (stored : Partition → Int64) (k : Partition) :
    (log.unread stored k).Pairwise fun a b => a.1.offset < b.1.offset := by
  have ascending := log.ascending.filter fun m => m.1.partition = k ∧ stored k ≤ m.1.offset
  refine ascending.imp_of_mem ?_
  intro a b first second below
  simp only [List.mem_filter, decide_eq_true_eq] at first second
  exact below (first.2.1.trans second.2.1.symm)

end Log

/-- The offset to be read next from each partition, changed only by a commit that succeeds. -/
def storedAfter (stored : Partition → Int64) (calls : List Call) : Partition → Int64 :=
  calls.foldl (fun stored call => match call with
    | .commit positions true =>
      positions.foldl (fun stored p => Function.update stored p.partition p.offset) stored
    | _ => stored) stored

/-- Each partition is read in the order of its offsets and without gaps, from the stored offset on. -/
def Delivers (log : Log) (stored : Partition → Int64) (calls : List Call) : Prop :=
  ∀ k, (deliveriesOf calls).filter (·.1.partition = k) <+: log.unread stored k

/-- The calls of one consumer, up to its end or to any call that it did not get beyond. -/
def Lifetime (calls : List Call) : Prop :=
  ∃ (σ : Type) (io : Ports σ) (settings : BatchPolicy) (metrics : Metrics) (world : σ) (c : Consumer (Recorded σ)),
    ConsumerReach io (.fresh settings metrics world) c ∧ calls <+: c.world.calls

inductive Lifetimes (log : Log) (first : Partition → Int64) : List (List Call) → Prop
  | none : Lifetimes log first []
  | next {lives calls} : Lifetimes log first lives → Lifetime calls →
      Delivers log (storedAfter first lives.flatten) calls → Lifetimes log first (lives ++ [calls])

theorem Lifetime.lawful {calls : List Call} (life : Lifetime calls) : ∃ flushes, Lawful flushes calls := by
  obtain ⟨σ, io, settings, metrics, world, c, reach, rest, whole⟩ := life
  have lawful := reach.lawful
  rw [← whole] at lawful
  exact ⟨_, lawful.front⟩

theorem Lifetime.cut {calls seen : List Call} (life : Lifetime calls) (early : seen <+: calls) :
    Lifetime seen := by
  obtain ⟨σ, io, settings, metrics, world, c, reach, made⟩ := life
  exact ⟨σ, io, settings, metrics, world, c, reach, early.trans made⟩

theorem Delivers.cut {log : Log} {stored : Partition → Int64} {calls seen : List Call}
    (delivers : Delivers log stored calls) (early : seen <+: calls) : Delivers log stored seen :=
  fun k => ((early.filterMap _).filter _).trans (delivers k)

/-- Whatever the consumers have done before some moment, they are consumers that have lived until then. -/
theorem Lifetimes.cut {log : Log} {first : Partition → Int64} {past future : List (List Call)}
    {calls seen : List Call} (lives : Lifetimes log first (past ++ calls :: future)) (early : seen <+: calls) :
    Lifetimes log first (past ++ [seen]) := by
  generalize split : past ++ calls :: future = all at lives
  induction lives generalizing future with
  | none => simp at split
  | @next lives last previous life delivers ih =>
    rcases List.eq_nil_or_concat future with rfl | ⟨rest, final, rfl⟩
    · obtain ⟨rfl, same⟩ := List.append_inj' split rfl
      cases same
      exact .next previous (life.cut early) (delivers.cut early)
    · rw [List.concat_eq_append, ← List.cons_append, ← List.append_assoc] at split
      exact ih (List.append_inj' split rfl).1

theorem storedAfter_append (stored : Partition → Int64) (calls more : List Call) :
    storedAfter stored (calls ++ more) = storedAfter (storedAfter stored calls) more :=
  List.foldl_append

theorem foldl_update_cases (stored : Partition → Int64) (positions : List Position) (k : Partition) :
    positions.foldl (fun stored p => Function.update stored p.partition p.offset) stored k = stored k ∨
      ∃ p ∈ positions, p.partition = k ∧
        p.offset = positions.foldl (fun stored p => Function.update stored p.partition p.offset) stored k := by
  induction positions using List.reverseRecOn with
  | nil => exact .inl rfl
  | append_singleton positions p ih =>
    rw [List.foldl_append, List.foldl_cons, List.foldl_nil]
    by_cases same : p.partition = k
    · exact .inr ⟨p, by simp, same, by simp [← same]⟩
    · rw [Function.update_of_ne (Ne.symm same)]
      rcases ih with old | ⟨q, member, rest⟩
      · exact .inl old
      · exact .inr ⟨q, List.mem_append_left _ member, rest⟩

theorem storedAfter_cases (stored : Partition → Int64) (calls : List Call) (k : Partition) :
    storedAfter stored calls k = stored k ∨
      ∃ before positions after p, calls = before ++ .commit positions true :: after ∧
        p ∈ positions ∧ p.partition = k ∧ p.offset = storedAfter stored calls k := by
  induction calls using List.reverseRecOn with
  | nil => exact .inl rfl
  | append_singleton calls call ih =>
    have older (same : storedAfter stored (calls ++ [call]) k = storedAfter stored calls k) :
        storedAfter stored (calls ++ [call]) k = stored k ∨
          ∃ before positions after p, calls ++ [call] = before ++ .commit positions true :: after ∧
            p ∈ positions ∧ p.partition = k ∧ p.offset = storedAfter stored (calls ++ [call]) k := by
      rw [same]
      rcases ih with old | ⟨before, positions, after, p, rfl, rest⟩
      · exact .inl old
      · exact .inr ⟨before, positions, after ++ [call], p, by simp, rest⟩
    cases call with
    | commit positions succeeded =>
      cases succeeded with
      | false => exact older (by simp [storedAfter])
      | true =>
        rcases foldl_update_cases (storedAfter stored calls) positions k with same | ⟨p, member, on, offset⟩
        · exact older (by simpa [storedAfter] using same)
        · exact .inr ⟨calls, positions, [], p, rfl, member, on, by simpa [storedAfter] using offset⟩
    | _ => exact older (by simp [storedAfter])

/-- In ascending order, whatever is not beyond the end of a part at the front lies in it. -/
theorem mem_of_prefix {front all : List (Position × Bytes)} {a b : Position × Bytes}
    (sorted : all.Pairwise fun a b => a.1.offset < b.1.offset) (early : front <+: all)
    (member : b ∈ front) (inAll : a ∈ all) (below : a.1.offset ≤ b.1.offset) : a ∈ front := by
  obtain ⟨rest, rfl⟩ := early
  rcases List.mem_append.mp inAll with old | new
  · exact old
  · have above := (List.pairwise_append.mp sorted).2.2 b member a new
    exact absurd above (Int64.not_lt.mpr below)

/-- With a message, all unread ones of its partition that come before it have been read. -/
theorem Delivers.read_below {log : Log} {stored : Partition → Int64} {calls : List Call} {q r : Position}
    {payload text : Bytes} {wait : Span} (delivers : Delivers log stored calls)
    (member : (q, payload) ∈ log.messages) (above : stored q.partition ≤ q.offset)
    (read : .poll wait (.message text r) ∈ calls) (same : r.partition = q.partition)
    (below : q.offset ≤ r.offset) : ∃ wait, .poll wait (.message payload q) ∈ calls := by
  have last : (r, text) ∈ (deliveriesOf calls).filter (·.1.partition = q.partition) :=
    List.mem_filter.mpr ⟨mem_deliveriesOf.mpr ⟨wait, read⟩, by simp [same]⟩
  have unread : (q, payload) ∈ log.unread stored q.partition :=
    List.mem_filter.mpr ⟨member, by simp [above]⟩
  have delivered := mem_of_prefix (log.unread_sorted stored q.partition) (delivers _) last unread below
  exact mem_deliveriesOf.mp (List.mem_filter.mp delivered).1

/-- What one consumer has moved the stored offset over, it has written: a commit reaches no further
than the messages that were read for it, and no message before these was left out. -/
theorem Lawful.stored_written {flushes : Nat} {calls : List Call} {log : Log} {stored : Partition → Int64}
    {q : Position} {payload : Bytes} {e : Envelope} (lawful : Lawful flushes calls)
    (delivers : Delivers log stored calls) (member : (q, payload) ∈ log.messages)
    (above : stored q.partition ≤ q.offset) (below : q.offset < storedAfter stored calls q.partition)
    (decoded : Envelope.decode payload = .ok e) :
    ∃ before wait later, calls = before ++ .poll wait (.message payload q) :: later ∧ WrittenIn e later := by
  rcases storedAfter_cases stored calls q.partition with same | ⟨before, positions, after, p, rfl, due, on, offset⟩
  · rw [same] at below
    exact absurd below (Int64.not_lt.mpr above)
  rw [← offset] at below
  have read : ∃ wait, .poll wait (.message payload q) ∈ before := by
    obtain ⟨earlier, rows, now, rfl, rfl⟩ := lawful _ _ _ rfl
    obtain ⟨r, inBatch, alike, reached⟩ := nextPositions_reaches due below
    obtain ⟨wait, text, polled⟩ := read_of_mem_reads inBatch
    exact (delivers.cut (List.prefix_append _ _)).read_below member above
      (List.mem_append_left _ polled) (alike.trans on) reached
  obtain ⟨wait, polled⟩ := read
  obtain ⟨first, later, rfl⟩ := List.append_of_mem polled
  have written := lawful.committed decoded due on.symm below
  exact ⟨first, wait, later ++ .commit positions true :: after, by simp, written.mono _⟩

theorem Lifetimes.stored_written {log : Log} {first : Partition → Int64} {lives : List (List Call)}
    (lived : Lifetimes log first lives) {q : Position} {payload : Bytes} {e : Envelope}
    (member : (q, payload) ∈ log.messages) (above : first q.partition ≤ q.offset)
    (below : q.offset < storedAfter first lives.flatten q.partition)
    (decoded : Envelope.decode payload = .ok e) :
    ∃ calls ∈ lives, ∃ before wait later,
      calls = before ++ .poll wait (.message payload q) :: later ∧ WrittenIn e later := by
  induction lived with
  | none => exact absurd below (Int64.not_lt.mpr above)
  | @next lives calls previous life delivers ih =>
    obtain ⟨flushes, lawful⟩ := life.lawful
    by_cases old : q.offset < storedAfter first lives.flatten q.partition
    · obtain ⟨earlier, inLives, written⟩ := ih old
      exact ⟨earlier, List.mem_append_left _ inLives, written⟩
    · rw [List.flatten_concat, storedAfter_append] at below
      have unread : storedAfter first lives.flatten q.partition ≤ q.offset := Int64.not_lt.mp old
      exact ⟨calls, by simp, lawful.stored_written delivers member unread below decoded⟩

/-- At every moment in the life of any of the consumers, each message that can be decoded and lies
from the first start on and below the stored offset has been written by one of them. -/
theorem Lifetimes.at_least_once {log : Log} {first : Partition → Int64} {past future : List (List Call)}
    {calls seen : List Call} (lived : Lifetimes log first (past ++ calls :: future)) (early : seen <+: calls)
    {q : Position} {payload : Bytes} {e : Envelope} (member : (q, payload) ∈ log.messages)
    (above : first q.partition ≤ q.offset)
    (below : q.offset < storedAfter first (past.flatten ++ seen) q.partition)
    (decoded : Envelope.decode payload = .ok e) :
    ∃ life ∈ past ++ [seen], ∃ before wait later,
      life = before ++ .poll wait (.message payload q) :: later ∧ WrittenIn e later := by
  refine (lived.cut early).stored_written member above ?_ decoded
  rwa [List.flatten_concat]

def threeMessages : Log where
  messages := [(⟨⟨"t", 0⟩, 0⟩, threeTexts), (⟨⟨"t", 0⟩, 1⟩, []), (⟨⟨"t", 0⟩, 2⟩, threeTexts)]
  ascending := by decide

def turned (messages : List (Position × Bytes)) : Nat → Consumer (Recorded Script)
  | 0 => .fresh { maxSize := 1 } { started := .epoch }
      { arrivals := messages.map fun m => { delivery := .message m.2 m.1 } }
  | turns + 1 => (turned messages turns).step Script.ports.recorded

theorem turned_lifetime (messages : List (Position × Bytes)) (turns : Nat) :
    Lifetime (turned messages turns).world.calls := by
  have reach : ConsumerReach Script.ports (turned messages 0) (turned messages turns) := by
    induction turns with
    | zero => exact .start
    | succ turns ih => exact .step ih
  exact ⟨_, _, _, _, _, _, reach, List.prefix_refl _⟩

/-- The consumer is lost before it commits what it has read and written last. -/
def lost : List Call :=
  (turned threeMessages.messages 3).world.calls.dropLast

def takenUp : List Call :=
  (turned (threeMessages.messages.drop 1) 2).world.calls

theorem Delivers.of_all {log : Log} {stored : Partition → Int64} {calls : List Call}
    (all : deliveriesOf calls = log.messages.filter fun m => stored m.1.partition ≤ m.1.offset) :
    Delivers log stored calls := by
  intro k
  have same : (deliveriesOf calls).filter (·.1.partition = k) = log.unread stored k := by
    rw [all, List.filter_filter, Log.unread]
    refine List.filter_congr fun m _ => ?_
    by_cases on : m.1.partition = k <;> simp [on]
  exact same ▸ List.prefix_refl _

theorem lost_takenUp : Lifetimes threeMessages (fun _ => 0) ([lost] ++ [takenUp]) := by
  have begun : Lifetimes threeMessages (fun _ => 0) ([] ++ [lost]) :=
    .next .none ((turned_lifetime _ 3).cut (List.dropLast_prefix _)) (.of_all (by decide +kernel))
  exact begun.next (turned_lifetime _ 2) (.of_all (by decide +kernel))

/-- The last message is stored as read only once it was written again and committed. -/
theorem at_least_once_takenUp :
    storedAfter (fun _ => 0) lost ⟨"t", 0⟩ = 1 ∧ storedAfter (fun _ => 0) (lost ++ takenUp) ⟨"t", 0⟩ = 3 ∧
      ∃ e, Envelope.decode threeTexts = .ok e ∧ ∃ life ∈ [lost] ++ [takenUp], ∃ before wait later,
        life = before ++ .poll wait (.message threeTexts ⟨⟨"t", 0⟩, 2⟩) :: later ∧ WrittenIn e later := by
  have readable : (Envelope.decode threeTexts).isOk = true := by decide +kernel
  refine ⟨by decide +kernel, by decide +kernel, ?_⟩
  cases decoded : Envelope.decode threeTexts with
  | error _ => simp [decoded, Except.isOk, Except.toBool] at readable
  | ok e =>
    have below : (2 : Int64) < storedAfter (fun _ => 0) ([lost].flatten ++ takenUp) ⟨"t", 0⟩ := by decide +kernel
    exact ⟨e, rfl, lost_takenUp.at_least_once (List.prefix_refl _) (by decide) (by decide) below decoded⟩

end EventRelay
