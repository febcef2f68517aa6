import EventRelay.Proofs.Ingest.Annotations
import EventRelay.Proofs.Ingest.Dues
import EventRelay.Proofs.Store.Attempts
import Mathlib.Data.List.Forall2

/-!
What is sent for a batch whose store is behind a link. Each flush repeats one request until it is
accepted; the batch is committed if the last of them was, and after that nothing more is sent for it.
-/

namespace EventRelay

variable {σ : Type}

/-- The ports of a consumer whose store is behind a link. It is noted of each insert what is sent. -/
def Ports.posting (reader : BusReader σ) (clocks : Clocks σ) (client : StoreClient) (link : Link σ) :
    Ports (Annotated σ (List (List Exchange))) where
  reader := reader.annotated
  store := { (client.rowStore link).annotated with
    insert := fun rows s =>
      let (written, t) := client.insert link.traced rows ⟨s.world, [], []⟩
      (written, ⟨t.world, s.notes ++ [t.parts]⟩) }
  clocks := clocks.annotated

/-- Each insert is what the client makes of it, with a note. -/
theorem Ports.posting_insert {reader : BusReader σ} {clocks : Clocks σ} {client : StoreClient} {link : Link σ}
    {rows : List Envelope} {s w : Annotated σ (List (List Exchange))} {written : Nat} (some : rows ≠ [])
    (told : (Ports.posting reader clocks client link).store.insert rows s = (written, w)) :
    client.insert link rows s.world = (written, w.world) ∧
      ∃ parts, w.notes = s.notes ++ [parts] ∧ client.Posted rows written parts := by
  obtain ⟨n, w', t, plain, traced, same, posted⟩ := client.insert_traced link some s.world
  simp only [posting, traced] at told
  cases told
  exact ⟨same ▸ plain, t.parts, rfl, posted⟩

def PostedEach (client : StoreClient) (notes : List (List (List Exchange))) (calls : List Call) : Prop :=
  List.Forall₂ (fun parts insertion => client.Posted insertion.1 insertion.2 parts) notes (insertions calls)

section Moves

variable {client : StoreClient} {notes : List (List (List Exchange))} {calls more : List Call}

theorem PostedEach.quiet (posted : PostedEach client notes calls) (none : insertions more = []) :
    PostedEach client notes (calls ++ more) := by
  rw [PostedEach, insertions_append, none, List.append_nil]
  exact posted

theorem PostedEach.insert (posted : PostedEach client notes calls) {rows : List Envelope} {written : Nat}
    {parts : List (List Exchange)} (sent : client.Posted rows written parts) (none : insertions more = []) :
    PostedEach client (notes ++ [parts]) (calls ++ .insert rows written :: more) := by
  have split : insertions (calls ++ .insert rows written :: more) = insertions calls ++ [(rows, written)] := by
    rw [insertions_append]
    exact congrArg (insertions calls ++ (rows, written) :: ·) none
  rw [PostedEach, split]
  exact List.rel_append posted (.cons sent .nil)

theorem Consumer.Move.posted {reader : BusReader σ} {clocks : Clocks σ} {link : Link σ}
    {c d : Consumer (Recorded (Annotated σ (List (List Exchange))))}
    (move : Move (.posting reader clocks client link) c d)
    (posted : PostedEach client c.world.world.notes c.world.calls) :
    PostedEach client d.world.world.notes d.world.calls := by
  cases move with
  | look told => exact Clocks.moment_notes told ▸ posted.quiet rfl
  | stamp told => exact Clocks.instant_notes told ▸ posted.quiet rfl
  | idle _ _ told => exact BusReader.poll_notes told ▸ posted.quiet rfl
  | trouble _ _ told => exact BusReader.poll_notes told ▸ posted.quiet rfl
  | skip _ _ _ told => exact BusReader.poll_notes told ▸ posted.quiet rfl
  | take _ _ _ told timed looked =>
    have notes := (Clocks.moment_notes looked).trans ((Clocks.instant_notes timed).trans (BusReader.poll_notes told))
    exact notes ▸ posted.quiet rfl
  | write some inserted timed committed =>
    obtain ⟨_, parts, noted, sent⟩ := Ports.posting_insert some inserted
    have notes := (BusReader.commit_notes committed).trans (Clocks.instant_notes timed)
    rw [noted] at notes
    exact notes ▸ posted.insert sent rfl
  | retain some _ _ inserted =>
    obtain ⟨_, parts, noted, sent⟩ := Ports.posting_insert some inserted
    exact noted ▸ posted.insert sent rfl
  | drop some _ _ inserted =>
    obtain ⟨_, parts, noted, sent⟩ := Ports.posting_insert some inserted
    exact noted ▸ posted.insert sent rfl
  | wane _ => exact posted
  | stop _ _ => exact posted.quiet rfl
  | abandon _ some _ _ inserted =>
    obtain ⟨_, parts, noted, sent⟩ := Ports.posting_insert some inserted
    exact noted ▸ posted.insert sent rfl

end Moves

/-- The exchanges of each insert of a batch, attempt by attempt. All inserts are refused but the last
one of a batch that was written. -/
inductive Lot.Sent (client : StoreClient) : Lot → List (List (List Exchange)) → Prop
  | unwritten {reads inserts sent} : List.Forall₂ client.Refuses inserts sent →
      Sent client ⟨reads, inserts, false⟩ sent
  | written {reads inserts rows refused last} : List.Forall₂ client.Refuses inserts refused →
      client.Accepts rows last → Sent client ⟨reads, inserts ++ [rows], true⟩ (refused ++ [last])

/-- What was sent is shared out to the batches, and each insert is one of those of its batch. -/
theorem PostedEach.sent {client : StoreClient} {flushes : Nat} {notes : List (List (List Exchange))}
    {calls : List Call} (posted : PostedEach client notes calls) (lawful : Lawful flushes calls) :
    ∃ sent current, notes = sent.flatten ++ current ∧
      List.Forall₂ (Lot.Sent client) (ledgerOf flushes calls).closed sent ∧
      List.Forall₂ client.Refuses (ledgerOf flushes calls).inserts current := by
  induction calls using List.reverseRecOn generalizing notes with
  | nil => exact ⟨[], [], List.forall₂_nil_right_iff.mp posted, .nil, .nil⟩
  | append_singleton calls call ih =>
    have follows := lawful.last
    rw [PostedEach, insertions_append] at posted
    have front := List.forall₂_take_append _ _ _ posted
    have back := List.forall₂_drop_append _ _ _ posted
    obtain ⟨sent, current, before, closed, refused⟩ := ih front lawful.front
    rw [← List.take_append_drop (insertions calls).length notes, before]
    generalize notes.drop (insertions calls).length = after at back
    rw [ledgerOf_append, List.foldl_cons, List.foldl_nil]
    cases call with
    | insert rows written =>
      obtain ⟨parts, _, posted, rest, rfl⟩ := List.forall₂_cons_right_iff.mp back
      obtain rfl := List.forall₂_nil_right_iff.mp rest
      change client.Posted rows written parts at posted
      simp only [Ledger.note]
      cases posted with
      | refused refuses =>
        have more := List.rel_append refused (.cons refuses .nil)
        have short : 0 ≠ rows.length := fun none => follows.2.1 (List.length_eq_zero_iff.mp none.symm)
        rw [if_neg short]
        split
        · refine ⟨sent ++ [current ++ [parts]], [], by simp, ?_, .nil⟩
          exact List.rel_append closed (.cons (.unwritten more) .nil)
        · exact ⟨sent, current ++ [parts], by simp, closed, more⟩
      | accepted accepts =>
        rw [if_pos rfl]
        refine ⟨sent ++ [current ++ [parts]], [], by simp, ?_, .nil⟩
        exact List.rel_append closed (.cons (.written refused accepts) .nil)
    | close =>
      obtain rfl := List.forall₂_nil_right_iff.mp back
      simp only [Ledger.note]
      split
      · exact ⟨sent, current, by simp, closed, refused⟩
      · refine ⟨sent ++ [current], [], by simp, ?_, .nil⟩
        exact List.rel_append closed (.cons (.unwritten refused) .nil)
    | poll wait delivery =>
      obtain rfl := List.forall₂_nil_right_iff.mp back
      cases delivery <;> exact ⟨sent, current, by simp, closed, refused⟩
    | _ =>
      obtain rfl := List.forall₂_nil_right_iff.mp back
      exact ⟨sent, current, by simp, closed, refused⟩

/-- What is sent for a batch by all of its inserts, each with its attempts. -/
structure Lot.Posted (client : StoreClient) (flushes : Nat) (lot : Lot) (sent : List (List (List Exchange))) :
    Prop where
  inserts : sent.length = lot.inserts.length
  flushed : sent.length ≤ max 1 flushes
  requests : ∀ parts ∈ sent, ∀ part ∈ parts, part.map (·.request) = (client.insertRequest? lot.rows).toList
  bodies : ∀ x ∈ sent.flatten.flatten, x.request.method = "POST" ∧ x.request.body = Envelope.linesText lot.rows
  few : sent.flatten.flatten.length ≤ max 1 flushes * client.retry.attempts.toNat
  once : sent.flatten.flatten.Pairwise fun x _ => x.accepted = false
  written : lot.written = true ↔ ∃ x ∈ sent.flatten.flatten, x.accepted = true
  refused : lot.written = false →
    ∀ parts ∈ sent, parts.length = client.retry.attempts.toNat ∧ ∀ x ∈ parts.flatten, x.accepted = false

section Sent

variable {client : StoreClient} {lot : Lot} {sent : List (List (List Exchange))}

theorem refuses_of_forall₂ {inserts : List (List Envelope)} {rows : List Envelope}
    (refused : List.Forall₂ client.Refuses inserts sent) (same : ∀ given ∈ inserts, given = rows) :
    ∀ parts ∈ sent, client.Refuses rows parts := by
  induction refused with
  | nil => simp
  | cons refuses _ ih =>
    obtain ⟨first, rest⟩ := List.forall_mem_cons.mp same
    exact List.forall_mem_cons.mpr ⟨first ▸ refuses, ih rest⟩

theorem unaccepted_of_refuses {rows : List Envelope} (refuses : ∀ parts ∈ sent, client.Refuses rows parts) :
    ∀ x ∈ sent.flatten.flatten, x.accepted = false := by
  intro x member
  obtain ⟨part, inner, here⟩ := List.mem_flatten.mp member
  obtain ⟨parts, outer, within⟩ := List.mem_flatten.mp inner
  exact (Attempts.of_refused (refuses parts outer) rfl).2 x (List.mem_flatten.mpr ⟨part, within, here⟩)

theorem length_flatten_flatten_le {α : Type} {n : Nat} {lists : List (List (List α))}
    (few : ∀ parts ∈ lists, parts.flatten.length ≤ n) : lists.flatten.flatten.length ≤ lists.length * n := by
  induction lists with
  | nil => simp
  | cons first rest ih =>
    obtain ⟨one, others⟩ := List.forall_mem_cons.mp few
    have more := ih others
    rw [List.flatten_cons, List.flatten_append, List.length_append, List.length_cons, Nat.succ_mul]
    omega

theorem Lot.Sent.length_eq (posted : lot.Sent client sent) : sent.length = lot.inserts.length := by
  cases posted with
  | unwritten refused => exact refused.length_eq.symm
  | written refused _ => simp [refused.length_eq]

/-- Each insert of a batch makes attempts with its rows. -/
theorem Lot.Sent.attempts (posted : lot.Sent client sent) (same : ∀ rows ∈ lot.inserts, rows = lot.rows) :
    ∀ parts ∈ sent, ∃ succeeded,
      Attempts (client.insertRequest? lot.rows) (client.retry.attempts.toNat - 1) succeeded parts := by
  cases posted with
  | unwritten refused => exact fun parts member => ⟨false, refuses_of_forall₂ refused same parts member⟩
  | @written _ inserts rows earlier last refused accepts =>
    obtain ⟨before, final⟩ := List.forall_mem_append.mp same
    intro parts member
    rcases List.mem_append.mp member with old | new
    · exact ⟨false, refuses_of_forall₂ refused before parts old⟩
    · refine ⟨true, ?_⟩
      rw [List.mem_singleton.mp new, ← final rows (List.mem_singleton_self rows)]
      exact accepts

/-- Only the very last exchange for a batch can be accepted, and it is if the batch was written. -/
theorem Lot.Sent.outcome (posted : lot.Sent client sent) (same : ∀ rows ∈ lot.inserts, rows = lot.rows) :
    (lot.written = false ∧ ∀ parts ∈ sent, client.Refuses lot.rows parts) ∨
      lot.written = true ∧ ∃ before x, sent.flatten.flatten = before ++ [x] ∧
        (∀ y ∈ before, y.accepted = false) ∧ x.accepted = true := by
  cases posted with
  | unwritten refused => exact .inl ⟨rfl, refuses_of_forall₂ refused same⟩
  | @written _ inserts rows earlier last refused accepts =>
    obtain ⟨before, _⟩ := List.forall_mem_append.mp same
    have refuses := refuses_of_forall₂ refused before
    obtain ⟨failed, x, split, unaccepted, accepted⟩ := Attempts.of_accepted accepts rfl
    refine .inr ⟨rfl, earlier.flatten.flatten ++ failed, x, by simp [split], ?_, accepted⟩
    intro y member
    rcases List.mem_append.mp member with old | new
    · exact unaccepted_of_refuses refuses y old
    · exact unaccepted y new

theorem Lot.Sent.requests (posted : lot.Sent client sent) (same : ∀ rows ∈ lot.inserts, rows = lot.rows) :
    ∀ parts ∈ sent, ∀ part ∈ parts, part.map (·.request) = (client.insertRequest? lot.rows).toList := by
  intro parts member
  obtain ⟨_, made⟩ := posted.attempts same parts member
  exact made.requests

theorem Lot.Sent.bodies (posted : lot.Sent client sent) (same : ∀ rows ∈ lot.inserts, rows = lot.rows) :
    ∀ x ∈ sent.flatten.flatten, x.request.method = "POST" ∧ x.request.body = Envelope.linesText lot.rows := by
  intro x member
  obtain ⟨part, inner, here⟩ := List.mem_flatten.mp member
  obtain ⟨parts, outer, within⟩ := List.mem_flatten.mp inner
  have given : x.request ∈ (client.insertRequest? lot.rows).toList :=
    posted.requests same parts outer part within ▸ List.mem_map_of_mem here
  exact StoreClient.insertRequest?_eq_some (Option.mem_toList.mp given)

theorem Lot.Sent.length_exchanges_le (posted : lot.Sent client sent) (same : ∀ rows ∈ lot.inserts, rows = lot.rows) :
    sent.flatten.flatten.length ≤ sent.length * client.retry.attempts.toNat := by
  refine length_flatten_flatten_le fun parts member => ?_
  obtain ⟨_, made⟩ := posted.attempts same parts member
  have length := made.length_flatten_le
  have some := client.retry.attempts_pos
  omega

theorem Lot.Sent.posted {flushes : Nat} (posted : lot.Sent client sent) (same : ∀ rows ∈ lot.inserts, rows = lot.rows)
    (few : lot.inserts.length ≤ max 1 flushes) : lot.Posted client flushes sent := by
  have flushed : sent.length ≤ max 1 flushes := posted.length_eq ▸ few
  have most := Nat.le_trans (posted.length_exchanges_le same) (Nat.mul_le_mul_right _ flushed)
  rcases posted.outcome same with ⟨dropped, refuses⟩ | ⟨written, before, x, split, unaccepted, accepted⟩
  · have none := unaccepted_of_refuses refuses
    refine ⟨posted.length_eq, flushed, posted.requests same, posted.bodies same, most, ?_, ?_, ?_⟩
    · exact List.pairwise_of_forall_mem_list fun x member _ _ => none x member
    · refine iff_of_false (by simp [dropped]) ?_
      rintro ⟨x, member, accepted⟩
      cases (none x member).symm.trans accepted
    · exact fun _ parts member => ⟨(refuses parts member).length, (Attempts.of_refused (refuses parts member) rfl).2⟩
  · refine ⟨posted.length_eq, flushed, posted.requests same, posted.bodies same, most, ?_, ?_, ?_⟩
    · rw [split, List.pairwise_append]
      refine ⟨?_, List.pairwise_singleton _ _, fun y member _ _ => unaccepted y member⟩
      exact List.pairwise_of_forall_mem_list fun y member _ _ => unaccepted y member
    · exact iff_of_true written ⟨x, by simp [split], accepted⟩
    · intro dropped
      cases written.symm.trans dropped

end Sent

section Run

variable {reader : BusReader σ} {clocks : Clocks σ} {client : StoreClient} {link : Link σ} {settings : BatchPolicy}
  {metrics : Metrics} {world : σ} {apart : List Bytes} {c : Consumer (Recorded (Annotated σ (List (List Exchange))))}

theorem ConsumerRun.posted
    (run : ConsumerRun (.posting reader clocks client link) (.fresh settings metrics ⟨world, []⟩) apart c) :
    PostedEach client c.world.world.notes c.world.calls :=
  run.preserves (P := fun _ c => PostedEach client c.world.world.notes c.world.calls) (fun move => move.posted)
    (fun _ posted => posted) (fun _ posted => posted) (fun _ posted => posted) .nil

/-- At every moment of a run, what was sent for each batch is the same post of its rows over and over,
until it is accepted: then the batch is committed and nothing more is sent for it. No other batch is
committed; of one that is done with, each flush has used up all attempts. -/
theorem ConsumerRun.committed_accepted
    (run : ConsumerRun (.posting reader clocks client link) (.fresh settings metrics ⟨world, []⟩) apart c) :
    (∀ seen later, c.world.calls = seen ++ later → ∃ held sent late,
      Conserved settings.maxFlushes.toNat seen held ∧
      sent.flatten = c.world.world.notes.take (insertions seen).length ∧
      List.Forall₂ (Lot.Posted client settings.maxFlushes.toNat)
        (ledgerOf settings.maxFlushes.toNat seen).batches sent ∧
      commitsOf seen ++ late = Ledger.dues [] (ledgerOf settings.maxFlushes.toNat seen).closed ∧
      late.length = (owedAfter seen).commits) ∧
    c.world.world.notes.length = (insertions c.world.calls).length ∧ owedAfter c.world.calls = .nothing := by
  have tallies := run.reach.tallied
  refine ⟨?_, List.Forall₂.length_eq run.posted, tallies.settled⟩
  intro seen later split
  have lawful := tallies.lawful
  have posted := run.posted
  rw [split] at lawful
  rw [PostedEach, split, insertions_append] at posted
  obtain ⟨held, conserved⟩ := lawful.front.conserved
  obtain ⟨late, commits, due⟩ := lawful.front.commits_due
  obtain ⟨sent, current, shared, closed, refused⟩ :=
    PostedEach.sent (List.forall₂_take_append _ _ _ posted) lawful.front
  refine ⟨held, sent ++ [current], late, conserved, by simp [shared], ?_, commits, due⟩
  have all : List.Forall₂ (Lot.Sent client) (ledgerOf settings.maxFlushes.toNat seen).batches (sent ++ [current]) :=
    List.rel_append closed (.cons (.unwritten refused) .nil)
  refine ((List.forall₂_and_left _ _).mpr ⟨conserved.batch_inserts, all⟩).imp ?_
  intro lot sent ⟨⟨same, few⟩, posted⟩
  exact posted.posted same few

/-- A link beside which something else has a state of its own. -/
def Link.beside {τ : Type} (link : Link τ) : Link (σ × τ) where
  exchange := fun request limit (s, t) => let (outcome, t) := link.exchange request limit t; (outcome, (s, t))
  sleep := fun wait (s, t) => (s, link.sleep wait t)

def twoAttempts : StoreClient where
  url := "http://store"
  database := "d"
  table := "t"
  user := "u"
  password := ""
  pingTimeout := .ofSeconds 1
  requestTimeout := .ofSeconds 1
  retry := ⟨2, .ofSeconds 1⟩

/-- Four requests fail, so the first message is dropped. The second message is accepted when it is
sent again, the third one waits after two more failures. -/
def unsteady : Script × HttpServer :=
  ({ arrivals :=
      [{ delivery := .message threeTexts ⟨⟨"t", 0⟩, 0⟩ }, { delivery := .message threeTexts ⟨⟨"t", 0⟩, 1⟩ },
        { delivery := .message threeTexts ⟨⟨"t", 0⟩, 2⟩ }] },
    { turns := [.reply { status := 500 }, .close, .reply { status := 503 }, .hang, .reply { status := 404 },
        .reply { status := 200 }, .close, .reply { status := 500 }] })

abbrev unsteadyPorts : Ports (Annotated (Script × HttpServer) (List (List Exchange))) :=
  .posting Script.reader.beside Script.clocks.beside twoAttempts Link.served.beside

def steadied : Consumer (Recorded (Annotated (Script × HttpServer) (List (List Exchange)))) :=
  let io := unsteadyPorts.recorded
  ((((Consumer.fresh twice { started := .epoch } ⟨unsteady, []⟩).step io).step io).step io).step io

theorem committed_accepted_unsteady :
    (∃ held sent late, Conserved twice.maxFlushes.toNat steadied.world.calls held ∧
      sent.flatten = steadied.world.world.notes.take (insertions steadied.world.calls).length ∧
      List.Forall₂ (Lot.Posted twoAttempts twice.maxFlushes.toNat)
        (ledgerOf twice.maxFlushes.toNat steadied.world.calls).batches sent ∧
      commitsOf steadied.world.calls ++ late =
        Ledger.dues [] (ledgerOf twice.maxFlushes.toNat steadied.world.calls).closed ∧
      late.length = (owedAfter steadied.world.calls).commits) ∧
    (ledgerOf twice.maxFlushes.toNat steadied.world.calls).batches.map (·.written) = [false, true, false] ∧
    steadied.world.world.notes.map (·.flatten.map Exchange.accepted) =
      [[false, false], [false, false], [false, true], [false, false]] ∧
    commitsOf steadied.world.calls = [[⟨⟨"t", 0⟩, 0⟩]] := by
  have run : ConsumerRun unsteadyPorts (.fresh twice { started := .epoch } ⟨unsteady, []⟩) [] steadied :=
    .step (.step (.step (.step .start)))
  refine ⟨run.committed_accepted.1 _ [] (List.append_nil _).symm, ?_, ?_, ?_⟩
  · decide +kernel
  · decide +kernel
  · decide +kernel

end Run

end EventRelay
