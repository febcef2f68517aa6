import EventRelay.Ingest.Script
import EventRelay.Proofs.Ingest.Offsets

/-!
What the calls of a consumer tell without a look at its state: the rows that were made of the
messages, the batches that it is done with and the one in hand, and which call may follow others.
`Lawful` calls keep all of what a batch is about; what they imply of rows and batches is derived
here from the calls alone.
-/

namespace EventRelay

/-- What has to come next after some calls. -/
inductive Owed
  | nothing
  /-- The time at which a decoded event is normalized. -/
  | event (e : Envelope)
  /-- The time at which a batch was written. -/
  | time
  | commit

/-- The rows made of messages: each event is normalized at the time asked for right after it. -/
structure Intake where
  rows : List Envelope := []
  owed : Owed := .nothing

namespace Intake

def note (i : Intake) : Call → Intake
  | .poll _ (.message payload _) =>
    match Envelope.decode payload with
    | .ok e => ⟨i.rows, .event e⟩
    | .error _ => ⟨i.rows, .nothing⟩
  | .insert rows written => ⟨i.rows, if written = rows.length then .time else .nothing⟩
  | .instant now =>
    match i.owed with
    | .event e => ⟨i.rows ++ [e.normalized now], .nothing⟩
    | .time => ⟨i.rows, .commit⟩
    | _ => ⟨i.rows, .nothing⟩
  | _ => ⟨i.rows, .nothing⟩

end Intake

def rowsOf (calls : List Call) : List Envelope :=
  (calls.foldl Intake.note {}).rows

def owedAfter (calls : List Call) : Owed :=
  (calls.foldl Intake.note {}).owed

def deliveriesOf (calls : List Call) : List (Position × Bytes) :=
  calls.filterMap fun
    | .poll _ (.message payload position) => some (position, payload)
    | _ => none

theorem mem_deliveriesOf {calls : List Call} {m : Position × Bytes} :
    m ∈ deliveriesOf calls ↔ ∃ wait, .poll wait (.message m.2 m.1) ∈ calls := by
  simp only [deliveriesOf, List.mem_filterMap]
  constructor
  · rintro ⟨call, member, found⟩
    split at found
    · cases found
      exact ⟨_, member⟩
    · cases found
  · rintro ⟨wait, member⟩
    exact ⟨_, member, rfl⟩

/-- One batch as the calls show it: what was read for it, undecodable messages included, the rows of
each insert of it, and whether the last of these wrote them all. -/
structure Lot where
  reads : List Position
  inserts : List (List Envelope)
  written : Bool

/-- The batches that a consumer is done with, in that order, and what there is of the one in hand. -/
structure Ledger where
  closed : List Lot := []
  reads : List Position := []
  inserts : List (List Envelope) := []

namespace Lot

def rows (l : Lot) : List Envelope :=
  l.inserts.getLast?.getD []

end Lot

namespace Ledger

def close (l : Ledger) (written : Bool) : Ledger where
  closed := l.closed ++ [⟨l.reads, l.inserts, written⟩]

/-- A batch is done with once all its rows are written, once it was inserted as often as its flushes
allow, or when the source is closed after an insert of it that failed. -/
def note (flushes : Nat) (l : Ledger) : Call → Ledger
  | .poll _ (.message _ position) => { l with reads := l.reads ++ [position] }
  | .insert rows written =>
    let l := { l with inserts := l.inserts ++ [rows] }
    if written = rows.length then l.close true
    else if flushes ≤ l.inserts.length then l.close false
    else l
  | .close => if l.inserts = [] then l else l.close false
  | _ => l

def closedRows (l : Ledger) : List Envelope :=
  l.closed.flatMap Lot.rows

def drops (l : Ledger) : List (List Position) :=
  (l.closed.filter (!·.written)).map Lot.reads

@[simp] theorem close_closedRows (l : Ledger) (written : Bool) :
    (l.close written).closedRows = l.closedRows ++ l.inserts.getLast?.getD [] := by
  simp [close, closedRows, Lot.rows]

/-- All that a call can do to a ledger. -/
inductive Noted (l : Ledger) : Call → Ledger → Prop
  | read (wait : Span) (payload : Bytes) (position : Position) :
      Noted l (.poll wait (.message payload position)) { l with reads := l.reads ++ [position] }
  | write (rows : List Envelope) :
      Noted l (.insert rows rows.length) ({ l with inserts := l.inserts ++ [rows] }.close true)
  | drop {rows : List Envelope} {written : Nat} : written ≠ rows.length →
      Noted l (.insert rows written) ({ l with inserts := l.inserts ++ [rows] }.close false)
  | retain {rows : List Envelope} {written : Nat} : written ≠ rows.length →
      Noted l (.insert rows written) { l with inserts := l.inserts ++ [rows] }
  | abandon : l.inserts ≠ [] → Noted l .close (l.close false)
  | other {call : Call} : (∀ rows written, call ≠ .insert rows written) → Noted l call l

theorem noted (flushes : Nat) (l : Ledger) (call : Call) : l.Noted call (l.note flushes call) := by
  cases call with
  | poll wait delivery =>
    cases delivery with
    | message payload position => exact .read wait payload position
    | _ => exact .other (by simp)
  | insert rows written =>
    simp only [note]
    split
    · rename_i full
      exact full ▸ .write rows
    rename_i short
    split
    · exact .drop short
    · exact .retain short
  | close =>
    simp only [note]
    split
    · exact .other (by simp)
    · exact .abandon ‹_›
  | _ => exact .other (by simp)

/-- A batch that is done with stays so. -/
theorem Noted.closed_subset {l next : Ledger} {call : Call} (noted : l.Noted call next) :
    l.closed ⊆ next.closed := by
  intro lot member
  cases noted with
  | write rows => exact List.mem_append_left _ member
  | drop short => exact List.mem_append_left _ member
  | abandon some => exact List.mem_append_left _ member
  | _ => exact member

end Ledger

def ledgerOf (flushes : Nat) (calls : List Call) : Ledger :=
  calls.foldl (Ledger.note flushes) {}

/-- The positions that a commit after some calls goes to. -/
def duePositions (flushes : Nat) (calls : List Call) : List Position :=
  Consumer.nextPositions (extentsOf (ledgerOf flushes calls).reads) (limitsOf (ledgerOf flushes calls).drops)

/-- Which call may follow others. Polling waits until a batch of which an insert failed is done
with; each insert takes all rows that are not in a batch that is done with; a commit follows right
after an insert of all rows, and nothing else follows there. -/
def Follows (flushes : Nat) (before : List Call) : Call → Prop
  | .poll _ _ => owedAfter before = .nothing ∧ (ledgerOf flushes before).inserts = []
  | .insert rows _ =>
    owedAfter before = .nothing ∧ rows ≠ [] ∧ rowsOf before = (ledgerOf flushes before).closedRows ++ rows
  | .commit positions _ => ∃ earlier rows now,
    before = earlier ++ [.insert rows rows.length, .instant now] ∧ positions = duePositions flushes earlier
  | .instant _ => owedAfter before ≠ .commit
  | _ => owedAfter before = .nothing

theorem rowsOf_append (calls more : List Call) :
    rowsOf (calls ++ more) = (more.foldl Intake.note ⟨rowsOf calls, owedAfter calls⟩).rows := by
  simp [rowsOf, owedAfter]

theorem owedAfter_append (calls more : List Call) :
    owedAfter (calls ++ more) = (more.foldl Intake.note ⟨rowsOf calls, owedAfter calls⟩).owed := by
  simp [rowsOf, owedAfter]

theorem ledgerOf_append (flushes : Nat) (calls more : List Call) :
    ledgerOf flushes (calls ++ more) = more.foldl (Ledger.note flushes) (ledgerOf flushes calls) := by
  simp [ledgerOf]

theorem ledgerOf_noted (flushes : Nat) (calls : List Call) (call : Call) :
    (ledgerOf flushes calls).Noted call (ledgerOf flushes (calls ++ [call])) := by
  rw [ledgerOf_append, List.foldl_cons, List.foldl_nil]
  exact Ledger.noted flushes _ call

/-- Rows that are there already do not matter for what is made of later messages. -/
theorem Intake.foldl_rows (calls : List Call) (rows : List Envelope) (owed : Owed) :
    (calls.foldl note ⟨rows, owed⟩).rows = rows ++ (calls.foldl note ⟨[], owed⟩).rows := by
  induction calls generalizing rows owed with
  | nil => simp
  | cons call rest ih =>
    obtain ⟨more, next, shift⟩ : ∃ more next, ∀ rows, note ⟨rows, owed⟩ call = ⟨rows ++ more, next⟩ := by
      cases call with
      | instant now =>
        cases owed with
        | event e => exact ⟨[e.normalized now], .nothing, fun _ => rfl⟩
        | _ => exact ⟨[], _, fun rows => by simp only [note, List.append_nil]; rfl⟩
      | poll wait delivery =>
        cases delivery with
        | message payload position =>
          cases decoded : Envelope.decode payload <;>
            exact ⟨[], _, fun rows => by simp only [note, decoded, List.append_nil]; rfl⟩
        | _ => exact ⟨[], _, fun rows => by simp only [note, List.append_nil]; rfl⟩
      | _ => exact ⟨[], _, fun rows => by simp only [note, List.append_nil]; rfl⟩
    rw [List.foldl_cons, List.foldl_cons, shift, shift, ih (rows ++ more), ih ([] ++ more)]
    simp

/-- The row of a message stands between those of the messages before and after it. -/
theorem rowsOf_message {payload : Bytes} {e : Envelope} (decoded : Envelope.decode payload = .ok e)
    (first : List Call) (wait : Span) (position : Position) (now : Instant) (between : List Call) :
    rowsOf (first ++ .poll wait (.message payload position) :: .instant now :: between) =
      rowsOf first ++ e.normalized now :: rowsOf between := by
  simp only [rowsOf, List.foldl_append, List.foldl_cons, Intake.note, decoded]
  rw [Intake.foldl_rows]
  simp

def Lawful (flushes : Nat) (calls : List Call) : Prop :=
  ∀ before call after, calls = before ++ call :: after → Follows flushes before call

theorem lawful_nil (flushes : Nat) : Lawful flushes [] := by
  intro before call after split
  simp at split

theorem Lawful.concat {flushes : Nat} {calls : List Call} {call : Call} (lawful : Lawful flushes calls)
    (follows : Follows flushes calls call) : Lawful flushes (calls ++ [call]) := by
  intro before next after split
  rcases List.eq_nil_or_concat after with rfl | ⟨rest, last, rfl⟩
  · obtain ⟨rfl, same⟩ := List.append_inj' split rfl
    cases same
    exact follows
  · refine lawful before next rest ?_
    rw [List.concat_eq_append, ← List.cons_append, ← List.append_assoc] at split
    exact (List.append_inj' split rfl).1

theorem Lawful.front {flushes : Nat} {calls more : List Call} (lawful : Lawful flushes (calls ++ more)) :
    Lawful flushes calls := by
  intro before call after split
  exact lawful before call (after ++ more) (by simp [split])

theorem Lawful.last {flushes : Nat} {calls : List Call} {call : Call}
    (lawful : Lawful flushes (calls ++ [call])) : Follows flushes calls call :=
  lawful calls call [] rfl

/-- The rows that were made are those of the batches that are done with, in order, and those held;
each insert of the batch in hand was given all of the latter. -/
theorem Lawful.open_rows {flushes : Nat} {calls : List Call} (lawful : Lawful flushes calls) :
    ∃ held, rowsOf calls = (ledgerOf flushes calls).closedRows ++ held ∧
      (∀ rows ∈ (ledgerOf flushes calls).inserts, rows = held) ∧
      ((ledgerOf flushes calls).inserts ≠ [] → ∀ e, owedAfter calls ≠ .event e) := by
  induction calls using List.reverseRecOn with
  | nil => exact ⟨[], rfl, by simp [ledgerOf], by simp [ledgerOf]⟩
  | append_singleton calls call ih =>
    obtain ⟨held, made, same, settled⟩ := ih lawful.front
    have follows := lawful.last
    simp only [rowsOf_append, owedAfter_append, ledgerOf_append, List.foldl_cons, List.foldl_nil]
    cases call with
    | poll wait delivery =>
      have none := follows.2
      cases delivery with
      | message payload position =>
        refine ⟨held, ?_, by simp [Ledger.note, none], by simp [Ledger.note, none]⟩
        cases decoded : Envelope.decode payload <;>
          simpa [Intake.note, decoded, Ledger.note, Ledger.closedRows] using made
      | _ => exact ⟨held, made, by simp [Ledger.note, none], by simp [Ledger.note, none]⟩
    | insert rows written =>
      obtain ⟨_, _, whole⟩ := follows
      obtain rfl : held = rows := List.append_cancel_left (made.symm.trans whole)
      simp only [Ledger.note]
      split
      · exact ⟨[], by simpa [Intake.note, Ledger.closedRows, Ledger.close, Lot.rows] using made,
          by simp [Ledger.close], by simp [Ledger.close]⟩
      split
      · exact ⟨[], by simpa [Intake.note, Ledger.closedRows, Ledger.close, Lot.rows] using made,
          by simp [Ledger.close], by simp [Ledger.close]⟩
      · rename_i short _
        refine ⟨held, made, ?_, by simp [Intake.note, short]⟩
        intro given member
        rcases List.mem_append.mp member with old | new
        · exact same given old
        · exact List.mem_singleton.mp new
    | close =>
      simp only [Ledger.note]
      split
      · exact ⟨held, made, same, fun some => absurd ‹_› some⟩
      · rename_i some
        refine ⟨[], ?_, by simp [Ledger.close], by simp [Ledger.close]⟩
        rw [Ledger.close_closedRows, List.getLast?_eq_some_getLast some]
        simpa [Intake.note, same _ (List.getLast_mem some)] using made
    | instant now =>
      simp only [Ledger.note, Intake.note]
      split
      · rename_i e owed
        have none : (ledgerOf flushes calls).inserts = [] := by
          by_contra some
          exact settled some e owed
        exact ⟨held ++ [e.normalized now], by simp [made], by simp [none], by simp [none]⟩
      · exact ⟨held, made, same, by simp⟩
      · exact ⟨held, made, same, by simp⟩
    | commit positions succeeded => exact ⟨held, made, same, by simp [Intake.note]⟩
    | moment now => exact ⟨held, made, same, by simp [Intake.note]⟩

end EventRelay
