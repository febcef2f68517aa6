import EventRelay.Proofs.Ingest.Rows

/-!
All batches of a run, in their order: how often each is inserted, and which of them are committed.
-/

namespace EventRelay

namespace Ledger

/-- All batches, with the one in hand at the end. -/
def batches (l : Ledger) : List Lot :=
  l.closed ++ [⟨l.reads, l.inserts, false⟩]

/-- What is to be committed for batches that come after others that were dropped: each that was
written goes to its own offsets, held back by those dropped before it. -/
def dues : List (List Position) → List Lot → List (List Position)
  | _, [] => []
  | drops, lot :: rest =>
    if lot.written then Consumer.nextPositions (extentsOf lot.reads) (limitsOf drops) :: dues drops rest
    else dues (drops ++ [lot.reads]) rest

theorem dues_concat (drops : List (List Position)) (lots : List Lot) (lot : Lot) :
    dues drops (lots ++ [lot]) = dues drops lots ++
      if lot.written then [Consumer.nextPositions (extentsOf lot.reads)
        (limitsOf (drops ++ (lots.filter (!·.written)).map Lot.reads))]
      else [] := by
  induction lots generalizing drops with
  | nil => cases written : lot.written <;> simp [dues, written]
  | cons first rest ih =>
    cases written : first.written with
    | true => simp [dues, written, ih]
    | false => simp [dues, written, ih]

end Ledger

/-- A batch is inserted no more often than its flushes allow, or once if they allow none. -/
theorem ledger_flushes (flushes : Nat) (calls : List Call) :
    (ledgerOf flushes calls).inserts.length < max 1 flushes ∧
      ∀ lot ∈ (ledgerOf flushes calls).closed, lot.inserts.length ≤ max 1 flushes := by
  induction calls using List.reverseRecOn with
  | nil => exact ⟨Nat.lt_of_lt_of_le Nat.one_pos (Nat.le_max_left 1 flushes), by simp [ledgerOf]⟩
  | append_singleton calls call ih =>
    obtain ⟨left, closed⟩ := ih
    rw [ledgerOf_append, List.foldl_cons, List.foldl_nil]
    have done {inserts : List (List Envelope)} {written : Bool} (few : inserts.length ≤ max 1 flushes) :
        0 < max 1 flushes ∧
          ∀ lot ∈ (ledgerOf flushes calls).closed ++ [⟨(ledgerOf flushes calls).reads, inserts, written⟩],
            lot.inserts.length ≤ max 1 flushes := by
      refine ⟨by omega, fun lot member => ?_⟩
      rcases List.mem_append.mp member with old | new
      · exact closed lot old
      · exact List.mem_singleton.mp new ▸ few
    cases call with
    | poll wait delivery => cases delivery <;> exact ⟨left, closed⟩
    | insert rows written =>
      have length : ((ledgerOf flushes calls).inserts ++ [rows]).length ≤ max 1 flushes := by
        rw [List.length_append]
        exact left
      simp only [Ledger.note]
      split
      · exact done length
      split
      · exact done length
      · rename_i spare
        exact ⟨Nat.lt_of_lt_of_le (Nat.lt_of_not_le spare) (Nat.le_max_right 1 flushes), closed⟩
    | close =>
      simp only [Ledger.note]
      split
      · exact ⟨left, closed⟩
      · exact done (Nat.le_of_lt left)
    | _ => exact ⟨left, closed⟩

def commitsOf (calls : List Call) : List (List Position) :=
  calls.filterMap fun
    | .commit positions _ => some positions
    | _ => none

/-- The number of commits that are still to come for batches that were written. -/
def Owed.commits : Owed → Nat
  | .time => 1
  | .commit => 1
  | _ => 0

/-- There is one commit for each batch that was written, in the order of the batches. The last one
may still be due. -/
theorem Lawful.commits_due {flushes : Nat} {calls : List Call} (lawful : Lawful flushes calls) :
    ∃ late, commitsOf calls ++ late = Ledger.dues [] (ledgerOf flushes calls).closed ∧
      late.length = (owedAfter calls).commits := by
  induction calls using List.reverseRecOn with
  | nil => exact ⟨[], rfl, rfl⟩
  | append_singleton calls call ih =>
    obtain ⟨late, made, length⟩ := ih lawful.front
    have follows := lawful.last
    have split : commitsOf (calls ++ [call]) = commitsOf calls ++ commitsOf [call] := List.filterMap_append
    have other (quiet : commitsOf [call] = []) : commitsOf (calls ++ [call]) = commitsOf calls := by
      rw [split, quiet, List.append_nil]
    have none (settled : owedAfter calls = .nothing) : late = [] := by
      rw [settled] at length
      exact List.length_eq_zero_iff.mp length
    rw [owedAfter_append, ledgerOf_append]
    cases call with
    | poll wait delivery =>
      obtain rfl := none follows.1
      rw [other rfl]
      cases delivery with
      | message payload position =>
        refine ⟨[], made, ?_⟩
        cases decoded : Envelope.decode payload <;> simp [Intake.note, decoded, Owed.commits]
      | _ => exact ⟨[], made, rfl⟩
    | insert rows written =>
      obtain rfl := none follows.1
      rw [other rfl]
      by_cases full : written = rows.length
      · simp only [List.foldl_cons, List.foldl_nil, Ledger.note, Intake.note, full, if_true, Ledger.close,
          Ledger.dues_concat]
        rw [← made, List.append_nil]
        exact ⟨_, rfl, rfl⟩
      · refine ⟨[], ?_, by simp [Intake.note, full, Owed.commits]⟩
        simp only [List.foldl_cons, List.foldl_nil, Ledger.note, full, if_false]
        split
        · simpa [Ledger.close, Ledger.dues_concat] using made
        · exact made
    | instant now =>
      rw [other rfl]
      refine ⟨late, made, length.trans ?_⟩
      cases owed : owedAfter calls with
      | commit => exact absurd owed follows
      | _ => rfl
    | commit positions succeeded =>
      have due : late.length = 1 := length.trans (congrArg Owed.commits follows.owed_commit)
      obtain ⟨earlier, rows, now, rfl, rfl⟩ := follows
      obtain ⟨position, rfl⟩ := List.length_eq_one_iff.mp due
      have closed : (ledgerOf flushes (earlier ++ [.insert rows rows.length, .instant now])).closed =
          (ledgerOf flushes earlier).closed ++
            [⟨(ledgerOf flushes earlier).reads, (ledgerOf flushes earlier).inserts ++ [rows], true⟩] := by
        simp [ledgerOf_append, Ledger.note, Ledger.close]
      refine ⟨[], ?_, rfl⟩
      have last := made
      rw [closed, Ledger.dues_concat] at last
      obtain ⟨_, same⟩ := List.append_inj' last rfl
      rw [same] at made
      rw [split, List.append_nil]
      exact made
    | close =>
      obtain rfl := none follows
      rw [other rfl]
      refine ⟨[], ?_, rfl⟩
      simp only [List.foldl_cons, List.foldl_nil, Ledger.note]
      split
      · exact made
      · simpa [Ledger.close, Ledger.dues_concat] using made
    | moment now =>
      obtain rfl := none follows
      rw [other rfl]
      exact ⟨[], made, rfl⟩

/-- All inserts of a batch, be it done with or in hand, have the same rows and are no more than allowed. -/
theorem Conserved.batch_inserts {flushes : Nat} {calls : List Call} {held : List Envelope}
    (conserved : Conserved flushes calls held) :
    ∀ lot ∈ (ledgerOf flushes calls).batches,
      (∀ rows ∈ lot.inserts, rows = lot.rows) ∧ lot.inserts.length ≤ max 1 flushes := by
  obtain ⟨left, closed⟩ := ledger_flushes flushes calls
  intro lot member
  rcases List.mem_append.mp member with old | new
  · exact ⟨(conserved.repeated lot old).2, closed lot old⟩
  · rw [List.mem_singleton.mp new]
    refine ⟨fun rows given => ?_, Nat.le_of_lt left⟩
    have some := List.ne_nil_of_mem given
    rw [Lot.rows, List.getLast?_eq_some_getLast some, Option.getD_some, conserved.kept rows given,
      conserved.kept _ (List.getLast_mem some)]

end EventRelay
