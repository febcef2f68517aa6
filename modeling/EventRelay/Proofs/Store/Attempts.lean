import EventRelay.Store.Client

/-!
What goes over the link when rows are written: the same request once in each attempt, until it is
accepted or the attempts are used up.
-/

namespace EventRelay

variable {σ : Type}

/-- A request that was sent, and what came back. -/
structure Exchange where
  request : HttpRequest
  outcome : Except LinkFault HttpReply

def Exchange.accepted (x : Exchange) : Bool :=
  match x.outcome with
  | .ok reply => reply.isSuccess
  | .error _ => false

/-- What lies outside, with the exchanges that were made: those between the waits before the last one,
and those after it. -/
structure Traced (σ : Type) where
  world : σ
  earlier : List (List Exchange) := []
  latest : List Exchange := []

def Traced.parts (t : Traced σ) : List (List Exchange) :=
  t.earlier ++ [t.latest]

/-- The same link, keeping a trace of what is sent. -/
def Link.traced (link : Link σ) : Link (Traced σ) where
  exchange request limit t :=
    let (outcome, w) := link.exchange request limit t.world
    (outcome, { t with world := w, latest := t.latest ++ [⟨request, outcome⟩] })
  sleep wait t := ⟨link.sleep wait t.world, t.parts, []⟩

/-- An attempt that fails. Nothing is sent if no request can be made. -/
structure Failed (request : Option HttpRequest) (part : List Exchange) : Prop where
  requests : part.map (·.request) = request.toList
  refused : ∀ x ∈ part, x.accepted = false

theorem Failed.length_le {request : Option HttpRequest} {part : List Exchange} (failed : Failed request part) :
    part.length ≤ 1 := by
  rw [← List.length_map (·.request), failed.requests]
  cases request <;> simp

/-- Attempts with so many left after the first of them, and whether the last one has succeeded. -/
inductive Attempts (request : Option HttpRequest) : Nat → Bool → List (List Exchange) → Prop
  | accept (left : Nat) {x : Exchange} : request = some x.request → x.accepted = true →
      Attempts request left true [[x]]
  | giveUp {part} : Failed request part → Attempts request 0 false [part]
  | retry {left succeeded part rest} : Failed request part → Attempts request left succeeded rest →
      Attempts request (left + 1) succeeded (part :: rest)

namespace Attempts

variable {request : Option HttpRequest} {left : Nat} {succeeded : Bool} {parts : List (List Exchange)}

theorem requests (attempts : Attempts request left succeeded parts) :
    ∀ part ∈ parts, part.map (·.request) = request.toList := by
  induction attempts with
  | accept left made accepted => simp [made]
  | giveUp failed => simpa using failed.requests
  | retry failed _ ih => simpa using ⟨failed.requests, ih⟩

theorem of_refused (attempts : Attempts request left succeeded parts) (refused : succeeded = false) :
    parts.length = left + 1 ∧ ∀ x ∈ parts.flatten, x.accepted = false := by
  induction attempts with
  | accept _ _ _ => cases refused
  | giveUp failed => simpa using failed.refused
  | retry failed _ ih =>
    obtain ⟨length, later⟩ := ih refused
    refine ⟨by simp [length], ?_⟩
    intro x member
    rw [List.flatten_cons] at member
    rcases List.mem_append.mp member with old | new
    · exact failed.refused x old
    · exact later x new

theorem of_accepted (attempts : Attempts request left succeeded parts) (whole : succeeded = true) :
    ∃ before x, parts.flatten = before ++ [x] ∧ (∀ y ∈ before, y.accepted = false) ∧ x.accepted = true := by
  induction attempts with
  | @accept _ x _ accepted => exact ⟨[], x, rfl, by simp, accepted⟩
  | giveUp _ => cases whole
  | @retry _ _ part rest failed _ ih =>
    obtain ⟨before, x, sent, refused, accepted⟩ := ih whole
    refine ⟨part ++ before, x, by simp [sent], ?_, accepted⟩
    intro y member
    rcases List.mem_append.mp member with old | new
    · exact failed.refused y old
    · exact refused y new

theorem length_flatten_le (attempts : Attempts request left succeeded parts) : parts.flatten.length ≤ left + 1 := by
  induction attempts with
  | accept left _ _ => simp
  | giveUp failed => simpa using failed.length_le
  | retry failed _ ih =>
    have one := failed.length_le
    simp only [List.flatten_cons, List.length_append]
    omega

end Attempts

theorem Backoff.attempts_pos (b : Backoff) : 0 < b.attempts.toNat := by
  change 0 < (if b.maxAttempts ≤ 1 then 1 else b.maxAttempts).toNat
  split
  · decide
  · rename_i more
    rw [UInt32.le_iff_toNat_le] at more
    omega

namespace StoreClient

variable {client : StoreClient} {rows : List Envelope}

theorem insertOnce_traced (client : StoreClient) (link : Link σ) (rows : List Envelope) (t : Traced σ) :
    ∃ result w part, client.insertOnce link rows t.world = (result, w) ∧
      client.insertOnce link.traced rows t = (result, { t with world := w, latest := t.latest ++ part }) ∧
      Attempts (client.insertRequest? rows) 0 result.isOk [part] := by
  unfold insertOnce send
  cases client.insertRequest? rows with
  | none => exact ⟨_, t.world, [], rfl, by simp, .giveUp ⟨rfl, by simp⟩⟩
  | some request =>
    rcases exchanged : link.exchange request client.requestTimeout t.world with ⟨fault | reply, w⟩
    · refine ⟨.error .transport, w, [⟨request, .error fault⟩], ?_, ?_, .giveUp ⟨rfl, by simp [Exchange.accepted]⟩⟩
      · simp [exchanged]
      · simp [Link.traced, exchanged]
    by_cases success : reply.isSuccess
    · refine ⟨.ok (), w, [⟨request, .ok reply⟩], ?_, ?_, .accept 0 rfl success⟩
      · simp [exchanged, success]
      · simp [Link.traced, exchanged, success]
    · refine ⟨.error (.status reply.status (Text.trim reply.text)), w, [⟨request, .ok reply⟩], ?_, ?_, ?_⟩
      · simp [exchanged, success]
      · simp [Link.traced, exchanged, success]
      · exact .giveUp ⟨rfl, by simpa [Exchange.accepted] using success⟩

/-- With a trace the same is done, and the trace has the attempts. -/
theorem runFrom_traced (client : StoreClient) (link : Link σ) (rows : List Envelope) (left : Nat) (attempt : UInt32)
    {t : Traced σ} (fresh : t.latest = []) :
    ∃ result w t' more,
      client.retry.runFrom (fun _ => client.insertOnce link rows) link.sleep left attempt t.world = (result, w) ∧
      client.retry.runFrom (fun _ => client.insertOnce link.traced rows) link.traced.sleep left attempt t =
        (result, t') ∧
      t'.world = w ∧ t'.parts = t.earlier ++ more ∧ Attempts (client.insertRequest? rows) left result.isOk more := by
  induction left generalizing attempt t with
  | zero =>
    obtain ⟨result, w, part, plain, traced, attempts⟩ := client.insertOnce_traced link rows t
    unfold Backoff.runFrom
    rw [plain, traced]
    rw [fresh, List.nil_append]
    cases result with
    | ok _ => exact ⟨_, w, _, [part], rfl, rfl, rfl, rfl, attempts⟩
    | error _ => exact ⟨_, w, _, [part], rfl, rfl, rfl, rfl, attempts⟩
  | succ left ih =>
    obtain ⟨result, w, part, plain, traced, attempts⟩ := client.insertOnce_traced link rows t
    unfold Backoff.runFrom
    rw [plain, traced]
    rw [fresh, List.nil_append]
    cases result with
    | ok _ =>
      refine ⟨_, w, _, [part], rfl, rfl, rfl, rfl, ?_⟩
      cases attempts with
      | accept _ made accepted => exact .accept _ made accepted
    | error _ =>
      cases attempts with
      | giveUp failed =>
        let waited := link.traced.sleep (client.retry.waitAfter attempt) ⟨w, t.earlier, part⟩
        obtain ⟨result, w', t', more, plain, traced, same, parts, attempts⟩ := ih (attempt + 1) (t := waited) rfl
        refine ⟨result, w', t', part :: more, plain, traced, same, ?_, .retry failed attempts⟩
        rw [parts]
        simp [waited, Link.traced, Traced.parts]

/-- All attempts of an insert fail. -/
def Refuses (client : StoreClient) (rows : List Envelope) (parts : List (List Exchange)) : Prop :=
  Attempts (client.insertRequest? rows) (client.retry.attempts.toNat - 1) false parts

/-- The last attempt of an insert succeeds. -/
def Accepts (client : StoreClient) (rows : List Envelope) (parts : List (List Exchange)) : Prop :=
  Attempts (client.insertRequest? rows) (client.retry.attempts.toNat - 1) true parts

theorem Refuses.length {parts : List (List Exchange)} (refuses : client.Refuses rows parts) :
    parts.length = client.retry.attempts.toNat := by
  have length := (Attempts.of_refused refuses rfl).1
  have some := client.retry.attempts_pos
  omega

/-- What an insert of some rows sends, attempt by attempt, when so many of them are written. -/
inductive Posted (client : StoreClient) (rows : List Envelope) : Nat → List (List Exchange) → Prop
  | refused {parts} : client.Refuses rows parts → Posted client rows 0 parts
  | accepted {parts} : client.Accepts rows parts → Posted client rows rows.length parts

/-- With a trace the same is written. -/
theorem insert_traced (client : StoreClient) (link : Link σ) (some : rows ≠ []) (w : σ) :
    ∃ written w' t, client.insert link rows w = (written, w') ∧
      client.insert link.traced rows ⟨w, [], []⟩ = (written, t) ∧ t.world = w' ∧
      client.Posted rows written t.parts := by
  have filled : rows.isEmpty = false := by simpa using some
  obtain ⟨result, w', t, more, plain, traced, same, parts, attempts⟩ :=
    client.runFrom_traced link rows (client.retry.attempts.toNat - 1) 1 (t := ⟨w, [], []⟩) rfl
  unfold insert Backoff.run
  rw [plain, traced]
  rw [List.nil_append] at parts
  cases result with
  | ok _ => exact ⟨rows.length, w', t, by simp [filled], by simp [filled], same, .accepted (parts ▸ attempts)⟩
  | error _ => exact ⟨0, w', t, by simp [filled], by simp [filled], same, .refused (parts ▸ attempts)⟩

/-- A request that writes rows is a post of these rows, line after line. -/
theorem insertRequest?_eq_some {request : HttpRequest} (made : client.insertRequest? rows = some request) :
    request.method = "POST" ∧ request.body = Envelope.linesText rows := by
  unfold insertRequest? post? at made
  simp only [Option.ite_none_right_eq_some, Option.some.injEq] at made
  exact made.2 ▸ ⟨rfl, rfl⟩

end StoreClient

end EventRelay
