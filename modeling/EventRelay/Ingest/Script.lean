import EventRelay.Ingest.Consumer

/-!
Scripted surroundings of a consumer: a reader that brings given deliveries, a store that gives given
answers, and clocks that stand still unless they are moved. `Ports.recorded` keeps the calls that
are made through any ports.
-/

namespace EventRelay

/-- A delivery, and what changes at the reader when it is brought. -/
structure Arrival where
  delivery : Delivery
  /-- Whether the reader counts as connected from now on. -/
  connected : Option Bool := none
  /-- Whether the shutdown flag is raised. -/
  shutdown : Bool := false

/-- Surroundings that go through lists. A reader that has nothing left to bring raises the shutdown
flag and lets polls time out; a store without an answer writes every row; commits that are not said
to fail succeed. -/
structure Script where
  arrivals : List Arrival := []
  connected : Bool := true
  inserts : List (Option Nat) := []
  commits : List (Option String) := []
  shutdown : Bool := false
  moment : Moment := ⟨0⟩
  instant : Instant := .epoch

namespace Script

def poll (_ : Span) (s : Script) : Delivery × Script :=
  match s.arrivals with
  | [] => (.timeout, { s with shutdown := true })
  | a :: rest =>
    (a.delivery, { s with
      arrivals := rest
      connected := a.connected.getD s.connected
      shutdown := s.shutdown || a.shutdown })

def commit (_ : List Position) (s : Script) : Except BusError Unit × Script :=
  let s' := { s with commits := s.commits.tail }
  match s.commits with
  | some reason :: _ => (.error (.commit reason), s')
  | _ => (.ok (), s')

def insert (rows : List Envelope) (s : Script) : Nat × Script :=
  let s' := { s with inserts := s.inserts.tail }
  match s.inserts with
  | some n :: _ => (n, s')
  | _ => (rows.length, s')

def reader : BusReader Script where
  poll := poll
  commit := commit
  close := id
  isConnected := Script.connected

def store : RowStore Script where
  ping s := (true, s)
  insert := insert

def clocks : Clocks Script where
  moment s := (s.moment, s)
  instant s := (s.instant, s)

def ports : Ports Script := ⟨reader, store, clocks⟩

/-- Lets time pass on the clock that never runs backwards. -/
def wait (s : Script) (millis : Nat) : Script :=
  { s with moment := ⟨s.moment.nanos + millis * 1000000⟩ }

end Script

/-- A call that a consumer has made, with what came back. -/
inductive Call
  | poll (wait : Span) (delivery : Delivery)
  | insert (rows : List Envelope) (written : Nat)
  | commit (positions : List Position) (succeeded : Bool)
  | close
  | moment (now : Moment)
  | instant (now : Instant)
  deriving DecidableEq

/-- Surroundings with the calls made so far, in order. -/
structure Recorded (σ : Type) where
  world : σ
  calls : List Call := []

namespace Ports

variable {σ : Type}

/-- The same ports, keeping a record of the calls. -/
def recorded (io : Ports σ) : Ports (Recorded σ) where
  reader :=
    { poll := fun wait r =>
        let (delivery, w) := io.reader.poll wait r.world
        (delivery, ⟨w, r.calls ++ [.poll wait delivery]⟩)
      commit := fun positions r =>
        let (result, w) := io.reader.commit positions r.world
        (result, ⟨w, r.calls ++ [.commit positions (match result with
          | .ok _ => true
          | .error _ => false)]⟩)
      close := fun r => ⟨io.reader.close r.world, r.calls ++ [.close]⟩
      isConnected := fun r => io.reader.isConnected r.world }
  store :=
    { ping := fun r => let (up, w) := io.store.ping r.world; (up, { r with world := w })
      insert := fun rows r =>
        let (written, w) := io.store.insert rows r.world
        (written, ⟨w, r.calls ++ [.insert rows written]⟩) }
  clocks :=
    { moment := fun r =>
        let (m, w) := io.clocks.moment r.world
        (m, ⟨w, r.calls ++ [.moment m]⟩)
      instant := fun r =>
        let (i, w) := io.clocks.instant r.world
        (i, ⟨w, r.calls ++ [.instant i]⟩) }

end Ports

end EventRelay
