import DocScan.Event
import DocScan.Failure

/-!
# Steps of a session

A step runs over a state against the server.  It gives a result or a failure,
and in either case the new state, the server as it is left, and the events
that happened.  A failing step skips what follows it, but what it changed
stays changed.
-/

namespace DocScan

/-- What a step comes to. -/
structure Outcome (σ α : Type) where
  result : Except Failure α
  state : σ
  server : Server
  events : List Event

/-- A step over states of a type, with a result of a type. -/
def Act (σ α : Type) : Type := σ → Server → Outcome σ α

namespace Act

variable {σ τ α β γ : Type}

protected def pure (a : α) : Act σ α := fun s w => ⟨.ok a, s, w, []⟩

/-- One step after another, unless the first one fails. -/
protected def bind (x : Act σ α) (f : α → Act σ β) : Act σ β := fun s w =>
  let first := x s w
  match first.result with
  | .error e => ⟨.error e, first.state, first.server, first.events⟩
  | .ok a =>
    let second := f a first.state first.server
    ⟨second.result, second.state, second.server, first.events ++ second.events⟩

instance : Monad (Act σ) where
  pure := Act.pure
  bind := Act.bind

theorem pure_apply (a : α) (s : σ) (w : Server) :
    (pure a : Act σ α) s w = ⟨.ok a, s, w, []⟩ := rfl

def fail (e : Failure) : Act σ α := fun s w => ⟨.error e, s, w, []⟩

def get : Act σ σ := fun s w => ⟨.ok s, s, w, []⟩

def set (s : σ) : Act σ Unit := fun _ w => ⟨.ok (), s, w, []⟩

def modify (f : σ → σ) : Act σ Unit := fun s w => ⟨.ok (), f s, w, []⟩

def server : Act σ Server := fun s w => ⟨.ok w, s, w, []⟩

def log (r : LogRecord) : Act σ Unit := fun s w => ⟨.ok (), s, w, [.log r]⟩

/-- Reaches a point: its event happens, and its outcome is taken. -/
def reach (p : Point) (e : Event) : Act σ Unit := fun s w =>
  match w.outcome p with
  | none => ⟨.ok (), s, w.advance p, [e]⟩
  | some r => ⟨.error (.reported r), s, w.advance p, [e]⟩

/-- Runs a step and gives its failure as a result. -/
def attempt (x : Act σ α) : Act σ (Except Failure α) := fun s w =>
  let inner := x s w
  ⟨.ok inner.result, inner.state, inner.server, inner.events⟩

def ofExcept : Except Failure α → Act σ α
  | .ok a => Act.pure a
  | .error e => fail e

/-- Runs a step over a state of its own, which is given with the result and
lost with a failure. -/
def within (t : τ) (x : Act τ α) : Act σ (α × τ) := fun s w =>
  let inner := x t w
  ⟨inner.result.map fun a => (a, inner.state), s, inner.server, inner.events⟩

/-- Runs a step on a part of the state. -/
def focus (part : σ → τ) (update : σ → τ → σ) (x : Act τ α) : Act σ α := fun s w =>
  let inner := x (part s) w
  ⟨inner.result, update s inner.state, inner.server, inner.events⟩

/-- The number of a client that the server makes. -/
def newClient : Act σ Nat := fun s w =>
  ⟨.ok (w.clients + 1), s, { w with clients := w.clients + 1 }, []⟩

/-! ## Draws -/

/-- What comes next, if there is more. -/
def drawing (more : Act σ Bool) (next : Act σ α) : Act σ (Option α) := do
  if ← more then return some (← next) else return none

/-- Repeats a step that may give something until it gives nothing, at most a
number of times. -/
def drawUpTo (draw : Act σ (Option α)) : Nat → Act σ (List α)
  | 0 => return []
  | limit + 1 => do
    match ← draw with
    | none => return []
    | some a => return a :: (← drawUpTo draw limit)

/-- Repeats a step until it gives nothing.  A server has no more than all its
documents to give, and one more draw finds the end. -/
def drawAll (draw : Act σ (Option α)) : Act σ (List α) := do
  drawUpTo draw ((← server).documents.length + 1)

/-- Asks for the document at a position. -/
def fetch (position : Nat) : Act σ (Option Value) := do
  reach .fetch (.fetch position)
  return (← server).documents[position]?

/-- Takes a report of exhaustion for the end of the documents. -/
def orEnd (x : Act σ (Option α)) : Act σ (Option α) := do
  match ← x.attempt with
  | .ok found => return found
  | .error failure => if failure.isExhaustion then return none else fail failure

/-! ## Commands -/

/-- What commands come to when they are carried out one after the other.  A
command that fails does not keep the next from being carried out. -/
def outcomes (perform : γ → Act σ α) : List γ → σ → Server → List (Outcome σ α)
  | [], _, _ => []
  | command :: rest, s, w =>
    let first := perform command s w
    first :: outcomes perform rest first.state first.server

end Act

end DocScan
