import DocScan.Act
import Mathlib.Tactic

/-!
# Steps in sequence

Binding a step to what follows it is opened here once for every primitive
step, so that later proofs run a program by rewriting.  A course is what a list of
commands comes to as a whole: all results, the last state, the server as it is
left, and the events of all commands in order.
-/

namespace DocScan

variable {σ τ α β γ : Type}

def Outcome.after (before : List Event) (o : Outcome σ α) : Outcome σ α :=
  { o with events := before ++ o.events }

namespace Outcome

variable (before : List Event) (o : Outcome σ α)

@[simp] theorem after_result : (o.after before).result = o.result := rfl

@[simp] theorem after_state : (o.after before).state = o.state := rfl

@[simp] theorem after_server : (o.after before).server = o.server := rfl

@[simp] theorem after_events : (o.after before).events = before ++ o.events := rfl

@[simp] theorem after_nil : o.after [] = o := rfl

@[simp] theorem after_after (earlier : List Event) :
    (o.after before).after earlier = o.after (earlier ++ before) := by
  simp [after]

@[simp] theorem after_mk (r : Except Failure α) (s : σ) (w : Server) (events : List Event) :
    (Outcome.mk r s w events).after before = ⟨r, s, w, before ++ events⟩ := rfl

end Outcome

namespace Act

variable (s : σ) (w : Server)

theorem bind_apply (x : Act σ α) (f : α → Act σ β) :
    (x >>= f) s w =
      match (x s w).result with
      | .error e => ⟨.error e, (x s w).state, (x s w).server, (x s w).events⟩
      | .ok a => (f a (x s w).state (x s w).server).after (x s w).events := rfl

protected theorem bind_assoc (x : Act σ α) (f : α → Act σ β) (g : β → Act σ γ) :
    x >>= f >>= g = x >>= fun a => f a >>= g := by
  funext s w
  simp only [bind_apply]
  cases (x s w).result with
  | error failure => rfl
  | ok a =>
    simp only [Outcome.after_result]
    cases (f a (x s w).state (x s w).server).result with
    | error failure => rfl
    | ok b => simp [Outcome.after]

protected theorem bind_pure (x : Act σ α) : x >>= pure = x := by
  funext s w
  rw [bind_apply]
  cases x s w with
  | mk result state server events => cases result <;> simp [pure_apply]

@[simp] theorem get_bind (f : σ → Act σ β) : (get >>= f) s w = f s s w := rfl

@[simp] theorem set_bind (t : σ) (f : Unit → Act σ β) : (set t >>= f) s w = f () t w := rfl

@[simp] theorem modify_bind (g : σ → σ) (f : Unit → Act σ β) :
    (modify g >>= f) s w = f () (g s) w := rfl

@[simp] theorem server_bind (f : Server → Act σ β) : (server >>= f) s w = f w s w := rfl

@[simp] theorem log_bind (r : LogRecord) (f : Unit → Act σ β) :
    (log r >>= f) s w = (f () s w).after [.log r] := rfl

@[simp] theorem fail_bind (e : Failure) (f : α → Act σ β) :
    ((fail e : Act σ α) >>= f) s w = ⟨.error e, s, w, []⟩ := rfl

@[simp] theorem pure_bind_apply (a : α) (f : α → Act σ β) :
    ((pure a : Act σ α) >>= f) s w = f a s w := rfl

@[simp] theorem attempt_bind (x : Act σ α) (f : Except Failure α → Act σ β) :
    (x.attempt >>= f) s w =
      (f (x s w).result (x s w).state (x s w).server).after (x s w).events := rfl

theorem reach_bind (p : Point) (e : Event) (f : Unit → Act σ β) :
    (reach p e >>= f) s w =
      match w.outcome p with
      | some r => ⟨.error (.reported r), s, w.advance p, [e]⟩
      | none => (f () s (w.advance p)).after [e] := by
  rw [bind_apply, reach]
  cases w.outcome p <;> rfl

theorem bind_pure_apply (x : Act σ α) (f : α → β) :
    (do return f (← x) : Act σ β) s w =
      ⟨(x s w).result.map f, (x s w).state, (x s w).server, (x s w).events⟩ := by
  rw [bind_apply]
  cases (x s w).result with
  | error failure => rfl
  | ok a => simp [pure_apply, Except.map]

theorem within_bind (t : τ) (x : Act τ α) (f : α × τ → Act σ β) :
    (within t x >>= f) s w =
      match (x t w).result with
      | .error e => ⟨.error e, s, (x t w).server, (x t w).events⟩
      | .ok a => (f (a, (x t w).state) s (x t w).server).after (x t w).events := by
  rw [bind_apply, within]
  cases (x t w).result <;> rfl

/-- What is run on a part whose answer and new state nobody asks for. -/
theorem discard_within (t : τ) (x : Act τ α) :
    (discard (within t x) : Act σ Unit) s w =
      ⟨(x t w).result.map fun _ => (), s, (x t w).server, (x t w).events⟩ := by
  apply (within_bind s w t x fun _ => pure ()).trans
  cases (x t w).result with
  | error failure => rfl
  | ok a => simp [pure_apply, Except.map]

/-! ## Fetches -/

theorem fetch_apply (position : ℕ) :
    fetch position s w =
      match w.outcome .fetch with
      | some report => ⟨.error (.reported report), s, w.advance .fetch, [.fetch position]⟩
      | none => ⟨.ok w.documents[position]?, s, w.advance .fetch, [.fetch position]⟩ := by
  unfold fetch
  rw [reach_bind]
  cases w.outcome .fetch <;> rfl

/-- Where a step found an end reported, it finds nothing. -/
theorem orEnd_apply (x : Act σ (Option α)) :
    x.orEnd s w =
      ⟨match (x s w).result with
        | .ok found => .ok found
        | .error failure => if failure.isExhaustion then .ok none else .error failure,
        (x s w).state, (x s w).server, (x s w).events⟩ := by
  unfold orEnd
  rw [attempt_bind]
  cases (x s w).result with
  | ok found => simp [pure_apply]
  | error failure => cases hend : failure.isExhaustion <;> simp [pure_apply, fail, hend]

end Act

/-! ## Repeated draws -/

namespace Act

/-- What repeated draws give until one gives nothing or fails. -/
def drawn (draw : Act σ (Option α)) : ℕ → σ → Server → List α
  | 0, _, _ => []
  | limit + 1, s, w =>
    match (draw s w).result with
    | .ok (some a) => a :: drawn draw limit (draw s w).state (draw s w).server
    | _ => []

variable {draw : Act σ (Option α)} {limit : ℕ} {s : σ} {w : Server}

theorem drawUpTo_succ_some {a : α} (h : (draw s w).result = .ok (some a)) :
    let rest := drawUpTo draw limit (draw s w).state (draw s w).server
    drawUpTo draw (limit + 1) s w =
      ⟨rest.result.map (a :: ·), rest.state, rest.server, (draw s w).events ++ rest.events⟩ := by
  intro rest
  rw [drawUpTo, bind_apply, h]
  simp only [bind_apply]
  cases rest.result with
  | error failure => simp [rest, Except.map]
  | ok found => simp [rest, pure_apply, Except.map]

theorem drawUpTo_succ_stop (h : ∀ a, (draw s w).result ≠ .ok (some a)) :
    drawUpTo draw (limit + 1) s w =
      ⟨(draw s w).result.map fun _ => [], (draw s w).state, (draw s w).server,
        (draw s w).events⟩ := by
  rw [drawUpTo, bind_apply]
  cases hresult : (draw s w).result with
  | error failure => rfl
  | ok found =>
    cases found with
    | none => simp [pure_apply, Except.map]
    | some a => exact absurd hresult (h a)

theorem drawn_succ_some {a : α} (h : (draw s w).result = .ok (some a)) :
    drawn draw (limit + 1) s w =
      a :: drawn draw limit (draw s w).state (draw s w).server := by
  rw [drawn, h]

theorem drawn_succ_stop (h : ∀ a, (draw s w).result ≠ .ok (some a)) :
    drawn draw (limit + 1) s w = [] := by
  unfold drawn
  split
  · rename_i a ha
    exact absurd ha (h a)
  · rfl

theorem result_drawUpTo {found : List α} (h : (drawUpTo draw limit s w).result = .ok found) :
    found = drawn draw limit s w := by
  induction limit generalizing s w found with
  | zero => exact (Except.ok.inj h).symm
  | succ limit ih =>
    by_cases hsome : ∃ a, (draw s w).result = .ok (some a)
    · obtain ⟨a, hresult⟩ := hsome
      rw [drawUpTo_succ_some hresult] at h
      simp only at h
      cases hrest : (drawUpTo draw limit (draw s w).state (draw s w).server).result with
      | error failure =>
        rw [hrest] at h
        contradiction
      | ok rest =>
        rw [hrest] at h
        rw [← Except.ok.inj h, ih hrest, drawn_succ_some hresult]
    · have hnone := not_exists.mp hsome
      rw [drawUpTo_succ_stop hnone] at h
      rw [drawn_succ_stop hnone]
      cases hresult : (draw s w).result with
      | error failure =>
        rw [hresult] at h
        contradiction
      | ok _ =>
        rw [hresult] at h
        exact (Except.ok.inj h).symm

end Act

/-! ## Courses of commands -/

/-- What a list of commands comes to. -/
structure Course (σ α : Type) where
  results : List (Except Failure α)
  state : σ
  server : Server
  events : List Event

namespace Act

def course (perform : γ → Act σ α) : List γ → σ → Server → Course σ α
  | [], s, w => ⟨[], s, w, []⟩
  | command :: rest, s, w =>
    let first := perform command s w
    let later := course perform rest first.state first.server
    ⟨first.result :: later.results, later.state, later.server, first.events ++ later.events⟩

end Act

end DocScan
