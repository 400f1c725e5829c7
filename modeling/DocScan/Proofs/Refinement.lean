import DocScan.Proofs.Steps

/-!
# Steps seen through a view

One layer of states refines another if every step of it keeps an invariant and,
seen through a view of its states, does what a step of the other layer does: it
comes to the same result, leaves the same server and has the same events.  This
passes through sequences of steps, and so holds of whole runs.
-/

namespace DocScan

variable {σ τ α β γ : Type}

/-- The outcome with its state seen through a view. -/
def Outcome.seen (view : σ → τ) (o : Outcome σ α) : Outcome τ α :=
  ⟨o.result, view o.state, o.server, o.events⟩

/-- A step keeps an invariant and, seen through a view, does what another does. -/
def Act.Refines (holds : σ → Prop) (view : σ → τ) (x : Act σ α) (y : Act τ α) : Prop :=
  ∀ s w, holds s → holds (x s w).state ∧ y (view s) w = (x s w).seen view

namespace Act.Refines

variable {holds : σ → Prop} {view : σ → τ}

theorem pure (a : α) : Refines holds view (Pure.pure a) (Pure.pure a) :=
  fun _ _ hs => ⟨hs, rfl⟩

theorem fail (e : Failure) : Refines holds view (Act.fail e : Act σ α) (Act.fail e) :=
  fun _ _ hs => ⟨hs, rfl⟩

theorem modify {f : σ → σ} {g : τ → τ} (hf : ∀ s, holds s → holds (f s))
    (hg : ∀ s, holds s → g (view s) = view (f s)) :
    Refines holds view (Act.modify f) (Act.modify g) := by
  intro s w hs
  refine ⟨hf s hs, ?_⟩
  rw [Act.modify, hg s hs]
  rfl

theorem bind {x : Act σ α} {y : Act τ α} {f : α → Act σ β} {g : α → Act τ β}
    (hx : Refines holds view x y) (hf : ∀ a, Refines holds view (f a) (g a)) :
    Refines holds view (x >>= f) (y >>= g) := by
  intro s w hs
  obtain ⟨hfirst, hsame⟩ := hx s w hs
  rw [bind_apply, bind_apply, hsame]
  simp only [Outcome.seen]
  cases (x s w).result with
  | error failure => exact ⟨hfirst, rfl⟩
  | ok a =>
    obtain ⟨hsecond, hrest⟩ := hf a (x s w).state (x s w).server hfirst
    refine ⟨hsecond, ?_⟩
    simp only
    rw [hrest]
    rfl

/-- What is done may depend on the state, if it looks the same through the view. -/
theorem get_bind {f : σ → Act σ α} {g : τ → Act τ α}
    (h : ∀ s, holds s → Refines holds view (f s) (g (view s))) :
    Refines holds view (Act.get >>= f) (Act.get >>= g) :=
  fun s w hs => h s hs s w hs

theorem attempt {x : Act σ α} {y : Act τ α} (h : Refines holds view x y) :
    Refines holds view x.attempt y.attempt := by
  intro s w hs
  obtain ⟨hafter, hsame⟩ := h s w hs
  refine ⟨hafter, ?_⟩
  rw [Act.attempt, hsame]
  rfl

theorem drawing {more : Act σ Bool} {next : Act σ α} {more' : Act τ Bool} {next' : Act τ α}
    (hmore : Refines holds view more more') (hnext : Refines holds view next next') :
    Refines holds view (Act.drawing more next) (Act.drawing more' next') := by
  apply bind hmore
  intro found
  cases found with
  | true => exact bind hnext fun _ => pure _
  | false => exact pure none

theorem drawUpTo {draw : Act σ (Option α)} {draw' : Act τ (Option α)}
    (h : Refines holds view draw draw') (limit : ℕ) :
    Refines holds view (Act.drawUpTo draw limit) (Act.drawUpTo draw' limit) := by
  induction limit with
  | zero => exact pure []
  | succ limit ih =>
    apply bind h
    intro found
    cases found with
    | none => exact pure []
    | some a => exact bind ih fun _ => pure _

theorem drawAll {draw : Act σ (Option α)} {draw' : Act τ (Option α)}
    (h : Refines holds view draw draw') :
    Refines holds view (Act.drawAll draw) (Act.drawAll draw') :=
  fun s w hs => h.drawUpTo (w.documents.length + 1) s w hs

/-- From refining steps to refining runs: every state that is reached keeps the
invariant, and every command comes to the same. -/
theorem outcomes {x : γ → Act σ α} {y : γ → Act τ α} (h : ∀ c, Refines holds view (x c) (y c))
    (commands : List γ) {s : σ} (hs : holds s) (w : Server) :
    (∀ o ∈ Act.outcomes x commands s w, holds o.state) ∧
      Act.outcomes y commands (view s) w =
        (Act.outcomes x commands s w).map (Outcome.seen view) := by
  induction commands generalizing s w with
  | nil => exact ⟨List.forall_mem_nil _, rfl⟩
  | cons command rest ih =>
    obtain ⟨hafter, hsame⟩ := h command s w hs
    obtain ⟨hholds, hrest⟩ := ih hafter (x command s w).server
    constructor
    · exact List.forall_mem_cons.mpr ⟨hafter, hholds⟩
    · rw [Act.outcomes, hsame]
      exact congrArg _ hrest

end Act.Refines

end DocScan
