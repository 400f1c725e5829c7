import DocScan.Proofs.Steps

/-!
# Straight runs of stages

A step that only writes to the log, checks something, changes its state, and
asks the server, one after the other, is given by the list of what it does.
Running the list stops at the first stage that fails, and the event of that
stage is the last one.  When no point is reached twice, the outcomes that stand
first in the script decide everything.
-/

namespace DocScan

/-- What happens at one place of a straight run. -/
inductive Stage (σ : Type) where
  | record (r : LogRecord)
  | check (failure : Option Failure)
  | reach (p : Point) (e : Event) (surfaces : Report → Failure)
  | newClient
  | update (change : σ → σ)

/-- How far a run came: its failure if it did not come to the end, the state
and the server as they are left, and the events. -/
structure Progress (σ : Type) where
  failure : Option Failure
  state : σ
  server : Server
  events : List Event

namespace Stage

variable {σ : Type}

def failure? (w : Server) : Stage σ → Option Failure
  | .record _ | .newClient | .update _ => none
  | .check failure => failure
  | .reach p _ surfaces => (w.outcome p).map surfaces

def events : Stage σ → List Event
  | .record r => [.log r]
  | .check _ | .newClient | .update _ => []
  | .reach _ e _ => [e]

/-- The server after a stage, which a failing stage leaves in the same way. -/
def after (w : Server) : Stage σ → Server
  | .record _ | .check _ | .update _ => w
  | .reach p _ _ => w.advance p
  | .newClient => { w with clients := w.clients + 1 }

def change (s : σ) : Stage σ → σ
  | .update change => change s
  | .record _ | .check _ | .reach _ _ _ | .newClient => s

def points : Stage σ → List Point
  | .reach p _ _ => [p]
  | .record _ | .check _ | .newClient | .update _ => []

def makesClient : Stage σ → Bool
  | .newClient => true
  | .record _ | .check _ | .reach _ _ _ | .update _ => false

def run : List (Stage σ) → σ → Server → Progress σ
  | [], s, w => ⟨none, s, w, []⟩
  | stage :: rest, s, w =>
    match stage.failure? w with
    | some failure => ⟨some failure, s, stage.after w, stage.events⟩
    | none =>
      let later := run rest (stage.change s) (stage.after w)
      ⟨later.failure, later.state, later.server, stage.events ++ later.events⟩

variable {s : σ} {w : Server} {stage : Stage σ} {xs ys : List (Stage σ)}

theorem run_cons_of_failure {failure : Failure} (h : stage.failure? w = some failure) :
    run (stage :: xs) s w = ⟨some failure, s, stage.after w, stage.events⟩ := by
  rw [run, h]

theorem run_cons (h : stage.failure? w = none) :
    run (stage :: xs) s w =
      ⟨(run xs (stage.change s) (stage.after w)).failure,
        (run xs (stage.change s) (stage.after w)).state,
        (run xs (stage.change s) (stage.after w)).server,
        stage.events ++ (run xs (stage.change s) (stage.after w)).events⟩ := by
  rw [run, h]

theorem run_append_of_failure {failure : Failure} (h : (run xs s w).failure = some failure) :
    run (xs ++ ys) s w = run xs s w := by
  induction xs generalizing s w with
  | nil => contradiction
  | cons stage rest ih =>
    rw [List.cons_append]
    cases hstage : stage.failure? w with
    | some other => rw [run_cons_of_failure hstage, run_cons_of_failure hstage]
    | none =>
      rw [run_cons hstage] at h
      rw [run_cons hstage, run_cons hstage, ih h]

theorem run_append (h : (run xs s w).failure = none) :
    run (xs ++ ys) s w =
      ⟨(run ys (run xs s w).state (run xs s w).server).failure,
        (run ys (run xs s w).state (run xs s w).server).state,
        (run ys (run xs s w).state (run xs s w).server).server,
        (run xs s w).events ++ (run ys (run xs s w).state (run xs s w).server).events⟩ := by
  induction xs generalizing s w with
  | nil => rfl
  | cons stage rest ih =>
    rw [List.cons_append]
    cases hstage : stage.failure? w with
    | some failure =>
      rw [run_cons_of_failure hstage] at h
      contradiction
    | none =>
      rw [run_cons hstage] at h
      rw [run_cons hstage, run_cons hstage, ih h, List.append_assoc]

/-- A run that comes to the end emits the events of all stages and makes all
their changes. -/
theorem run_of_complete (h : (run xs s w).failure = none) :
    (run xs s w).events = xs.flatMap events ∧ (run xs s w).state = xs.foldl change s := by
  induction xs generalizing s w with
  | nil => exact ⟨rfl, rfl⟩
  | cons stage rest ih =>
    cases hstage : stage.failure? w with
    | some failure =>
      rw [run_cons_of_failure hstage] at h
      contradiction
    | none =>
      rw [run_cons hstage] at h ⊢
      have hrest := ih h
      constructor
      · rw [hrest.1, List.flatMap_cons]
      · rw [hrest.2, List.foldl_cons]

theorem mem_events_run {e : Event} (h : e ∈ (run xs s w).events) :
    e ∈ xs.flatMap events := by
  induction xs generalizing s w with
  | nil => contradiction
  | cons stage rest ih =>
    rw [List.flatMap_cons, List.mem_append]
    cases hstage : stage.failure? w with
    | some failure =>
      rw [run_cons_of_failure hstage] at h
      exact .inl h
    | none =>
      rw [run_cons hstage] at h
      rcases List.mem_append.mp h with hfirst | hrest
      · exact .inl hfirst
      · exact .inr (ih hrest)

/-- What holds of the state before a run holds after it, if every change keeps
it. -/
theorem run_induction {motive : σ → Prop} (hs : motive s)
    (hchange : ∀ stage ∈ xs, ∀ t, motive t → motive (stage.change t)) :
    motive (run xs s w).state := by
  induction xs generalizing s w with
  | nil => exact hs
  | cons stage rest ih =>
    cases hstage : stage.failure? w with
    | some failure =>
      rw [run_cons_of_failure hstage]
      exact hs
    | none =>
      rw [run_cons hstage]
      rw [List.forall_mem_cons] at hchange
      exact ih (hchange.1 s hs) hchange.2

/-! ## Runs that reach no point twice -/

theorem failure?_after {other : Stage σ} (h : List.Disjoint stage.points other.points) :
    other.failure? (stage.after w) = other.failure? w := by
  cases other with
  | record | check | newClient | update => rfl
  | reach q e surfaces =>
    have houtcome : (stage.after w).outcome q = w.outcome q := by
      cases stage with
      | record | check | newClient | update => rfl
      | reach p =>
        have hne : q ≠ p := by
          intro heq
          subst heq
          exact h List.mem_cons_self List.mem_cons_self
        simp [after, Server.outcome, Server.advance, hne]
    simp only [failure?, houtcome]

/-- A stage takes no outcome of a later one. -/
theorem failure?_after_of_nodup {first : Stage σ} {rest : List (Stage σ)}
    (hpoints : ((first :: rest).flatMap points).Nodup) {later : Stage σ} (hlater : later ∈ rest) :
    later.failure? (first.after w) = later.failure? w := by
  rw [List.flatMap_cons, List.nodup_append'] at hpoints
  rcases hpoints with ⟨-, -, hdisjoint⟩
  apply failure?_after
  intro p hfirst hp
  exact hdisjoint hfirst (List.mem_flatMap.mpr ⟨later, hlater, hp⟩)

/-- When no point is reached twice, a run either comes to the end because no
stage fails at the server as it stands, or stops at the first stage that
does. -/
theorem run_cases (hpoints : (xs.flatMap points).Nodup) :
    ((∀ stage ∈ xs, stage.failure? w = none) ∧ (run xs s w).failure = none) ∨
      ∃ before stage rest failure, xs = before ++ stage :: rest ∧
        (∀ earlier ∈ before, earlier.failure? w = none) ∧ stage.failure? w = some failure ∧
        run xs s w = ⟨some failure, before.foldl change s, (before ++ [stage]).foldl after w,
          (before ++ [stage]).flatMap events⟩ := by
  induction xs generalizing s w with
  | nil =>
    left
    exact ⟨List.forall_mem_nil _, rfl⟩
  | cons first rest ih =>
    have hrest : (rest.flatMap points).Nodup := by
      rw [List.flatMap_cons, List.nodup_append'] at hpoints
      exact hpoints.2.1
    have hsame : ∀ stage ∈ rest, stage.failure? (first.after w) = stage.failure? w :=
      fun stage hstage => failure?_after_of_nodup hpoints hstage
    cases hfirst : first.failure? w with
    | some failure =>
      right
      have hrun : run (first :: rest) s w = ⟨some failure, s, first.after w, first.events⟩ :=
        run_cons_of_failure hfirst
      exact ⟨[], first, rest, failure, rfl, List.forall_mem_nil _, hfirst, by simpa using hrun⟩
    | none =>
      have hrun : run (first :: rest) s w =
          ⟨(run rest (first.change s) (first.after w)).failure,
            (run rest (first.change s) (first.after w)).state,
            (run rest (first.change s) (first.after w)).server,
            first.events ++ (run rest (first.change s) (first.after w)).events⟩ :=
        run_cons hfirst
      rcases ih (s := first.change s) (w := first.after w) hrest with ⟨hall, hcomplete⟩ |
        ⟨before, stage, later, failure, hsplit, hbefore, hstage, hlater⟩
      · left
        constructor
        · rw [List.forall_mem_cons]
          exact ⟨hfirst, fun stage hstage => hsame stage hstage ▸ hall stage hstage⟩
        · rw [hrun]
          exact hcomplete
      · right
        have hsplitFirst : first :: rest = (first :: before) ++ stage :: later := by
          rw [hsplit, List.cons_append]
        have hearlier : ∀ earlier ∈ first :: before, earlier.failure? w = none := by
          rw [List.forall_mem_cons]
          constructor
          · exact hfirst
          · intro earlier hmem
            have hinRest : earlier ∈ rest := by
              rw [hsplit]
              exact List.mem_append_left _ hmem
            rw [← hsame earlier hinRest]
            exact hbefore earlier hmem
        have hfailing : stage.failure? w = some failure := by
          have hinRest : stage ∈ rest := by
            rw [hsplit]
            exact List.mem_append_right _ List.mem_cons_self
          rw [← hsame stage hinRest]
          exact hstage
        rw [hlater] at hrun
        exact ⟨first :: before, stage, later, failure, hsplitFirst, hearlier, hfailing, hrun⟩

theorem failure_run_eq_none_iff (hpoints : (xs.flatMap points).Nodup) :
    (run xs s w).failure = none ↔ ∀ stage ∈ xs, stage.failure? w = none := by
  rcases run_cases (s := s) (w := w) hpoints with ⟨hall, hcomplete⟩ |
    ⟨before, stage, rest, failure, hsplit, -, hstage, hrun⟩
  · exact ⟨fun _ => hall, fun _ => hcomplete⟩
  · have hmem : stage ∈ xs := by
      rw [hsplit]
      exact List.mem_append_right _ List.mem_cons_self
    constructor
    · intro hcomplete
      rw [hrun] at hcomplete
      contradiction
    · intro hall
      rw [hall stage hmem] at hstage
      contradiction

theorem script_run {q : Point} (h : ∀ stage ∈ xs, q ∉ stage.points) :
    (run xs s w).server.script q = w.script q := by
  induction xs generalizing s w with
  | nil => rfl
  | cons stage rest ih =>
    rw [List.forall_mem_cons] at h
    have hstage : (stage.after w).script q = w.script q := by
      cases stage with
      | record | check | newClient | update => rfl
      | reach p =>
        have hne : q ≠ p := fun heq => h.1 (List.mem_singleton.mpr heq)
        simp [after, Server.advance, hne]
    cases hfailure : stage.failure? w with
    | some failure =>
      rw [run_cons_of_failure hfailure]
      exact hstage
    | none =>
      rw [run_cons hfailure]
      exact (ih h.2).trans hstage

/-! ## Clients made by a run -/

theorem after_clients (stage : Stage σ) (w : Server) :
    (stage.after w).clients = w.clients + if stage.makesClient then 1 else 0 := by
  cases stage <;> rfl

theorem clients_foldl (xs : List (Stage σ)) (w : Server) :
    (xs.foldl after w).clients = w.clients + xs.countP makesClient := by
  induction xs generalizing w with
  | nil => rfl
  | cons stage rest ih =>
    rw [List.foldl_cons, ih, after_clients, List.countP_cons]
    omega

theorem clients_foldl_eq_iff (xs : List (Stage σ)) (w : Server) :
    (xs.foldl after w).clients = w.clients ↔ xs.any makesClient = false := by
  rw [clients_foldl, Nat.add_eq_left, List.countP_eq_zero, List.any_eq_false]

theorem makesClient_of_failure {failure : Failure} (h : stage.failure? w = some failure) :
    stage.makesClient = false := by
  cases stage with
  | record | check | reach | update => rfl
  | newClient => contradiction

theorem clients_run (h : ∀ stage ∈ xs, stage.makesClient = false) :
    (run xs s w).server.clients = w.clients := by
  induction xs generalizing s w with
  | nil => rfl
  | cons stage rest ih =>
    rw [List.forall_mem_cons] at h
    have hstage : (stage.after w).clients = w.clients := by
      rw [after_clients, h.1]
      rfl
    cases hfailure : stage.failure? w with
    | some failure =>
      rw [run_cons_of_failure hfailure]
      exact hstage
    | none =>
      rw [run_cons hfailure]
      exact (ih h.2).trans hstage

end Stage

/-! ## Steps that are straight runs -/

namespace Act

variable {σ α β : Type} {s : σ} {w : Server} {xs ys : List (Stage σ)} {a : α} {b : β}

def along (xs : List (Stage σ)) (a : α) : Act σ α := fun s w =>
  ⟨match (Stage.run xs s w).failure with
    | some failure => .error failure
    | none => .ok a,
    (Stage.run xs s w).state, (Stage.run xs s w).server, (Stage.run xs s w).events⟩

theorem along_of_failure {failure : Failure} (h : (Stage.run xs s w).failure = some failure) :
    along xs a s w = ⟨.error failure, (Stage.run xs s w).state, (Stage.run xs s w).server,
      (Stage.run xs s w).events⟩ := by
  rw [along, h]

theorem along_of_complete (h : (Stage.run xs s w).failure = none) :
    along xs a s w = ⟨.ok a, (Stage.run xs s w).state, (Stage.run xs s w).server,
      (Stage.run xs s w).events⟩ := by
  rw [along, h]

/-- Two straight runs in sequence are one. -/
theorem bind_along {x : Act σ α} {f : α → Act σ β} (hx : x s w = along xs a s w)
    (hf : (Stage.run xs s w).failure = none →
      f a (Stage.run xs s w).state (Stage.run xs s w).server =
        along ys b (Stage.run xs s w).state (Stage.run xs s w).server) :
    (x >>= f) s w = along (xs ++ ys) b s w := by
  rw [bind_apply, hx]
  cases hfailure : (Stage.run xs s w).failure with
  | some failure =>
    have hboth : Stage.run (xs ++ ys) s w = Stage.run xs s w :=
      Stage.run_append_of_failure hfailure
    have hbothFailure : (Stage.run (xs ++ ys) s w).failure = some failure := by
      rw [hboth, hfailure]
    rw [along_of_failure hfailure, along_of_failure hbothFailure, hboth]
  | none =>
    rw [along_of_complete hfailure]
    simp only
    rw [hf hfailure, along, along, Stage.run_append hfailure]
    rfl

theorem reach_along (p : Point) (e : Event) :
    (reach p e : Act σ Unit) = along [.reach p e .reported] () := by
  funext s w
  unfold reach along
  simp only [Stage.run, Stage.failure?]
  cases w.outcome p <;> rfl

theorem reach_bind_along {p : Point} {e : Event} {f : Unit → Act σ β}
    (hf : ∀ v, f () s v = along ys b s v) :
    (reach p e >>= f) s w = along (.reach p e .reported :: ys) b s w := by
  apply bind_along (congrFun₂ (reach_along p e) s w)
  intro hcomplete
  have hstate := (Stage.run_of_complete hcomplete).2
  rw [hstate]
  exact hf _

end Act

end DocScan
