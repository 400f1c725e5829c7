import DocScan.Proofs.ReaderLifecycle

/-!
# The numbers of clients are only names

A server that has made clients before numbers the next ones from there on.
Nothing in a session depends on where the numbers begin: from a server with `d`
more clients behind it, every command comes to the same result, and what it
leaves behind and what happens differ by `d` in the numbers of clients.
-/

namespace DocScan

/-! ## Counting from another number -/

/-- The event with another number of its client. -/
def Event.shift (d : ℕ) : Event → Event
  | .command client => .command (client + d)
  | .database client name => .database (client + d) name
  | .clientClose client => .clientClose (client + d)
  | e => e

def Server.shift (d : ℕ) (w : Server) : Server := { w with clients := w.clients + d }

def ReaderPhase.shift (d : ℕ) : ReaderPhase → ReaderPhase
  | .opened client cursor => .opened (client + d) cursor
  | phase => phase

def Reader.shift (d : ℕ) (r : Reader) : Reader := r.withPhase (r.phase.shift d)

def Session.shift (d : ℕ) (s : Session) : Session := s.withReader (s.reader.shift d)

variable {σ α β : Type} {d : ℕ}

/-- The same result, with other numbers of clients in what is left and in what
happened. -/
def Outcome.shift (d : ℕ) (onState : σ → σ) (o : Outcome σ α) : Outcome σ α :=
  ⟨o.result, onState o.state, o.server.shift d, o.events.map (Event.shift d)⟩

namespace Server

variable (w : Server) (p : Point)

@[simp] theorem shift_outcome : (w.shift d).outcome p = w.outcome p := rfl

@[simp] theorem shift_advance : (w.shift d).advance p = (w.advance p).shift d := rfl

@[simp] theorem shift_documents : (w.shift d).documents = w.documents := rfl

@[simp] theorem shift_clients : (w.shift d).clients = w.clients + d := rfl

end Server

namespace Reader

variable {r : Reader}

@[simp] theorem shift_phase (r : Reader) : (r.shift d).phase = r.phase.shift d := rfl

@[simp] theorem shift_state (r : Reader) : (r.shift d).state = r.state := by
  unfold state
  rw [shift_phase]
  cases r.phase <;> rfl

@[simp] theorem shift_withPhase (phase : ReaderPhase) :
    (r.withPhase phase).shift d = r.withPhase (phase.shift d) := rfl

/-- Only an opened reader has the number of a client. -/
theorem shift_unopened (h : ∀ client cursor, r.phase ≠ .opened client cursor) : r.shift d = r := by
  have hphase : r.phase.shift d = r.phase := by
    cases hphase : r.phase with
    | opened client cursor => exact absurd hphase (h client cursor)
    | idle | closed => rfl
  rw [shift, hphase]
  rfl

theorem shift_idle (h : r.phase = .idle) : r.shift d = r :=
  shift_unopened (by simp [h])

theorem phase_shift_unopened (h : ∀ client cursor, r.phase ≠ .opened client cursor) (client : ℕ)
    (cursor : Cursor) : (r.shift d).phase ≠ .opened client cursor := by
  rw [shift_unopened h]
  exact h client cursor

theorem phase_shift_opened {client : ℕ} {cursor : Cursor} (h : r.phase = .opened client cursor) :
    (r.shift d).phase = .opened (client + d) cursor := by
  rw [shift_phase, h]
  rfl

end Reader

/-! ## Steps of a reader -/

/-- A step that does not depend on where the numbers of clients begin. -/
def Act.Uniform (x : Act Reader α) : Prop :=
  ∀ d r w, x (r.shift d) (w.shift d) = (x r w).shift d (Reader.shift d)

namespace Act.Uniform

theorem pure (a : α) : (Pure.pure a : Act Reader α).Uniform := fun _ _ _ => rfl

theorem bind {x : Act Reader α} {f : α → Act Reader β} (hx : x.Uniform)
    (hf : ∀ a, (f a).Uniform) : (x >>= f).Uniform := by
  intro d r w
  rw [Act.bind_apply, Act.bind_apply, hx d r w]
  simp only [Outcome.shift]
  cases (x r w).result with
  | error e => rfl
  | ok a =>
    simp only
    rw [hf a d _ _]
    simp [Outcome.shift, Outcome.after]

end Act.Uniform

namespace Reader

theorem uniform_hasNext : hasNext.Uniform := by
  intro d r w
  by_cases hopened : ∃ client cursor, r.phase = .opened client cursor
  swap
  · have hunopened : ∀ client cursor, r.phase ≠ .opened client cursor :=
      fun client cursor hphase => hopened ⟨client, cursor, hphase⟩
    rw [hasNext_unopened (phase_shift_unopened hunopened), hasNext_unopened hunopened]
    rfl
  obtain ⟨client, ⟨position, _ | document⟩, hphase⟩ := hopened
  · rw [hasNext_fetch (phase_shift_opened hphase), hasNext_fetch hphase]
    simp only [Server.shift_outcome, Server.shift_documents, Server.shift_advance]
    cases w.outcome .fetch with
    | some report => rfl
    | none => cases w.documents[position]? <;> rfl
  · rw [hasNext_lookahead (phase_shift_opened hphase), hasNext_lookahead hphase]
    rfl

theorem uniform_next : next.Uniform := by
  intro d r w
  by_cases hopened : ∃ client cursor, r.phase = .opened client cursor
  swap
  · have hunopened : ∀ client cursor, r.phase ≠ .opened client cursor :=
      fun client cursor hphase => hopened ⟨client, cursor, hphase⟩
    rw [next_unopened (phase_shift_unopened hunopened), next_unopened hunopened]
    rfl
  obtain ⟨client, ⟨position, _ | document⟩, hphase⟩ := hopened
  · rw [next_fetch (phase_shift_opened hphase), next_fetch hphase]
    simp only [Server.shift_outcome, Server.shift_documents, Server.shift_advance]
    cases w.outcome .fetch with
    | some report => rfl
    | none => cases w.documents[position]? <;> rfl
  · rw [next_lookahead (phase_shift_opened hphase), next_lookahead hphase]
    rfl

theorem uniform_draw : draw.Uniform := by
  unfold draw Act.drawing
  apply uniform_hasNext.bind
  intro more
  cases more with
  | true => exact uniform_next.bind fun _ => .pure _
  | false => exact .pure _

theorem uniform_drawUpTo (limit : ℕ) : (Act.drawUpTo draw limit).Uniform := by
  induction limit with
  | zero => exact .pure _
  | succ limit ih =>
    unfold Act.drawUpTo
    apply uniform_draw.bind
    intro drawn
    cases drawn with
    | none => exact .pure _
    | some document => exact ih.bind fun _ => .pure _

theorem uniform_drawAll : drawAll.Uniform := by
  intro d r w
  exact uniform_drawUpTo (w.documents.length + 1) d r w

theorem uniform_close : close.Uniform := by
  intro d r w
  cases hphase : r.phase with
  | closed =>
    rw [shift_unopened (by simp [hphase]), close_closed hphase, close_closed hphase]
    simp [Outcome.shift, shift_unopened, hphase]
  | idle =>
    rw [shift_idle hphase, close_idle hphase, close_idle hphase]
    rfl
  | opened client cursor =>
    rw [close_opened (phase_shift_opened hphase), close_opened hphase, shift_state]
    rfl

end Reader

/-! ## Opening -/

namespace Stage

variable {s : σ} {w : Server} {xs : List (Stage σ)}

def shift (d : ℕ) : Stage σ → Stage σ
  | .reach p e surfaces => .reach p (e.shift d) surfaces
  | stage => stage

theorem run_shift (xs : List (Stage σ)) (s : σ) (w : Server) :
    run (xs.map (shift d)) s (w.shift d) =
      ⟨(run xs s w).failure, (run xs s w).state, (run xs s w).server.shift d,
        (run xs s w).events.map (Event.shift d)⟩ := by
  induction xs generalizing s w with
  | nil => rfl
  | cons stage rest ih =>
    have hfailure : (stage.shift d).failure? (w.shift d) = stage.failure? w := by
      cases stage <;> rfl
    have hchange : (stage.shift d).change s = stage.change s := by
      cases stage <;> rfl
    have hafter : (stage.shift d).after (w.shift d) = (stage.after w).shift d := by
      cases stage with
      | newClient => simp [shift, after, Server.shift, Nat.add_right_comm]
      | record | check | reach | update => rfl
    have hevents : (stage.shift d).events = stage.events.map (Event.shift d) := by
      cases stage <;> rfl
    rw [List.map_cons]
    cases hstage : stage.failure? w with
    | some failure =>
      rw [run_cons_of_failure (hfailure.trans hstage), run_cons_of_failure hstage, hafter, hevents]
    | none =>
      rw [run_cons (hfailure.trans hstage), run_cons hstage, hchange, hafter, ih, hevents]
      simp

end Stage

namespace Reader

variable {r : Reader} {p : Partition} {w : Server}

theorem openingStages_shift (r : Reader) (p : Partition) (client : ℕ) :
    r.openingStages p (client + d) = (r.openingStages p client).map (Stage.shift d) := by
  have hrestrict : (restrictStages p.range).map (Stage.shift d) = restrictStages p.range := by
    unfold restrictStages
    split
    · cases KeyRange.effective p.range.lower <;> cases KeyRange.effective p.range.upper <;> rfl
    · rfl
  have hquery : (r.queryStages p).map (Stage.shift d) = r.queryStages p := by
    unfold queryStages
    split
    · rfl
    · rw [List.map_append, List.map_append, hrestrict]
      cases r.config.batchSize <;> rfl
  have hconnect : (r.connectStages p).map (Stage.shift d) = r.connectStages p := by
    unfold connectStages factoryStages
    simp [Stage.shift, Event.shift, Function.comp_def]
  unfold openingStages cursorStages
  rw [List.map_append, List.map_append, hconnect, hquery]
  rfl

theorem opening_shift (r : Reader) (p : Partition) (w : Server) :
    r.opening p (w.shift d) =
      ⟨(r.opening p w).failure, (r.opening p w).state, (r.opening p w).server.shift d,
        (r.opening p w).events.map (Event.shift d)⟩ := by
  have hstages : r.openingStages p ((w.shift d).clients + 1) =
      (r.openingStages p (w.clients + 1)).map (Stage.shift d) := by
    rw [Server.shift_clients, Nat.add_right_comm]
    exact openingStages_shift r p (w.clients + 1)
  unfold opening
  rw [hstages, Stage.run_shift]

theorem init_shift_idle (hidle : r.phase = .idle) :
    init p r (w.shift d) = (init p r w).shift d (Reader.shift d) := by
  have hopening := opening_shift (d := d) r p w
  -- A reader that is not opened yet has no number in it.
  have hstate : (r.opening p w).state.shift d = (r.opening p w).state :=
    shift_idle ((phase_opening r p w).trans hidle)
  have hnext : w.clients + d + 1 = w.clients + 1 + d := Nat.add_right_comm _ _ _
  cases hfailure : (r.opening p w).failure with
  | none =>
    have hshifted : (r.opening p (w.shift d)).failure = none := by rw [hopening, hfailure]
    rw [init_of_complete hidle hshifted, init_of_complete hidle hfailure, hopening]
    simp [Outcome.shift, Event.shift, ReaderPhase.shift, hnext]
  | some failure =>
    have hshifted : (r.opening p (w.shift d)).failure = some failure := by rw [hopening, hfailure]
    cases hinterrupt : failure.isInterrupt with
    | true =>
      rw [init_of_interrupt hidle hshifted hinterrupt, init_of_interrupt hidle hfailure hinterrupt,
        hopening]
      simp [Outcome.shift, hstate]
    | false =>
      have hclients : (r.opening p (w.shift d)).server.clients = (w.shift d).clients ↔
          (r.opening p w).server.clients = w.clients := by
        simp [hopening]
      by_cases hsame : (r.opening p w).server.clients = w.clients
      · rw [init_of_failure_unconnected hidle hshifted hinterrupt (hclients.mpr hsame),
          init_of_failure_unconnected hidle hfailure hinterrupt hsame, hopening]
        simp [Outcome.shift, Event.shift, hstate]
      · rw [init_of_failure_connected hidle hshifted hinterrupt (fun h => hsame (hclients.mp h)),
          init_of_failure_connected hidle hfailure hinterrupt hsame, hopening]
        simp [Outcome.shift, Event.shift, hstate, hnext]

theorem uniform_init (p : Partition) : (init p).Uniform := by
  intro d r w
  by_cases hidle : r.phase = .idle
  · rw [shift_idle hidle]
    exact init_shift_idle hidle
  · have hshifted : (r.shift d).phase ≠ .idle := by
      rw [shift_phase]
      cases hphase : r.phase with
      | idle => exact absurd hphase hidle
      | opened | closed => exact nofun
    rw [init_of_not_idle hshifted, init_of_not_idle hidle, shift_state]
    rfl

end Reader

/-! ## Sessions -/

namespace Session

variable (d : ℕ) (s : Session) (w : Server)

theorem perform_shift (command : Command) :
    perform command (s.shift d) (w.shift d) = (perform command s w).shift d (Session.shift d) := by
  cases command with
  | init data =>
    rw [perform_init, perform_init]
    cases Partition.ofArguments data with
    | error e => rfl
    | ok p =>
      simp only [shift, withReader_reader, Reader.uniform_init p d s.reader w]
      rfl
  | hasNext =>
    rw [perform_hasNext, perform_hasNext, shift, withReader_reader, Reader.uniform_hasNext]
    rfl
  | next =>
    rw [perform_next, perform_next, shift, withReader_reader, Reader.uniform_next]
    rfl
  | list =>
    rw [perform_list, perform_list, shift, withReader_reader, Reader.uniform_drawAll]
    rfl
  | iter name => rfl
  | iterNext name =>
    have hsame : (s.shift d).isRunning name = s.isRunning name := rfl
    cases hrunning : s.isRunning name with
    | false =>
      rw [perform_iterNext_ended _ _ (hsame.trans hrunning), perform_iterNext_ended s w hrunning]
      rfl
    | true =>
      rw [perform_iterNext_running _ _ (hsame.trans hrunning),
        perform_iterNext_running s w hrunning, shift, withReader_reader, Reader.uniform_draw]
      simp only [Outcome.shift]
      cases (Reader.draw s.reader w).result with
      | error failure => rfl
      | ok found => cases found <;> rfl
  | enter => rfl
  | exit | close =>
    -- Leaving is closing, and is performed by the same definition.
    have hclose : perform .close (s.shift d) (w.shift d) =
        (perform .close s w).shift d (Session.shift d) := by
      rw [perform_close, perform_close, shift, withReader_reader, Reader.uniform_close]
      rfl
    exact hclose

theorem outcomes_shift (commands : List Command) :
    Act.outcomes perform commands (s.shift d) (w.shift d) =
      (Act.outcomes perform commands s w).map (Outcome.shift d (Session.shift d)) := by
  induction commands generalizing s w with
  | nil => rfl
  | cons command rest ih =>
    rw [Act.outcomes, Act.outcomes, List.map_cons, perform_shift]
    congr 1
    exact ih _ _

end Session

end DocScan
