import DocScan.Proofs.FieldAgreement
import DocScan.Proofs.ReaderLifecycle

/-!
# The states of a reader in a session

The fields of a reader agree at every boundary between two commands, whatever was
asked and whatever the server reported.  So a session with a reader as it is kept
does what a session with a reader in its phases does, command by command, and
what is proved of the one holds of the other.  The state says what the reader
holds and what it refuses.
-/

namespace DocScan

/-- Whether a failure says that the reader is in no state for what is asked.
The server can report a failure of that name too. -/
def Failure.isStateError : Failure → Bool
  | .notInitializable _ | .noCursor => true
  | .reported ⟨.ordinary name, _⟩ => name = "ReaderStateError"
  | _ => false

/-! ## What the state decides -/

namespace RawReader

variable {r : RawReader} {w : Server}

theorem Opened.events_next {client position : ℕ} (h : r.Opened client position none) :
    (next r w).events = [.fetch position] := by
  rw [next_fetch h.cursor h.buffer]
  cases w.outcome .fetch with
  | some report => rfl
  | none => cases w.documents[position]? <;> rfl

/-- A document in the buffer is the one that is given without a fetch. -/
theorem Agrees.buffer_eq_iff (h : r.Agrees) (document : Value) :
    r.buffer = [document] ↔ (next r w).result = .ok document ∧ (next r w).events = [] := by
  rcases h.cases with hunopened | ⟨client, position, _ | other, hopened⟩
  · rw [hunopened.buffer, next_cursorless hunopened.cursor]
    simp
  · rw [hopened.buffer, hopened.events_next]
    simp
  · rw [hopened.buffer, next_buffered hopened.cursor hopened.buffer]
    simp

/-- A document is asked for in the wrong state exactly when the refusal has no
event.  In the right state the report of the server is an event. -/
theorem Agrees.next_refused_iff (h : r.Agrees) :
    ((∃ failure, (next r w).result = .error failure ∧ failure.isStateError) ∧
      (next r w).events = []) ↔ r.state ≠ .initialized := by
  rcases h.cases with hunopened | ⟨client, position, _ | other, hopened⟩
  · rw [next_cursorless hunopened.cursor]
    exact ⟨fun _ => hunopened.state, fun _ => ⟨⟨.noCursor, rfl, rfl⟩, rfl⟩⟩
  · rw [hopened.events_next]
    simp [hopened.state]
  · rw [next_buffered hopened.cursor hopened.buffer]
    simp [hopened.state]

theorem Agrees.hasNext_of_state (h : r.Agrees) (hstate : r.state ≠ .initialized) :
    hasNext r w = ⟨.ok false, r, w, []⟩ := by
  have hcursor : r.cursor = none := by
    by_contra hsome
    exact hstate (h.cursor.mp (Option.isSome_iff_ne_none.mpr hsome))
  exact hasNext_cursorless hcursor (h.empty hstate)

end RawReader

namespace RawSession

open Session (Command Answer)
open SessionOf (perform start)

def Agrees (s : RawSession) : Prop := s.reader.Agrees

/-- The session with the phase that the fields of its reader amount to. -/
def toSession (s : RawSession) : Session := ⟨s.reader.toReader, s.iterators⟩

variable {α : Type} {s : RawSession} {w : Server}

/-! ## Refinement -/

theorem refines_onReader {x : Act RawReader α} {y : Act Reader α}
    (h : Act.Refines RawReader.Agrees RawReader.toReader x y) :
    Act.Refines Agrees toSession (SessionOf.onReader x) (SessionOf.onReader y) := by
  intro s w hs
  obtain ⟨hafter, hsame⟩ := h s.reader w hs
  refine ⟨hafter, ?_⟩
  have hreader : y s.toSession.reader w = (x s.reader w).seen RawReader.toReader := hsame
  rw [SessionOf.onReader, Act.focus, hreader]
  rfl

theorem refines_draw :
    Act.Refines RawReader.Agrees RawReader.toReader SessionOf.draw SessionOf.draw :=
  RawReader.refines_hasNext.drawing RawReader.refines_next

theorem refines_init (data : Value) :
    Act.Refines Agrees toSession (SessionOf.init data) (SessionOf.init data) := by
  unfold SessionOf.init
  cases Partition.ofArguments data with
  | error e => exact .fail (.partition e)
  | ok p => exact refines_onReader (RawReader.refines_init p)

theorem refines_withIterator (name : String) (running : Bool) :
    Act.Refines Agrees toSession (Act.modify (·.withIterator name running))
      (Act.modify (·.withIterator name running)) :=
  .modify (fun _ hs => hs) (fun _ _ => rfl)

theorem refines_iterNext (name : String) :
    Act.Refines Agrees toSession (SessionOf.iterNext name) (SessionOf.iterNext name) := by
  apply Act.Refines.get_bind
  intro s hs
  have hrunning : s.toSession.isRunning name = s.isRunning name := rfl
  rw [hrunning]
  cases s.isRunning name with
  | false => exact .fail .exhausted
  | true =>
    apply Act.Refines.bind (refines_onReader refines_draw).attempt
    intro drawn
    match drawn with
    | .ok (some document) => exact .pure document
    | .ok none => exact (refines_withIterator name false).bind fun _ => .fail .exhausted
    | .error failure => exact (refines_withIterator name false).bind fun _ => .fail failure

/-- Every command keeps the fields in agreement, and does what it does to a
reader in its phase. -/
theorem refines_perform (command : Command) :
    Act.Refines Agrees toSession (SessionOf.perform command) (Session.perform command) := by
  cases command with
  | init data => exact (refines_init data).bind fun _ => .pure _
  | hasNext => exact (refines_onReader RawReader.refines_hasNext).bind fun _ => .pure _
  | next => exact (refines_onReader RawReader.refines_next).bind fun _ => .pure _
  | list => exact (refines_onReader refines_draw.drawAll).bind fun _ => .pure _
  | iter name => exact (refines_withIterator name true).bind fun _ => .pure _
  | iterNext name => exact (refines_iterNext name).bind fun _ => .pure _
  | enter => exact .pure _
  | exit | close => exact (refines_onReader RawReader.refines_close).bind fun _ => .pure _

theorem agrees_start (config : Config) (columns : List String) (filters : List Filter) :
    Agrees (.start (.fresh config columns filters)) := by
  have hfresh : (RawReader.fresh config columns filters).Unopened := ⟨nofun, rfl, rfl, rfl⟩
  exact hfresh.agrees

/-- A session with a reader as it is kept comes to the same as a session with a
reader in its phases, command by command. -/
theorem outcomes_toSession (config : Config) (columns : List String) (filters : List Filter)
    (commands : List Command) (w : Server) :
    Act.outcomes Session.perform commands (.start (.fresh config columns filters)) w =
      (Act.outcomes SessionOf.perform commands (.start (.fresh config columns filters)) w).map
        (Outcome.seen toSession) :=
  (Act.Refines.outcomes refines_perform commands (agrees_start config columns filters) w).2

/-! ## At the boundaries -/

/-- What holds of a session at a boundary between two commands. -/
structure AtBoundary (s : RawSession) (w : Server) : Prop where
  fields : s.reader.Agrees
  ahead : ∀ document, s.reader.buffer = [document] ↔
    (perform .next s w).result = .ok (.document document) ∧ (perform .next s w).events = []
  init : ∀ data p, Partition.ofArguments data = .ok p → s.reader.state ≠ .uninitialized →
    perform (.init data) s w = ⟨.error (.notInitializable s.reader.state), s, w, []⟩
  next : ((∃ failure, (perform .next s w).result = .error failure ∧ failure.isStateError) ∧
    (perform .next s w).events = []) ↔ s.reader.state ≠ .initialized
  hasNext : s.reader.state ≠ .initialized → perform .hasNext s w = ⟨.ok (.flag false), s, w, []⟩
  list : s.reader.state ≠ .initialized → perform .list s w = ⟨.ok (.documents []), s, w, []⟩
  iterNext : s.reader.state ≠ .initialized → ∀ name, perform (.iterNext name) s w =
    ⟨.error .exhausted, if s.isRunning name then s.withIterator name false else s, w, []⟩

theorem perform_next (s : RawSession) (w : Server) :
    perform .next s w =
      ⟨(RawReader.next s.reader w).result.map .document,
        { s with reader := (RawReader.next s.reader w).state },
        (RawReader.next s.reader w).server, (RawReader.next s.reader w).events⟩ :=
  Act.bind_pure_apply s w (SessionOf.onReader RawReader.next) Answer.document

theorem init_of_state {data : Value} {p : Partition} (hp : Partition.ofArguments data = .ok p)
    (h : s.reader.state ≠ .uninitialized) :
    perform (.init data) s w = ⟨.error (.notInitializable s.reader.state), s, w, []⟩ := by
  have hrefused := RawReader.init_refused (w := w) h p
  have hinit : PartitionReader.init p s.reader w = RawReader.init p s.reader w := rfl
  simp only [perform, SessionOf.init, hp, Act.bind_apply, SessionOf.onReader, Act.focus, hinit,
    hrefused]

theorem atBoundary (hs : s.Agrees) (w : Server) : AtBoundary s w := by
  constructor
  · exact hs
  · intro document
    rw [RawReader.Agrees.buffer_eq_iff hs (w := w), perform_next]
    cases (RawReader.next s.reader w).result <;> simp [Except.map]
  · intro data p hp h
    exact init_of_state hp h
  · rw [← RawReader.Agrees.next_refused_iff hs (w := w), perform_next]
    cases (RawReader.next s.reader w).result <;> simp [Except.map]
  · intro h
    exact SessionOf.perform_hasNext_none (hs.hasNext_of_state h)
  · intro h
    exact SessionOf.perform_list_none (hs.hasNext_of_state h)
  · intro h name
    exact SessionOf.perform_iterNext_none (hs.hasNext_of_state h) name

/-- Whatever is asked of a session and whatever the server reports, the state of
the reader only moves on, at most one opening succeeds, and at every boundary the
fields of the reader agree and it does what its state says. -/
theorem follows_states (config : Config) (columns : List String) (filters : List Filter)
    (commands : List Command) (w : Server) :
    let s : RawSession := start (.fresh config columns filters)
    let outcomes := Act.outcomes perform commands s w
    s.reader.state = .uninitialized ∧
      List.IsChain ReaderState.Moves
        (s.reader.state :: outcomes.map fun o => o.state.reader.state) ∧
      (commands.zip outcomes).countP Session.opens ≤ 1 ∧
      AtBoundary s w ∧ ∀ o ∈ outcomes, AtBoundary o.state o.server := by
  intro s outcomes
  have hs : s.Agrees := agrees_start config columns filters
  obtain ⟨hagrees, hsame⟩ := Act.Refines.outcomes refines_perform commands hs w
  refine ⟨rfl, ?_, ?_, atBoundary hs w, fun o ho => atBoundary (hagrees o ho) o.server⟩
  · have hchain := Session.isChain_states commands s.toSession w
    rw [hsame, List.map_map] at hchain
    have hstates : outcomes.map (fun o => o.state.reader.state) =
        outcomes.map ((fun o => o.state.reader.state) ∘ Outcome.seen toSession) :=
      List.map_congr_left fun o ho => (hagrees o ho).state_toReader.symm
    rw [hstates]
    exact hchain
  · have hcount := Session.count_opens_le commands s.toSession w
    have hopens : (Session.opens ∘ Prod.map id (Outcome.seen toSession) :
        Command × Outcome RawSession Answer → Bool) = Session.opens := by
      funext ⟨command, o⟩
      cases command <;> rfl
    rw [hsame, List.zip_map_right, List.countP_map, hopens] at hcount
    exact hcount

end RawSession

end DocScan
