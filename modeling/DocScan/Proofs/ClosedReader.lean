import DocScan.Proofs.ReaderLifecycle
import DocScan.Proofs.SessionDelivery

/-!
# A closed reader is silent

Closing takes everything from a reader before anything is released, so that it
is closed even when the release fails.  From then on no command finds anything
to do: not a second close, not an iterator that was left in the middle, and not
a document that was looked ahead.
-/

namespace DocScan

namespace Session

/-- An outcome that leaves no trace: nothing happens, the reader and the server
stay as they are, and no document is given. -/
structure Silent (r : Reader) (w : Server) (o : Outcome Session Answer) : Prop where
  events : o.events = []
  reader : o.state.reader = r
  server : o.server = w
  document : ∀ document, o.result ≠ .ok (.document document)
  documents : ∀ documents, o.result = .ok (.documents documents) → documents = []

variable {s : Session} {w : Server}

/-- Without an event and a change, only the answer is left to be looked at. -/
theorem Silent.of_answer {s' : Session} {result : Except Failure Answer}
    (hreader : s'.reader = s.reader)
    (hdocument : ∀ document, result ≠ .ok (.document document))
    (hdocuments : ∀ documents, result = .ok (.documents documents) → documents = []) :
    Silent s.reader w ⟨result, s', w, []⟩ :=
  ⟨rfl, hreader, rfl, hdocument, hdocuments⟩

theorem silent_init (data : Value) (h : s.reader.state = .closed) :
    Silent s.reader w (perform (.init data) s w) := by
  cases hp : Partition.ofArguments data with
  | error e =>
    rw [perform_init, hp]
    exact .of_answer rfl nofun nofun
  | ok p =>
    rw [init_of_state hp (by simp [h])]
    exact .of_answer rfl nofun nofun

theorem silent_close (h : s.reader.state = .closed) :
    Silent s.reader w (perform .close s w) := by
  rw [perform_close, Reader.close_closed (Reader.phase_of_closed h)]
  exact .of_answer rfl nofun nofun

/-- No command does anything with a closed reader. -/
theorem silent_perform (h : s.reader.state = .closed) (command : Command) :
    Silent s.reader w (perform command s w) := by
  have hunopened : s.reader.state ≠ .initialized := by simp [h]
  cases command with
  | init data => exact silent_init data h
  | hasNext =>
    rw [hasNext_of_state hunopened]
    exact .of_answer rfl nofun nofun
  | next =>
    rw [perform_next, Reader.next_unopened (Reader.not_opened_of_state hunopened)]
    exact .of_answer rfl nofun nofun
  | list =>
    rw [list_of_state hunopened]
    exact .of_answer rfl nofun fun documents hdocuments => by cases hdocuments; rfl
  | iter name =>
    rw [perform_iter]
    exact .of_answer rfl nofun nofun
  | iterNext name =>
    rw [iterNext_of_state hunopened]
    refine .of_answer ?_ nofun nofun
    split <;> rfl
  | enter =>
    rw [perform_enter]
    exact .of_answer rfl nofun nofun
  | exit | close => exact silent_close h

/-- Nor does any number of commands. -/
theorem silent_outcomes (h : s.reader.state = .closed) (commands : List Command) :
    ∀ o ∈ Act.outcomes perform commands s w, Silent s.reader w o := by
  induction commands generalizing s with
  | nil => exact List.forall_mem_nil _
  | cons command rest ih =>
    have hfirst : Silent s.reader w (perform command s w) := silent_perform h command
    rw [Act.outcomes, List.forall_mem_cons]
    refine ⟨hfirst, ?_⟩
    have hrest := ih (s := (perform command s w).state) (by rw [hfirst.reader, h])
    rw [hfirst.reader] at hrest
    rw [hfirst.server]
    exact hrest

theorem handedOut_closed (h : s.reader.state = .closed) (command : Command) :
    handedOut command s w = [] := by
  by_cases hlist : command = .list
  · subst hlist
    apply handedOut_of_documents
    rw [list_of_state (by simp [h])]
  · exact handedOut_of_ne hlist (silent_perform h command).document

theorem handedOutBy_closed (h : s.reader.state = .closed) (commands : List Command) :
    handedOutBy commands s w = [] := by
  induction commands generalizing s w with
  | nil => rfl
  | cons command rest ih =>
    have hafter : (perform command s w).state.reader.state = .closed := by
      rw [(silent_perform h command).reader, h]
    exact List.append_eq_nil_iff.mpr ⟨handedOut_closed h command, ih hafter⟩

/-! ## The command that closes -/

/-- An opened reader closes its cursor and then its client, whatever is reported
of either. -/
theorem events_perform_close (h : s.reader.state = .initialized) :
    ∃ client, s.reader.client? = some client ∧
      (perform .close s w).events =
        [.log (.closing "initialized"), .cursorClose, .clientClose client] := by
  cases hphase : s.reader.phase with
  | opened client cursor =>
    have hclient : s.reader.client? = some client := by
      rw [Reader.client?, hphase]
      rfl
    rw [perform_close, Reader.close_opened hphase, h]
    exact ⟨client, hclient, rfl⟩
  | idle | closed =>
    rw [Reader.state, hphase] at h
    contradiction

/-- Whatever was done in a session and whatever is reported while it is closed,
closing it leaves a closed reader, after which nothing happens any more and no
document is handed out. -/
theorem silent_once_closed (config : Config) (columns : List String) (filters : List Filter)
    (w : Server) (before later : List Command) {closing : Command}
    (hclosing : closing = .close ∨ closing = .exit) :
    let reached := Act.course perform before (.start (.fresh config columns filters)) w
    let closed := perform closing reached.state reached.server
    closed.state.reader.state = .closed ∧
      (reached.state.reader.state = .initialized →
        ∃ client, reached.state.reader.client? = some client ∧
          closed.events =
            [.log (.closing "initialized"), .cursorClose, .clientClose client]) ∧
      handedOutBy later closed.state closed.server = [] ∧
      ∀ o ∈ Act.outcomes perform later closed.state closed.server,
        Silent closed.state.reader closed.server o := by
  intro reached closed
  have hsame : closed = perform .close reached.state reached.server := by
    rcases hclosing with rfl | rfl <;> rfl
  have hstate : closed.state.reader.state = .closed := by
    rw [hsame]
    exact state_perform_close _ _
  refine ⟨hstate, ?_, handedOutBy_closed hstate later, silent_outcomes hstate later⟩
  intro hopened
  rw [hsame]
  exact events_perform_close hopened

/-- A reader is left in the middle of an iteration with a document looked ahead,
and neither its cursor nor its client can be closed. -/
theorem silent_once_closed_after_interrupt :
    let config : Config := ⟨"db", "docs", [], "_id", none, 5000, 10000, []⟩
    let data : Value := .dict [(.text "hosts", .list [.text "h"])]
    let interrupt : Report := ⟨.interrupt "KeyboardInterrupt", "stop"⟩
    let w : Server := ⟨[.int 1, .int 2, .int 3], fun point =>
      if point = .cursorClose then [some interrupt]
      else if point = .clientClose then [some ⟨.connection, "down"⟩]
      else [], 0⟩
    let before : List Command := [.init data, .iter "i", .iterNext "i", .hasNext]
    let later : List Command := [.next, .iterNext "i", .list, .iter "j", .iterNext "j",
      .init data, .close, .hasNext]
    let reached := Act.course perform before (.start (.fresh config [] [])) w
    let closed := perform .exit reached.state reached.server
    reached.state.reader.lookahead = [.int 2] ∧
      closed.result.isOk = false ∧
      closed.events = [.log (.closing "initialized"), .cursorClose, .clientClose 1] ∧
      closed.state.reader.state = .closed ∧
      (reached.state.reader.state = .initialized →
        ∃ client, reached.state.reader.client? = some client ∧
          closed.events =
            [.log (.closing "initialized"), .cursorClose, .clientClose client]) ∧
      handedOutBy later closed.state closed.server = [] ∧
      ∀ o ∈ Act.outcomes perform later closed.state closed.server,
        Silent closed.state.reader closed.server o := by
  refine ⟨?ahead, ?fails, ?events, silent_once_closed _ [] [] _ _ _ (.inr rfl)⟩
  case ahead => decide +kernel
  case fails => decide +kernel
  case events => decide +kernel

end Session

end DocScan
