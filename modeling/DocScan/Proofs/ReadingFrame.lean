import DocScan.Proofs.ReaderSteps
import DocScan.Proofs.SessionSteps

/-!
# Reading touches nothing but the cursor

Whatever state a reader is in, and whatever comes of its fetches, reading
leaves its state and its client as they are, makes no clients, and has no
events but fetches.  This holds of the commands of a session that read as well.
-/

namespace DocScan

def ReaderPhase.client? : ReaderPhase → Option ℕ
  | .opened client _ => some client
  | .idle | .closed => none

namespace Reader

variable {α β : Type} {r : Reader} {w : Server}

def client? (r : Reader) : Option ℕ := r.phase.client?

/-- What reading leaves as it was. -/
structure OnlyReads (r : Reader) (w : Server) (o : Outcome Reader α) : Prop where
  state : o.state.state = r.state
  client : o.state.client? = r.client?
  clients : o.server.clients = w.clients
  events : ∀ e ∈ o.events, ∃ position, e = .fetch position

namespace OnlyReads

theorem still (result : Except Failure α) : OnlyReads r w ⟨result, r, w, []⟩ := by
  constructor
  · rfl
  · rfl
  · rfl
  · intro e he
    contradiction

/-- A fetch, after which the reader is at most elsewhere with its cursor. -/
theorem fetched {client : ℕ} {cursor : Cursor} (h : r.phase = .opened client cursor)
    (result : Except Failure α) (after : Cursor) (position : ℕ) :
    OnlyReads r w ⟨result, r.withPhase (.opened client after), w.advance .fetch,
      [.fetch position]⟩ := by
  constructor
  · simp only [Reader.state, h]
    rfl
  · simp only [client?, h]
    rfl
  · rfl
  · intro e he
    exact ⟨position, List.mem_singleton.mp he⟩

theorem refused (result : Except Failure α) (position : ℕ) :
    OnlyReads r w ⟨result, r, w.advance .fetch, [.fetch position]⟩ := by
  constructor
  · rfl
  · rfl
  · rfl
  · intro e he
    exact ⟨position, List.mem_singleton.mp he⟩

theorem trans {first : Outcome Reader α} {second : Outcome Reader β} (hfirst : OnlyReads r w first)
    (hsecond : OnlyReads first.state first.server second) :
    OnlyReads r w (second.after first.events) := by
  constructor
  · exact hsecond.state.trans hfirst.state
  · exact hsecond.client.trans hfirst.client
  · exact hsecond.clients.trans hfirst.clients
  · intro e he
    rcases List.mem_append.mp he with hbefore | hafter
    · exact hfirst.events e hbefore
    · exact hsecond.events e hafter

theorem of_result {result : Except Failure α} {other : Except Failure β} {s : Reader}
    {v : Server} {events : List Event} (h : OnlyReads r w ⟨result, s, v, events⟩) :
    OnlyReads r w ⟨other, s, v, events⟩ :=
  ⟨h.state, h.client, h.clients, h.events⟩

theorem bind {x : Act Reader α} {f : α → Act Reader β} (hx : ∀ r w, OnlyReads r w (x r w))
    (hf : ∀ a r w, OnlyReads r w (f a r w)) (r : Reader) (w : Server) :
    OnlyReads r w ((x >>= f) r w) := by
  have hfirst := hx r w
  rw [Act.bind_apply]
  cases hresult : (x r w).result with
  | error failure => exact hfirst.of_result
  | ok a => exact hfirst.trans (hf a _ _)

end OnlyReads

theorem onlyReads_hasNext (r : Reader) (w : Server) : OnlyReads r w (hasNext r w) := by
  cases hphase : r.phase with
  | idle =>
    rw [hasNext_unopened (by simp [hphase])]
    exact .still _
  | closed =>
    rw [hasNext_unopened (by simp [hphase])]
    exact .still _
  | opened client cursor =>
    rcases cursor with ⟨position, _ | document⟩
    · rw [hasNext_fetch hphase]
      cases w.outcome .fetch with
      | some report => exact .refused _ position
      | none =>
        cases w.documents[position]? with
        | none => exact .refused _ position
        | some document => exact .fetched hphase _ _ position
    · rw [hasNext_lookahead hphase]
      exact .still _

theorem onlyReads_next (r : Reader) (w : Server) : OnlyReads r w (next r w) := by
  cases hphase : r.phase with
  | idle =>
    rw [next_unopened (by simp [hphase])]
    exact .still _
  | closed =>
    rw [next_unopened (by simp [hphase])]
    exact .still _
  | opened client cursor =>
    rcases cursor with ⟨position, _ | document⟩
    · rw [next_fetch hphase]
      cases w.outcome .fetch with
      | some report => exact .refused _ position
      | none =>
        cases w.documents[position]? with
        | none => exact .refused _ position
        | some document => exact .fetched hphase _ _ position
    · rw [next_lookahead hphase]
      constructor
      · simp only [Reader.state, hphase]
        rfl
      · simp only [client?, hphase]
        rfl
      · rfl
      · intro e he
        contradiction

theorem onlyReads_draw (r : Reader) (w : Server) : OnlyReads r w (draw r w) := by
  unfold draw Act.drawing
  apply OnlyReads.bind onlyReads_hasNext
  intro more r w
  cases more with
  | true => exact OnlyReads.bind onlyReads_next (fun _ _ _ => .still _) r w
  | false => exact .still _

theorem onlyReads_drawUpTo (limit : ℕ) (r : Reader) (w : Server) :
    OnlyReads r w (Act.drawUpTo draw limit r w) := by
  induction limit generalizing r w with
  | zero => exact .still _
  | succ limit ih =>
    unfold Act.drawUpTo
    apply OnlyReads.bind onlyReads_draw
    intro drawn r w
    cases drawn with
    | none => exact .still _
    | some document => exact OnlyReads.bind ih (fun _ _ _ => .still _) r w

theorem onlyReads_drawAll (r : Reader) (w : Server) : OnlyReads r w (drawAll r w) :=
  onlyReads_drawUpTo _ r w

end Reader

/-! ## Commands that read -/

namespace Session

/-- The commands that read documents. -/
def Command.Reads : Command → Prop
  | .hasNext | .next | .list | .iter _ | .iterNext _ => True
  | .init _ | .enter | .exit | .close => False

/-- What a command comes to for the reader of the session. -/
def readerOutcome (command : Command) (s : Session) (w : Server) : Outcome Reader Answer :=
  ⟨(perform command s w).result, (perform command s w).state.reader,
    (perform command s w).server, (perform command s w).events⟩

theorem onlyReads_iterNext (name : String) (s : Session) (w : Server) :
    Reader.OnlyReads s.reader w (readerOutcome (.iterNext name) s w) := by
  unfold readerOutcome
  cases hrunning : s.isRunning name with
  | false =>
    rw [perform_iterNext_ended s w hrunning]
    exact .still _
  | true =>
    have hdraw := Reader.onlyReads_draw s.reader w
    have hreader : (perform (.iterNext name) s w).state.reader =
        (Reader.draw s.reader w).state := by
      rw [perform_iterNext_running s w hrunning]
      dsimp only
      split <;> rfl
    rw [hreader, perform_iterNext_running s w hrunning]
    exact hdraw.of_result

theorem onlyReads_perform (command : Command) (hreads : command.Reads) (s : Session)
    (w : Server) : Reader.OnlyReads s.reader w (readerOutcome command s w) := by
  cases command with
  | hasNext =>
    rw [readerOutcome, perform_hasNext]
    exact (Reader.onlyReads_hasNext s.reader w).of_result
  | next =>
    rw [readerOutcome, perform_next]
    exact (Reader.onlyReads_next s.reader w).of_result
  | list =>
    rw [readerOutcome, perform_list]
    exact (Reader.onlyReads_drawAll s.reader w).of_result
  | iter name => exact .still _
  | iterNext name => exact onlyReads_iterNext name s w
  | init | enter | exit | close => contradiction

end Session

end DocScan
