import DocScan.Proofs.ReaderOpening
import DocScan.Proofs.ReaderSteps
import DocScan.Proofs.Refinement
import DocScan.RawReader

/-!
# The fields of a reader agree

The state, the connection, the cursor and the buffer of a reader are changed one
after the other, and every operation looks at only one or two of them.  That
they go together is an invariant: the connection, which has its client, and the
cursor are there exactly while the reader is initialized, and only then is there
a document in the buffer, and at most one.  Every operation keeps it, wherever it
fails.  Where the fields agree they amount to a phase, and each operation does
what it does to a reader in that phase.
-/

namespace DocScan

namespace RawReader

/-- Which fields of a reader go together. -/
structure Agrees (r : RawReader) : Prop where
  connection : r.connection.isSome ↔ r.state = .initialized
  client : ∀ c, r.connection = some c → c.client.isSome
  cursor : r.cursor.isSome ↔ r.state = .initialized
  buffer : r.buffer.length ≤ 1
  empty : r.state ≠ .initialized → r.buffer = []

structure Opened (r : RawReader) (client position : ℕ) (lookahead : Option Value) : Prop where
  state : r.state = .initialized
  connection : ∃ c, r.connection = some c ∧ c.client = some client
  cursor : r.cursor = some position
  buffer : r.buffer = lookahead.toList

structure Unopened (r : RawReader) : Prop where
  state : r.state ≠ .initialized
  connection : r.connection = none
  cursor : r.cursor = none
  buffer : r.buffer = []

/-- The phase that the fields of a reader amount to. -/
def phase (r : RawReader) : ReaderPhase :=
  match r.state, r.connection.bind Connection.client, r.cursor with
  | .initialized, some client, some position => .opened client ⟨position, r.buffer.getLast?⟩
  | .closed, _, _ => .closed
  | _, _, _ => .idle

def toReader (r : RawReader) : Reader := ⟨r.config, r.columns, r.filters, r.phase⟩

variable {r : RawReader} {w : Server} {p : Partition} {client position : ℕ}
  {lookahead : Option Value}

/-! ## The two ways of agreeing -/

theorem Agrees.cases (h : r.Agrees) :
    r.Unopened ∨ ∃ client position lookahead, r.Opened client position lookahead := by
  by_cases hstate : r.state = .initialized
  · right
    obtain ⟨c, hc⟩ := Option.isSome_iff_exists.mp (h.connection.mpr hstate)
    obtain ⟨client, hclient⟩ := Option.isSome_iff_exists.mp (h.client c hc)
    obtain ⟨position, hposition⟩ := Option.isSome_iff_exists.mp (h.cursor.mpr hstate)
    refine ⟨client, position, r.buffer.head?, hstate, ⟨c, hc, hclient⟩, hposition, ?_⟩
    have hlength := h.buffer
    match r.buffer, hlength with
    | [], _ => rfl
    | [document], _ => rfl
  · left
    have hconnection : r.connection = none := by
      by_contra hsome
      exact hstate (h.connection.mp (Option.isSome_iff_ne_none.mpr hsome))
    have hcursor : r.cursor = none := by
      by_contra hsome
      exact hstate (h.cursor.mp (Option.isSome_iff_ne_none.mpr hsome))
    exact ⟨hstate, hconnection, hcursor, h.empty hstate⟩

theorem Unopened.agrees (h : r.Unopened) : r.Agrees := by
  constructor
  · simp [h.connection, h.state]
  · simp [h.connection]
  · simp [h.cursor, h.state]
  · simp [h.buffer]
  · exact fun _ => h.buffer

theorem Opened.agrees (h : r.Opened client position lookahead) : r.Agrees := by
  obtain ⟨c, hc, hclient⟩ := h.connection
  constructor
  · simp [hc, h.state]
  · simp [hc, hclient]
  · simp [h.cursor, h.state]
  · rw [h.buffer]
    exact Option.length_toList_le
  · exact fun hstate => absurd h.state hstate

theorem Opened.phase (h : r.Opened client position lookahead) :
    r.phase = .opened client ⟨position, lookahead⟩ := by
  obtain ⟨c, hc, hclient⟩ := h.connection
  have hlast : r.buffer.getLast? = lookahead := by
    rw [h.buffer]
    cases lookahead <;> rfl
  simp [RawReader.phase, h.state, hc, hclient, h.cursor, hlast]

theorem Unopened.phase (h : r.Unopened) :
    r.phase = if r.state = .closed then .closed else .idle := by
  cases hstate : r.state with
  | initialized => exact absurd hstate h.state
  | uninitialized | closed => simp [RawReader.phase, hstate]

theorem Unopened.not_opened (h : r.Unopened) (client : ℕ) (cursor : Cursor) :
    r.toReader.phase ≠ .opened client cursor := by
  have hphase : r.toReader.phase = if r.state = .closed then .closed else .idle := h.phase
  rw [hphase]
  split <;> exact nofun

/-- What the fields amount to has the state that the reader has. -/
theorem Agrees.state_toReader (h : r.Agrees) : r.toReader.state = r.state := by
  rw [toReader, Reader.state]
  rcases h.cases with hunopened | ⟨client, position, lookahead, hopened⟩
  · rw [hunopened.phase]
    cases hstate : r.state with
    | initialized => exact absurd hstate hunopened.state
    | uninitialized | closed => rfl
  · rw [hopened.phase, hopened.state]
    rfl

/-! ## Reading -/

theorem fetch_apply (position : ℕ) (r : RawReader) (w : Server) :
    fetch position r w =
      match w.outcome .fetch with
      | some report => ⟨.error (.reported report), r, w.advance .fetch, [.fetch position]⟩
      | none =>
        match w.documents[position]? with
        | none => ⟨.ok none, r, w.advance .fetch, [.fetch position]⟩
        | some document =>
          ⟨.ok (some document), r.withCursor (some (position + 1)), w.advance .fetch,
            [.fetch position]⟩ := by
  unfold fetch
  rw [Act.bind_apply, Act.fetch_apply]
  cases w.outcome .fetch with
  | some report => rfl
  | none => cases w.documents[position]? <;> rfl

theorem next_cursorless (h : r.cursor = none) : next r w = ⟨.error .noCursor, r, w, []⟩ := by
  unfold next
  rw [Act.get_bind, h]
  rfl

theorem next_buffered {document : Value} (hcursor : r.cursor = some position)
    (hbuffer : r.buffer = [document]) : next r w = ⟨.ok document, r.withBuffer [], w, []⟩ := by
  unfold next
  rw [Act.get_bind, hcursor]
  simp only [hbuffer]
  simp [Act.modify_bind, hbuffer, Act.pure_apply]

theorem next_fetch (hcursor : r.cursor = some position) (hbuffer : r.buffer = []) :
    next r w =
      match w.outcome .fetch with
      | some report => ⟨.error (.reported report), r, w.advance .fetch, [.fetch position]⟩
      | none =>
        match w.documents[position]? with
        | none => ⟨.error .exhausted, r, w.advance .fetch, [.fetch position]⟩
        | some document =>
          ⟨.ok document, r.withCursor (some (position + 1)), w.advance .fetch,
            [.fetch position]⟩ := by
  unfold next
  rw [Act.get_bind, hcursor]
  simp only [hbuffer, List.getLast?_nil, Act.bind_apply, fetch_apply]
  cases w.outcome .fetch with
  | some report => rfl
  | none => cases w.documents[position]? <;> rfl

theorem hasNext_buffered {document : Value} (h : r.buffer = [document]) :
    hasNext r w = ⟨.ok true, r, w, []⟩ := by
  unfold hasNext
  rw [Act.get_bind, h]
  rfl

theorem hasNext_cursorless (hcursor : r.cursor = none) (hbuffer : r.buffer = []) :
    hasNext r w = ⟨.ok false, r, w, []⟩ := by
  unfold hasNext
  rw [Act.get_bind, hcursor, hbuffer]
  rfl

theorem hasNext_fetch (hcursor : r.cursor = some position) (hbuffer : r.buffer = []) :
    hasNext r w =
      match w.outcome .fetch with
      | some report =>
        ⟨if (Failure.reported report).isExhaustion then .ok false
          else .error (.reported report), r, w.advance .fetch, [.fetch position]⟩
      | none =>
        match w.documents[position]? with
        | none => ⟨.ok false, r, w.advance .fetch, [.fetch position]⟩
        | some document =>
          ⟨.ok true, (r.withCursor (some (position + 1))).withBuffer [document],
            w.advance .fetch, [.fetch position]⟩ := by
  unfold hasNext
  rw [Act.get_bind, hcursor, hbuffer]
  simp only [Act.bind_apply, Act.orEnd_apply, fetch_apply]
  cases w.outcome .fetch with
  | some report =>
    cases hend : (Failure.reported report).isExhaustion with
    | true =>
      simp [hend]
      rfl
    | false => simp [hend]
  | none =>
    cases w.documents[position]? with
    | none => rfl
    | some document => simp [Act.modify_bind, hbuffer, withCursor, Act.pure_apply]

theorem Opened.fetched (h : r.Opened client position none) :
    (r.withCursor (some (position + 1))).Opened client (position + 1) none :=
  ⟨h.state, h.connection, rfl, h.buffer⟩

theorem Opened.buffered (h : r.Opened client position none) (document : Value) :
    (r.withBuffer [document]).Opened client position (some document) :=
  ⟨h.state, h.connection, h.cursor, rfl⟩

theorem Opened.popped {document : Value} (h : r.Opened client position (some document)) :
    (r.withBuffer []).Opened client position none :=
  ⟨h.state, h.connection, h.cursor, rfl⟩

/-- The fields after a step that only reads amount to another place of the
cursor. -/
theorem Opened.seen {α : Type} {after : RawReader} (h : after.Opened client position lookahead)
    (hafter : after.toReader = r.toReader.withPhase after.phase) (result : Except Failure α)
    (w : Server) (events : List Event) :
    after.Agrees ∧
      (⟨result, r.toReader.withPhase (.opened client ⟨position, lookahead⟩), w, events⟩ :
        Outcome Reader α) = Outcome.seen toReader ⟨result, after, w, events⟩ := by
  refine ⟨h.agrees, ?_⟩
  rw [Outcome.seen, hafter, h.phase]

theorem refines_next : Act.Refines Agrees toReader next Reader.next := by
  intro r w hr
  rcases hr.cases with hunopened | ⟨client, position, _ | document, hopened⟩
  · rw [next_cursorless hunopened.cursor, Reader.next_unopened hunopened.not_opened]
    exact ⟨hr, rfl⟩
  · rw [next_fetch hopened.cursor hopened.buffer, Reader.next_fetch hopened.phase]
    cases w.outcome .fetch with
    | some report => exact ⟨hr, rfl⟩
    | none =>
      cases w.documents[position]? with
      | none => exact ⟨hr, rfl⟩
      | some document => exact hopened.fetched.seen rfl _ _ _
  · rw [next_buffered hopened.cursor hopened.buffer, Reader.next_lookahead hopened.phase]
    exact hopened.popped.seen rfl _ _ _

theorem refines_hasNext : Act.Refines Agrees toReader hasNext Reader.hasNext := by
  intro r w hr
  rcases hr.cases with hunopened | ⟨client, position, _ | document, hopened⟩
  · rw [hasNext_cursorless hunopened.cursor hunopened.buffer,
      Reader.hasNext_unopened hunopened.not_opened]
    exact ⟨hr, rfl⟩
  · rw [hasNext_fetch hopened.cursor hopened.buffer, Reader.hasNext_fetch hopened.phase]
    cases w.outcome .fetch with
    | some report => exact ⟨hr, rfl⟩
    | none =>
      cases w.documents[position]? with
      | none => exact ⟨hr, rfl⟩
      | some document => exact (hopened.fetched.buffered document).seen rfl _ _ _
  · rw [hasNext_buffered hopened.buffer, Reader.hasNext_lookahead hopened.phase]
    exact ⟨hr, rfl⟩

/-! ## Closing -/

/-- The reader with everything taken from it. -/
def emptied (r : RawReader) : RawReader :=
  (((r.withCursor none).withConnection none).withBuffer []).withState .closed

theorem unopened_emptied (r : RawReader) : r.emptied.Unopened :=
  ⟨nofun, rfl, rfl, rfl⟩

/-- A closed reader that has nothing is left as it was. -/
theorem Unopened.emptied_eq (h : r.Unopened) (hclosed : r.state = .closed) : r.emptied = r := by
  obtain ⟨config, columns, filters, state, connection, cursor, buffer⟩ := r
  obtain ⟨-, rfl, rfl, rfl⟩ := h
  obtain rfl : state = .closed := hclosed
  rfl

theorem close_unopened (h : r.Unopened) :
    close r w =
      ⟨.ok (), r.emptied, w,
        if r.state = .closed then [] else [.log (.closing r.state.text)]⟩ := by
  unfold close
  rw [Act.get_bind, h.cursor, h.connection]
  cases hstate : r.state with
  | initialized => exact absurd hstate h.state
  | uninitialized | closed => rfl

theorem closeConnection_some {c : Connection} (hclient : c.client = some client)
    (r : RawReader) (w : Server) :
    closeConnection (some c) r w =
      ⟨match w.outcome .clientClose with
        | some report => .error (.reported report)
        | none => .ok (), r, w.advance .clientClose, [.clientClose client]⟩ := by
  apply (Act.discard_within r w c Connection.close).trans
  rw [Connection.close_connected hclient]
  cases w.outcome .clientClose <;> rfl

theorem close_opened (h : r.Opened client position lookahead) :
    close r w =
      ⟨match w.outcome .clientClose, w.outcome .cursorClose with
        | some report, _ => .error (.reported report)
        | none, some report => .error (.reported report)
        | none, none => .ok (),
        r.emptied, (w.advance .cursorClose).advance .clientClose,
        [.log (.closing r.state.text), .cursorClose, .clientClose client]⟩ := by
  obtain ⟨c, hc, hclient⟩ := h.connection
  have hserver : (w.advance .cursorClose).outcome .clientClose = w.outcome .clientClose := rfl
  have hcursor (s : RawReader) : closeCursor (some position) s w =
      ⟨match w.outcome .cursorClose with
        | some report => .error (.reported report)
        | none => .ok (), s, w.advance .cursorClose, [.cursorClose]⟩ := by
    have hreach : closeCursor (some position) = Act.reach .cursorClose .cursorClose := rfl
    rw [hreach, Act.reach]
    cases w.outcome .cursorClose <;> rfl
  unfold close emptied
  rw [Act.get_bind, h.cursor, hc, h.state]
  simp only [Act.modify_bind, ne_eq, reduceCtorEq, not_false_eq_true, if_true, Act.log_bind,
    Act.attempt_bind, hcursor]
  rw [Act.bind_apply, closeConnection_some hclient, hserver]
  cases w.outcome .clientClose with
  | some report => rfl
  | none => cases w.outcome .cursorClose <;> rfl

theorem refines_close : Act.Refines Agrees toReader close Reader.close := by
  intro r w hr
  have hafter : r.emptied.toReader = r.toReader.withPhase .closed := rfl
  rcases hr.cases with hunopened | ⟨client, position, lookahead, hopened⟩
  · by_cases hclosed : r.state = .closed
    · have hphase : r.toReader.phase = .closed := hunopened.phase.trans (if_pos hclosed)
      rw [close_unopened hunopened, Reader.close_closed hphase, if_pos hclosed,
        hunopened.emptied_eq hclosed]
      exact ⟨hr, rfl⟩
    · have hphase : r.toReader.phase = .idle := hunopened.phase.trans (if_neg hclosed)
      rw [close_unopened hunopened, Reader.close_idle hphase, if_neg hclosed, hr.state_toReader]
      exact ⟨r.unopened_emptied.agrees, rfl⟩
  · rw [close_opened hopened, Reader.close_opened hopened.phase, hr.state_toReader]
    exact ⟨r.unopened_emptied.agrees, rfl⟩

/-! ## Opening -/

theorem init_refused (h : r.state ≠ .uninitialized) (p : Partition) :
    init p r w = ⟨.error (.notInitializable r.state), r, w, []⟩ := by
  unfold init
  rw [Act.get_bind, if_pos h]
  rfl

/-- The reader with a connection and a cursor at the first document. -/
def holding (r : RawReader) (connection : Connection) : RawReader :=
  ((r.withConnection (some connection)).withCursor (some 0)).withState .initialized

theorem init_uninitialized (h : r.state = .uninitialized) (p : Partition) :
    init p r w =
      let o := Reader.establish p r.unopened w
      let left := { r with filters := o.state.filters }
      match o.result with
      | .error failure => ⟨.error failure, left, o.server, o.events⟩
      | .ok (_, connection, query, projection) =>
        ⟨.ok (), left.holding connection, o.server,
          o.events ++ (Reader.logOpened p query projection r.unopened o.server).events⟩ := by
  unfold init
  rw [Act.get_bind, if_neg (not_not_intro h), Act.bind_apply]
  simp only [opening, Act.focus]
  cases (Reader.establish p r.unopened w).result with
  | error failure => rfl
  | ok made => rfl

theorem Unopened.toReader_eq (h : r.Unopened) (hstate : r.state = .uninitialized) :
    r.toReader = r.unopened := by
  have hphase : r.phase = .idle := h.phase.trans (if_neg (by simp [hstate]))
  rw [toReader, hphase]
  rfl

theorem refines_init (p : Partition) : Act.Refines Agrees toReader (init p) (Reader.init p) := by
  intro r w hr
  by_cases hstate : r.state = .uninitialized
  · rcases hr.cases with hunopened | ⟨client, position, lookahead, hopened⟩
    swap
    · exact absurd (hopened.state.symm.trans hstate) (by decide)
    obtain ⟨⟨filters, hfilters⟩, hkept⟩ := Reader.establish_cases p r.unopened w
    have hreader := hunopened.toReader_eq hstate
    have hleft : Unopened { r with filters := filters } :=
      ⟨hunopened.state, hunopened.connection, hunopened.cursor, hunopened.buffer⟩
    rw [init_uninitialized hstate, hreader, Reader.init_of_establish rfl]
    simp only [hfilters]
    cases hresult : (Reader.establish p r.unopened w).result with
    | error failure =>
      refine ⟨hleft.agrees, ?_⟩
      rw [Outcome.seen, hleft.toReader_eq hstate]
      rfl
    | ok made =>
      obtain ⟨client, connection, query, projection⟩ := made
      have hopened : Opened (holding { r with filters := filters } connection) client 0 none :=
        ⟨rfl, ⟨connection, rfl, hkept _ hresult⟩, rfl, hunopened.buffer⟩
      refine ⟨hopened.agrees, ?_⟩
      rw [Outcome.seen, toReader, hopened.phase]
      rfl
  · have hphase : r.toReader.phase ≠ .idle := by
      intro hidle
      apply hstate
      rw [← hr.state_toReader, Reader.state, hidle]
      rfl
    rw [init_refused hstate, Reader.init_of_not_idle hphase, hr.state_toReader]
    exact ⟨hr, rfl⟩

end RawReader

end DocScan
