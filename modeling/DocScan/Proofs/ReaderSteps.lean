import DocScan.Proofs.Steps
import DocScan.Reader

/-!
# What each step of an opened reader does

One equation for each way of reading and for closing says what it comes to in
each state of the reader.  Opening is treated on its own.
-/

namespace DocScan

namespace Reader

variable {r : Reader} {w : Server}

/-! ## Reading -/

theorem fetch_apply (client position : ℕ) (r : Reader) (w : Server) :
    fetch client position r w =
      match w.outcome .fetch with
      | some report =>
        ⟨.error (.reported report), r, w.advance .fetch, [.fetch position]⟩
      | none =>
        match w.documents[position]? with
        | none => ⟨.ok none, r, w.advance .fetch, [.fetch position]⟩
        | some document =>
          ⟨.ok (some document), r.withPhase (.opened client ⟨position + 1, none⟩),
            w.advance .fetch, [.fetch position]⟩ := by
  unfold fetch
  rw [Act.bind_apply, Act.fetch_apply]
  cases w.outcome .fetch with
  | some report => rfl
  | none => cases w.documents[position]? <;> rfl

theorem hasNext_lookahead {client position : ℕ} {document : Value}
    (h : r.phase = .opened client ⟨position, some document⟩) :
    hasNext r w = ⟨.ok true, r, w, []⟩ := by
  unfold hasNext
  rw [Act.get_bind, h]
  rfl

theorem hasNext_fetch {client position : ℕ} (h : r.phase = .opened client ⟨position, none⟩) :
    hasNext r w =
      match w.outcome .fetch with
      | some report =>
        ⟨if (Failure.reported report).isExhaustion then .ok false
          else .error (.reported report), r, w.advance .fetch, [.fetch position]⟩
      | none =>
        match w.documents[position]? with
        | none => ⟨.ok false, r, w.advance .fetch, [.fetch position]⟩
        | some document =>
          ⟨.ok true, r.withPhase (.opened client ⟨position + 1, some document⟩),
            w.advance .fetch, [.fetch position]⟩ := by
  unfold hasNext
  rw [Act.get_bind, h]
  simp only [Act.bind_apply, Act.orEnd_apply, fetch_apply]
  cases w.outcome .fetch with
  | some report =>
    cases hend : (Failure.reported report).isExhaustion with
    | true =>
      simp [hend]
      rfl
    | false => simp [hend]
  | none =>
    cases w.documents[position]? <;> rfl

theorem next_lookahead {client position : ℕ} {document : Value}
    (h : r.phase = .opened client ⟨position, some document⟩) :
    next r w = ⟨.ok document, r.withPhase (.opened client ⟨position, none⟩), w, []⟩ := by
  unfold next
  rw [Act.get_bind, h]
  rfl

theorem next_fetch {client position : ℕ} (h : r.phase = .opened client ⟨position, none⟩) :
    next r w =
      match w.outcome .fetch with
      | some report =>
        ⟨.error (.reported report), r, w.advance .fetch, [.fetch position]⟩
      | none =>
        match w.documents[position]? with
        | none => ⟨.error .exhausted, r, w.advance .fetch, [.fetch position]⟩
        | some document =>
          ⟨.ok document, r.withPhase (.opened client ⟨position + 1, none⟩),
            w.advance .fetch, [.fetch position]⟩ := by
  unfold next
  rw [Act.get_bind, h]
  simp only [Act.bind_apply, fetch_apply]
  cases w.outcome .fetch with
  | some report => rfl
  | none => cases w.documents[position]? <;> rfl

theorem hasNext_unopened (h : ∀ client cursor, r.phase ≠ .opened client cursor) :
    hasNext r w = ⟨.ok false, r, w, []⟩ := by
  unfold hasNext
  rw [Act.get_bind]
  cases hphase : r.phase with
  | opened client cursor => exact absurd hphase (h client cursor)
  | idle => rfl
  | closed => rfl

theorem next_unopened (h : ∀ client cursor, r.phase ≠ .opened client cursor) :
    next r w = ⟨.error .noCursor, r, w, []⟩ := by
  unfold next
  rw [Act.get_bind]
  cases hphase : r.phase with
  | opened client cursor => exact absurd hphase (h client cursor)
  | idle => rfl
  | closed => rfl

/-! ## Closing -/

theorem close_closed (h : r.phase = .closed) : close r w = ⟨.ok (), r, w, []⟩ := by
  unfold close
  rw [Act.get_bind, h]
  rfl

theorem close_idle (h : r.phase = .idle) :
    close r w = ⟨.ok (), r.withPhase .closed, w, [.log (.closing r.state.text)]⟩ := by
  unfold close
  rw [Act.get_bind, h]
  rfl

/-- Closing an opened reader closes its cursor and its client, whatever comes
of either. -/
theorem close_opened {client : ℕ} {cursor : Cursor} (h : r.phase = .opened client cursor) :
    close r w =
      ⟨match w.outcome .clientClose, w.outcome .cursorClose with
        | some report, _ => .error (.reported report)
        | none, some report => .error (.reported report)
        | none, none => .ok (),
        r.withPhase .closed, (w.advance .cursorClose).advance .clientClose,
        [.log (.closing r.state.text), .cursorClose, .clientClose client]⟩ := by
  have hclient : (w.advance .cursorClose).outcome .clientClose = w.outcome .clientClose := rfl
  unfold close release
  rw [Act.get_bind, h]
  simp only [Act.set_bind, Act.log_bind, Act.attempt_bind]
  have hcursor : Act.reach .cursorClose .cursorClose (r.withPhase .closed) w =
      ⟨match w.outcome .cursorClose with
        | some report => .error (.reported report)
        | none => .ok (),
        r.withPhase .closed, w.advance .cursorClose, [.cursorClose]⟩ := by
    unfold Act.reach
    cases w.outcome .cursorClose <;> rfl
  rw [hcursor]
  simp only [Act.reach_bind, hclient]
  cases w.outcome .clientClose with
  | some report => rfl
  | none => cases w.outcome .cursorClose <;> rfl

theorem phase_close (r : Reader) (w : Server) : (close r w).state.phase = .closed := by
  cases hphase : r.phase with
  | closed =>
    rw [close_closed hphase]
    exact hphase
  | idle =>
    rw [close_idle hphase]
    rfl
  | opened client cursor =>
    rw [close_opened hphase]
    rfl

end Reader

end DocScan
