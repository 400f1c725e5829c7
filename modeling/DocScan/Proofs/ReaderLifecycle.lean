import DocScan.Proofs.ReaderOpening
import DocScan.Proofs.ReadingFrame

/-!
# The life of a reader in a session

A reader is opened at most once and closed for good: from one command to the
next its state stays or moves on.  The state alone decides which commands are
refused or find nothing, and these have no event and change nothing.
-/

namespace DocScan

/-- How the state of a reader can change from one boundary to the next. -/
inductive ReaderState.Moves : ReaderState → ReaderState → Prop where
  | stays (state : ReaderState) : Moves state state
  | opens : Moves .uninitialized .initialized
  | closesOpened : Moves .initialized .closed
  | closesUnopened : Moves .uninitialized .closed

def ReaderPhase.cursor? : ReaderPhase → Option Cursor
  | .opened _ cursor => some cursor
  | .idle | .closed => none

namespace Reader

variable {r : Reader} {w : Server}

def cursor? (r : Reader) : Option Cursor := r.phase.cursor?

/-- The documents that were looked ahead and not yet handed out. -/
def lookahead (r : Reader) : List Value := (r.cursor?.bind Cursor.lookahead).toList

/-! ## What the state decides -/

theorem not_opened_of_state (h : r.state ≠ .initialized) (client : ℕ) (cursor : Cursor) :
    r.phase ≠ .opened client cursor := by
  intro hphase
  apply h
  rw [state, hphase]
  rfl

theorem phase_of_closed (h : r.state = .closed) : r.phase = .closed := by
  cases hphase : r.phase with
  | closed => rfl
  | idle | opened =>
    rw [state, hphase] at h
    contradiction

end Reader

namespace Session

variable {s : Session} {w : Server}

theorem init_of_state {data : Value} {p : Partition} (hp : Partition.ofArguments data = .ok p)
    (h : s.reader.state ≠ .uninitialized) :
    perform (.init data) s w = ⟨.error (.notInitializable s.reader.state), s, w, []⟩ := by
  have hphase : s.reader.phase ≠ .idle := by
    intro hidle
    apply h
    rw [Reader.state, hidle]
    rfl
  rw [perform_init, hp]
  simp only [Reader.init_of_not_idle hphase]
  rfl

theorem hasNext_of_state (h : s.reader.state ≠ .initialized) :
    perform .hasNext s w = ⟨.ok (.flag false), s, w, []⟩ :=
  SessionOf.perform_hasNext_none (Reader.hasNext_unopened (Reader.not_opened_of_state h))

theorem list_of_state (h : s.reader.state ≠ .initialized) :
    perform .list s w = ⟨.ok (.documents []), s, w, []⟩ :=
  SessionOf.perform_list_none (Reader.hasNext_unopened (Reader.not_opened_of_state h))

theorem iterNext_of_state (h : s.reader.state ≠ .initialized) (name : String) :
    perform (.iterNext name) s w =
      ⟨.error .exhausted, if s.isRunning name then s.withIterator name false else s, w, []⟩ :=
  SessionOf.perform_iterNext_none (Reader.hasNext_unopened (Reader.not_opened_of_state h)) name

/-! ## From command to command -/

theorem moves_init (data : Value) (s : Session) (w : Server) :
    ReaderState.Moves s.reader.state (perform (.init data) s w).state.reader.state ∧
      ((perform (.init data) s w).result.isOk = true → s.reader.state = .uninitialized ∧
        (perform (.init data) s w).state.reader.state = .initialized) := by
  rw [perform_init]
  cases Partition.ofArguments data with
  | error e => exact ⟨.stays _, fun hok => absurd hok (by simp [Except.isOk, Except.toBool])⟩
  | ok p =>
    rcases Reader.init_phase_cases p s.reader w with
      ⟨hidle, hok, hopened⟩ | ⟨failure, hfailure, hphase⟩
    · have hbefore : s.reader.state = .uninitialized := by
        rw [Reader.state, hidle]
        rfl
      have hafter : (Reader.init p s.reader w).state.state = .initialized := by
        rw [Reader.state, hopened]
        rfl
      simp only [withReader_reader, hbefore, hafter]
      exact ⟨.opens, fun _ => ⟨trivial, trivial⟩⟩
    · have hsame : (Reader.init p s.reader w).state.state = s.reader.state := by
        rw [Reader.state, hphase]
        rfl
      simp only [withReader_reader, hsame, hfailure]
      exact ⟨.stays _, fun hok => absurd hok (by simp [Except.map, Except.isOk, Except.toBool])⟩

theorem state_perform_close (s : Session) (w : Server) :
    (perform .close s w).state.reader.state = .closed := by
  rw [perform_close, withReader_reader, Reader.state, Reader.phase_close]
  rfl

theorem moves_close (s : Session) (w : Server) :
    ReaderState.Moves s.reader.state (perform .close s w).state.reader.state := by
  rw [state_perform_close]
  cases s.reader.state with
  | uninitialized => exact .closesUnopened
  | initialized => exact .closesOpened
  | closed => exact .stays _

theorem moves_perform (command : Command) (s : Session) (w : Server) :
    ReaderState.Moves s.reader.state (perform command s w).state.reader.state := by
  have hreads (hreads : command.Reads) :
      ReaderState.Moves s.reader.state (perform command s w).state.reader.state := by
    have hstate : (perform command s w).state.reader.state = s.reader.state :=
      (onlyReads_perform command hreads s w).state
    rw [hstate]
    exact .stays _
  cases command with
  | init data => exact (moves_init data s w).1
  | hasNext | next | list | iter | iterNext => exact hreads trivial
  | enter => exact .stays _
  | exit | close => exact moves_close s w

/-- Whether a command opened the reader. -/
def opens {ρ : Type} : Command × Outcome (SessionOf ρ) Answer → Bool
  | (.init _, o) => o.result.isOk
  | _ => false

theorem uninitialized_of_moves {before after : ReaderState} (h : before.Moves after)
    (hafter : after = .uninitialized) : before = .uninitialized := by
  cases h with
  | stays => exact hafter
  | opens | closesOpened | closesUnopened => contradiction

/-- From a reader that is no longer uninitialized none is opened, and otherwise
at most one. -/
theorem count_opens_le (commands : List Command) (s : Session) (w : Server) :
    (commands.zip (Act.outcomes perform commands s w)).countP opens ≤
      if s.reader.state = .uninitialized then 1 else 0 := by
  induction commands generalizing s w with
  | nil => exact Nat.zero_le _
  | cons command rest ih =>
    have hrest := ih (perform command s w).state (perform command s w).server
    have hmoves := moves_perform command s w
    rw [Act.outcomes, List.zip_cons_cons, List.countP_cons]
    by_cases hopens : opens (command, perform command s w) = true
    · cases command with
      | init data =>
        obtain ⟨hbefore, hafter⟩ := (moves_init data s w).2 hopens
        rw [if_neg (by rw [hafter]; decide)] at hrest
        rw [if_pos hopens, if_pos hbefore]
        omega
      | _ => contradiction
    · rw [if_neg hopens]
      by_cases hafter : (perform command s w).state.reader.state = .uninitialized
      · rw [if_pos hafter] at hrest
        rw [if_pos (uninitialized_of_moves hmoves hafter)]
        exact hrest
      · rw [if_neg hafter] at hrest
        exact hrest.trans (Nat.zero_le _)

theorem isChain_states (commands : List Command) (s : Session) (w : Server) :
    List.IsChain ReaderState.Moves
      (s.reader.state ::
        (Act.outcomes perform commands s w).map fun o => o.state.reader.state) := by
  induction commands generalizing s w with
  | nil => exact .singleton _
  | cons command rest ih => exact .cons_cons (moves_perform command s w) (ih _ _)

end Session

end DocScan
