import DocScan.Proofs.ClientLedger
import DocScan.Proofs.OpeningTrace
import DocScan.Proofs.ReadingFrame
import DocScan.Proofs.ServerProgress
import DocScan.Proofs.SessionSteps

/-!
# Every client is closed exactly once

Every command keeps the ledger of the clients: the one that the reader holds before it
and the one made by it are the ones it closes and the one that the reader holds
afterwards.  The ledgers of single commands add up to the ledger of a whole session,
whatever fails in it, as long as no interrupt cuts an opening short.
-/

namespace DocScan

def Event.closes : Event → Bool
  | .cursorClose | .clientClose _ => true
  | _ => false

/-! ## The balance of clients -/

namespace Reader

/-- How often a reader was closed. -/
def closings (r : Reader) : ℕ := if r.state = .closed then 1 else 0

/-- The ledger of the clients is kept, and a cursor is closed at most when the reader
is. -/
structure Balanced (r : Reader) (w : Server) (after : Reader) (v : Server)
    (events : List Event) : Prop where
  ledger : ClientLedger r.client? w after.client? v events
  cursor : events.count .cursorClose + r.closings ≤ after.closings

namespace Balanced

variable {r s t : Reader} {u v w : Server} {events later : List Event}

theorem trans (hfirst : Balanced r u s v events) (hsecond : Balanced s v t w later) :
    Balanced r u t w (events ++ later) := by
  constructor
  · exact hfirst.ledger.trans hsecond.ledger
  · have hbefore := hfirst.cursor
    have hafter := hsecond.cursor
    rw [List.count_append]
    omega

theorem of_quiet (hclient : s.client? = r.client?) (hstate : s.state = r.state)
    (hclients : v.clients = u.clients) (hclosing : ∀ n, .clientClose n ∉ events)
    (hcursor : .cursorClose ∉ events) : Balanced r u s v events := by
  constructor
  · rw [hclient]
    exact .of_quiet hclients hclosing
  · unfold closings
    rw [hstate, List.count_eq_zero.mpr hcursor, Nat.zero_add]

theorem still (r : Reader) (w : Server) : Balanced r w r w [] :=
  of_quiet rfl rfl rfl (fun _ => List.not_mem_nil) List.not_mem_nil

theorem of_onlyReads {α : Type} {o : Outcome Reader α} (h : OnlyReads r w o) :
    Balanced r w o.state o.server o.events := by
  apply of_quiet h.client h.state h.clients
  · intro n hn
    obtain ⟨position, hfetch⟩ := h.events _ hn
    contradiction
  · intro hcursor
    obtain ⟨position, hfetch⟩ := h.events _ hcursor
    contradiction

end Balanced

/-! ## The balance of opening and closing -/

variable {r : Reader} {p : Partition} {w : Server}

theorem closes_of_mem_restrictTrace {range : KeyRange} {e : Event} (h : e ∈ restrictTrace range) :
    e.closes = false := by
  unfold restrictTrace at h
  split at h
  · simp only [List.mem_append, List.mem_singleton, List.mem_map] at h
    rcases h with (rfl | ⟨bound, -, rfl⟩) | ⟨bound, -, rfl⟩ <;> rfl
  · contradiction

theorem closes_of_mem_queryStages {e : Event}
    (h : e ∈ (r.queryStages p).flatMap Stage.events) : e.closes = false := by
  unfold queryStages at h
  split at h
  · contradiction
  · simp only [List.flatMap_append, List.flatMap_cons, List.flatMap_nil, List.flatMap_map,
      Stage.events, events_restrictStages, List.nil_append, List.append_nil, List.mem_append,
      List.mem_singleton, List.mem_flatMap] at h
    rcases h with (rfl | ⟨size, -, rfl⟩) | hrange
    · rfl
    · rfl
    · exact closes_of_mem_restrictTrace hrange

theorem closes_of_mem_opening {e : Event} (h : e ∈ (r.opening p w).events) : e.closes = false := by
  have hmem := Stage.mem_events_run h
  unfold openingStages cursorStages at hmem
  rw [List.flatMap_append, List.flatMap_append, events_connectStages] at hmem
  simp only [List.flatMap_cons, List.flatMap_nil, Stage.events, List.mem_append, List.mem_cons,
    List.mem_map, List.not_mem_nil, or_false] at hmem
  rcases hmem with (⟨record, -, rfl⟩ | rfl | rfl) | (rfl | rfl | rfl) | hquery
  · rfl
  · rfl
  · rfl
  · rfl
  · rfl
  · rfl
  · exact closes_of_mem_queryStages hquery

theorem count_opening {e : Event} (h : e.closes = true) : (r.opening p w).events.count e = 0 := by
  rw [List.count_eq_zero]
  intro hmem
  rw [closes_of_mem_opening hmem] at h
  contradiction

theorem clientClose_not_mem_opening (n : ℕ) : .clientClose n ∉ (r.opening p w).events :=
  List.count_eq_zero.mp (count_opening rfl)

theorem client?_of_idle (hidle : r.phase = .idle) : r.client? = none := by
  rw [client?, hidle, ReaderPhase.client?]

theorem kept_opening (r : Reader) (p : Partition) (w : Server) :
    (r.opening p w).state.client? = r.client? ∧
      (r.opening p w).state.closings = r.closings := by
  rcases state_opening r p w with ⟨filters, hfilters⟩
  rw [hfilters]
  exact ⟨rfl, rfl⟩

/-- A reader that is opened holds the client that was made. -/
theorem balanced_init_of_complete (hidle : r.phase = .idle)
    (hopening : (r.opening p w).failure = none) :
    Balanced r w (init p r w).state (init p r w).server (init p r w).events := by
  have hmade : (r.opening p w).server.clients = w.clients + 1 := by
    rcases clients_opening r p w with hmade | ⟨-, hfailure⟩
    · exact hmade
    · exact absurd hopening hfailure
  rw [init_of_complete hidle hopening]
  constructor
  · rw [client?_of_idle hidle]
    exact .of_made hmade (by simp [clientClose_not_mem_opening])
  · rw [List.count_append, count_opening rfl]
    simp [closings, state, withPhase, ReaderPhase.state, hidle]

/-- A reader that is given up closes the client that was made. -/
theorem balanced_init_of_failure {failure : Failure} (hidle : r.phase = .idle)
    (hopening : (r.opening p w).failure = some failure) (hordinary : failure.isInterrupt = false) :
    Balanced r w (init p r w).state (init p r w).server (init p r w).events := by
  rcases kept_opening r p w with ⟨hclient, hclosings⟩
  rw [client?_of_idle hidle] at hclient
  rcases clients_opening r p w with hmade | ⟨hsame, -⟩
  · have hclients : (r.opening p w).server.clients ≠ w.clients := by
      omega
    rw [init_of_failure_connected hidle hopening hordinary hclients]
    constructor
    · rw [client?_of_idle hidle, hclient]
      have hopened : ClientLedger none w (some (w.clients + 1)) (r.opening p w).server
          (r.opening p w).events := .of_made hmade clientClose_not_mem_opening
      have hgiven : ClientLedger (some (w.clients + 1)) (r.opening p w).server none
          ((r.opening p w).server.advance .clientClose)
          [.log (.openFailed p.index failure.message), .clientClose (w.clients + 1)] :=
        .of_closed rfl rfl
      exact hopened.trans hgiven
    · rw [hclosings, List.count_append, count_opening rfl]
      simp
  · rw [init_of_failure_unconnected hidle hopening hordinary hsame]
    constructor
    · rw [client?_of_idle hidle, hclient]
      exact .of_quiet hsame (by simp [clientClose_not_mem_opening])
    · rw [hclosings, List.count_append, count_opening rfl]
      simp

theorem balanced_init (huninterrupted : w.OpensUninterrupted) :
    Balanced r w (init p r w).state (init p r w).server (init p r w).events := by
  by_cases hidle : r.phase = .idle
  · cases hopening : (r.opening p w).failure with
    | none => exact balanced_init_of_complete hidle hopening
    | some failure =>
      have hordinary := isInterrupt_of_opening huninterrupted hopening
      exact balanced_init_of_failure hidle hopening hordinary
  · rw [init_of_not_idle hidle]
    exact .still r w

theorem balanced_close (r : Reader) (w : Server) :
    Balanced r w (close r w).state (close r w).server (close r w).events := by
  cases hphase : r.phase with
  | closed =>
    rw [close_closed hphase]
    exact .still r w
  | idle =>
    rw [close_idle hphase]
    constructor
    · rw [client?_of_idle hphase]
      exact .of_quiet rfl (by simp)
    · simp [closings, state, withPhase, ReaderPhase.state, hphase]
  | opened client cursor =>
    have hclient : r.client? = some client := by
      rw [client?, hphase, ReaderPhase.client?]
    rw [close_opened hphase]
    constructor
    · rw [hclient]
      exact .of_closed rfl rfl
    · simp [closings, state, withPhase, ReaderPhase.state, hphase]

end Reader

/-! ## The balance of a session -/

theorem Server.OpensUninterrupted.onward {v w : Server} (h : w.OpensUninterrupted)
    (hv : w.Onward v) : v.OpensUninterrupted := by
  intro point hpoint report hreport
  exact h point hpoint report ((hv.script point).subset hreport)

namespace Session

variable {s : Session} {w : Server}

theorem balanced_perform (h : w.OpensUninterrupted) (command : Command) :
    Reader.Balanced s.reader w (perform command s w).state.reader (perform command s w).server
      (perform command s w).events := by
  cases command with
  | init data =>
    rw [perform_init]
    cases Partition.ofArguments data with
    | error e => exact .still s.reader w
    | ok p => exact Reader.balanced_init h
  | hasNext => exact .of_onlyReads (onlyReads_perform .hasNext trivial s w)
  | next => exact .of_onlyReads (onlyReads_perform .next trivial s w)
  | list => exact .of_onlyReads (onlyReads_perform .list trivial s w)
  | iter name => exact .still s.reader w
  | iterNext name => exact .of_onlyReads (onlyReads_iterNext name s w)
  | enter => exact .still s.reader w
  | exit =>
    rw [perform_exit, perform_close]
    exact Reader.balanced_close s.reader w
  | close =>
    rw [perform_close]
    exact Reader.balanced_close s.reader w

theorem balanced_course (h : w.OpensUninterrupted) (commands : List Command) :
    Reader.Balanced s.reader w (Act.course perform commands s w).state.reader
      (Act.course perform commands s w).server (Act.course perform commands s w).events := by
  induction commands generalizing s w with
  | nil => exact .still s.reader w
  | cons command rest ih =>
    have hlater := h.onward (movesOn_perform command s w)
    exact (balanced_perform h command).trans (ih hlater)

/-- Where the clients are that were made since a number was the last one, after the
events that happened since: only an opened reader holds one, and its cursor is closed
at most once. -/
structure Accounts (first : ℕ) (events : List Event) (r : Reader) (w : Server) : Prop
    extends ClientAccounts first events r.client? w where
  held : r.client?.isSome ↔ r.state = .initialized
  cursor : events.count .cursorClose ≤ 1

/-- A balance from a reader without a client accounts for all clients. -/
theorem accounts_of_balanced {r after : Reader} {v : Server} {events : List Event}
    (hnone : r.client? = none) (h : Reader.Balanced r w after v events) :
    Accounts w.clients events after v := by
  have hledger := h.ledger
  rw [hnone] at hledger
  refine ⟨hledger.accounts, ?_, ?_⟩
  · unfold Reader.client? Reader.state
    cases after.phase <;> simp [ReaderPhase.client?, ReaderPhase.state]
  · have hcursor := h.cursor
    unfold Reader.closings at hcursor
    split_ifs at hcursor <;> omega

theorem client?_perform_close (s : Session) (w : Server) :
    (perform .close s w).state.reader.client? = none := by
  rw [perform_close, withReader_reader, Reader.client?, Reader.phase_close]
  rfl

/-- After any commands, the clients that are not closed are the one that an
opened reader holds; and once the session is closed, there are none. -/
theorem clients_closed_once {config : Config} {columns : List String} {filters : List Filter}
    (h : w.OpensUninterrupted) (commands : List Command) :
    let reached := Act.course perform commands (.start (.fresh config columns filters)) w
    Accounts w.clients reached.events reached.state.reader reached.server ∧
      ∀ closing, closing = .close ∨ closing = .exit →
        let left := perform closing reached.state reached.server
        ∀ n, w.clients < n → n ≤ left.server.clients →
          (reached.events ++ left.events).count (.clientClose n) = 1 := by
  intro reached
  have hbalance := balanced_course (s := .start (.fresh config columns filters)) h commands
  constructor
  · exact accounts_of_balanced rfl hbalance
  · intro closing hclosing left n hfirst hlast
    have hleft : left = perform .close reached.state reached.server := by
      rcases hclosing with rfl | rfl <;> rfl
    have hreached : reached.server.OpensUninterrupted := h.onward (onward_course commands _ w)
    have hboth := (hbalance.trans (balanced_perform hreached closing)).ledger
    have hnone : left.state.reader.client? = none := by
      rw [hleft]
      exact client?_perform_close _ _
    rw [hnone] at hboth
    exact hboth.accounts.count_eq_one hfirst hlast

/-- Two attempts fail at different stages, the second after an ordinary
failure of the end of its client; the third succeeds, and an interrupt while
its cursor is closed still leaves no client behind. -/
theorem clients_closed_once_after_attempts :
    let config : Config := ⟨"db", "docs", [], "_id", none, 5000, 10000, []⟩
    let data : Value := .dict [(.text "hosts", .list [.text "h"])]
    let report : Report := ⟨.connection, "down"⟩
    let interrupt : Report := ⟨.interrupt "KeyboardInterrupt", "stop"⟩
    let w : Server := ⟨[.int 1, .int 2], fun point =>
      if point = .command then [some report]
      else if point = .find then [some report]
      else if point = .cursorClose then [some interrupt]
      else if point = .clientClose then [none, some report]
      else [], 0⟩
    let commands : List Command := [.init data, .init data, .init data, .next, .list]
    let reached := Act.course perform commands (.start (.fresh config [] [])) w
    w.OpensUninterrupted ∧ reached.state.reader.client? = some 3 ∧
      Accounts w.clients reached.events reached.state.reader reached.server ∧
      ∀ closing, closing = .close ∨ closing = .exit →
        let left := perform closing reached.state reached.server
        ∀ n, w.clients < n → n ≤ left.server.clients →
          (reached.events ++ left.events).count (.clientClose n) = 1 := by
  intro config data report interrupt w commands reached
  have huninterrupted : w.OpensUninterrupted := by
    intro point hpoint other hother
    cases point with
    | command | find =>
      cases List.mem_singleton.mp hother
      rfl
    | fetch | cursorClose | clientClose => exact absurd hpoint (by decide)
    | factory | database | collection | batchSize | hint | min | max =>
      exact absurd hother List.not_mem_nil
  have hheld : reached.state.reader.client? = some 3 := by
    decide +kernel
  exact ⟨huninterrupted, hheld, clients_closed_once huninterrupted commands⟩

end Session

end DocScan
