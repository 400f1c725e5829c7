import DocScan.Proofs.OpeningStages

/-!
# Opening a reader

Opening an idle reader runs the stages of opening.  If one of them fails, the
reader is given up, which closes the client if it was made.  An interrupt cuts
the opening short and leaves everything as it is.
-/

namespace DocScan

namespace Reader

variable {r : Reader} {p : Partition} {w : Server}

/-! ## Running the stages -/

def connectedTo (r : Reader) (p : Partition) (client : ℕ) : Connection :=
  { r.connectionTo p.hosts with client := some client }

theorem run_notes (records : List LogRecord) (s : Reader) (w : Server) :
    Stage.run (records.map Stage.record) s w = ⟨none, s, w, records.map .log⟩ := by
  induction records with
  | nil => rfl
  | cons record rest ih =>
    rw [List.map_cons, Stage.run_cons rfl]
    simp only [Stage.change, Stage.after, Stage.events, ih]
    rfl

theorem connect_along (r : Reader) (p : Partition) (w : Server) :
    connect p r w =
      Act.along (r.connectStages p) (w.clients + 1, r.connectedTo p (w.clients + 1)) r w := by
  unfold connect connectStages factoryStages
  rw [Act.get_bind, List.cons_append, List.cons_append, List.append_assoc]
  cases hclash : clash? r.config.clientOptions with
  | some failure => rfl
  | none =>
    have hmade := Connection.connect_unconnected (c := r.connectionTo p.hosts) (w := w) rfl
    simp only [Act.within, hmade, Act.along]
    rw [Stage.run_cons rfl]
    simp only [Stage.change, Stage.after]
    rw [Stage.run_append (by rw [run_notes]), run_notes]
    cases hrepeated : (r.connectionTo p.hosts).repeatedOption? with
    | some key =>
      simp [Stage.run, Stage.failure?, Stage.events, Stage.after, Except.map]
    | none =>
      cases hfactory : w.outcome .factory with
      | some report =>
        simp [Stage.run, Stage.failure?, Stage.events, Stage.after, Stage.change, Except.map,
          hfactory]
      | none =>
        simp [Stage.run, Stage.failure?, Stage.events, Stage.after, Stage.change, Except.map,
          hfactory, connectedTo, connectionTo, Connection.unconnected, Server.advance]

theorem restrict_along (range : KeyRange) (r : Reader) (w : Server) :
    restrict range r w = Act.along (restrictStages range) () r w := by
  unfold restrict restrictStages
  cases hbounded : range.isBounded with
  | false => rfl
  | true =>
    simp only [if_true]
    apply Act.reach_bind_along
    intro v
    cases KeyRange.effective range.lower with
    | none =>
      cases KeyRange.effective range.upper with
      | none => rfl
      | some bound => exact congrFun₂ (Act.reach_along _ _) r v
    | some bound =>
      apply Act.reach_bind_along
      intro u
      cases KeyRange.effective range.upper with
      | none => rfl
      | some bound => exact congrFun₂ (Act.reach_along _ _) r u

theorem ping_along {connection : Connection} {client : ℕ} (h : connection.client = some client)
    (r : Reader) (w : Server) :
    (discard <| Act.within connection Connection.ping : Act Reader Unit) r w =
      Act.along [.reach .command (.command client) fun report =>
        Connection.addressingFailure (.reported report)] () r w := by
  rw [Act.discard_within, Connection.ping_connected h]
  simp only [Act.along, Stage.run, Stage.failure?]
  cases w.outcome .command <;> rfl

/-- What a cursor is asked for, if the filters can be translated. -/
def selection (r : Reader) : Query × Option Projection :=
  ((Query.ofFilters r.config.idField r.filters).toOption.getD .empty,
    Projection.ofFields? r.config.idField r.columns)

theorem compile_apply (r : Reader) (w : Server) :
    compile r w =
      match Query.ofFilters r.config.idField r.filters with
      | .error e => ⟨.error (.compilation e), r, w, []⟩
      | .ok query => ⟨.ok query, r.retaining query, w, []⟩ := by
  unfold compile
  rw [Act.get_bind]
  cases Query.ofFilters r.config.idField r.filters <;> rfl

theorem restrict_bind_along {α : Type} (range : KeyRange) (a : α) (r : Reader) (w : Server) :
    (do restrict range; return a : Act Reader α) r w = Act.along (restrictStages range) a r w := by
  rw [Act.bind_apply, restrict_along]
  unfold Act.along
  cases (Stage.run (restrictStages range) r w).failure with
  | some failure => rfl
  | none => simp [Act.pure_apply]

theorem openCursor_along {connection : Connection} {client : ℕ}
    (h : connection.client = some client) (p : Partition) (r : Reader) (w : Server) :
    openCursor connection client p r w = Act.along (r.cursorStages p client) r.selection r w := by
  unfold openCursor
  rw [Act.get_bind]
  apply Act.bind_along (ping_along h r w)
  intro hcomplete
  have hstate : (Stage.run [.reach .command (.command client) fun report =>
      Connection.addressingFailure (.reported report)] r w).state = r :=
    (Stage.run_of_complete hcomplete).2
  rw [hstate]
  apply Act.reach_bind_along
  intro u
  apply Act.reach_bind_along
  intro v
  -- From here on the translation decides, and it alone changes the reader.
  rw [Act.bind_apply, compile_apply]
  unfold queryStages selection
  cases hquery : Query.ofFilters r.config.idField r.filters with
  | error e => rfl
  | ok query =>
    have hrestrict (n : Server) := restrict_bind_along p.range
      (query, Projection.ofFields? r.config.idField r.columns) (r.retaining query) n
    simp only [List.cons_append, List.nil_append, Act.get_bind, Outcome.after_nil,
      Except.toOption, Option.getD_some]
    apply Act.reach_bind_along
    intro u
    cases r.config.batchSize with
    | none => exact hrestrict u
    | some size => exact Act.reach_bind_along hrestrict

/-! ## Giving up -/

section GivingUp

variable {α β : Type}

/-- Nothing comes after giving up. -/
theorem giveUp_bind (p : Partition) (connection : Option Connection) (failure : Failure)
    (f : α → Act Reader β) : giveUp p connection failure >>= f = giveUp p connection failure := by
  have hfail (reported : Failure) :
      (Act.fail reported : Act Reader α) >>= f = Act.fail reported := rfl
  unfold giveUp
  cases failure.isInterrupt with
  | true => exact hfail failure
  | false =>
    simp only [Bool.false_eq_true, if_false]
    cases connection <;> simp only [Act.bind_assoc, hfail]

theorem giveUp_interrupt {failure : Failure} (h : failure.isInterrupt = true) (p : Partition)
    (connection : Option Connection) (r : Reader) (w : Server) :
    (giveUp p connection failure : Act Reader α) r w = ⟨.error failure, r, w, []⟩ := by
  unfold giveUp
  rw [if_pos h]
  rfl

theorem giveUp_unconnected {failure : Failure} (h : failure.isInterrupt = false) (p : Partition)
    (r : Reader) (w : Server) :
    (giveUp p none failure : Act Reader α) r w =
      ⟨.error (.opening failure), r, w, [.log (.openFailed p.index failure.message)]⟩ := by
  unfold giveUp
  rw [h]
  rfl

/-- Giving up closes the client that was made.  If closing it fails, that is
what is reported. -/
theorem giveUp_connected {failure : Failure} {connection : Connection} {client : ℕ}
    (h : failure.isInterrupt = false) (hclient : connection.client = some client)
    (p : Partition) (r : Reader) (w : Server) :
    (giveUp p (some connection) failure : Act Reader α) r w =
      ⟨match w.outcome .clientClose with
        | some report => .error (.reported report)
        | none => .error (.opening failure),
        r, w.advance .clientClose,
        [.log (.openFailed p.index failure.message), .clientClose client]⟩ := by
  unfold giveUp
  rw [h]
  simp only [Bool.false_eq_true, if_false, Act.log_bind]
  rw [Act.bind_apply, Act.discard_within, Connection.close_connected hclient]
  cases w.outcome .clientClose <;> rfl

theorem giveUp_cases (p : Partition) (connection : Option Connection) (failure : Failure)
    (r : Reader) (w : Server) :
    ((giveUp p connection failure : Act Reader α) r w).state = r ∧
      ∃ reported, ((giveUp p connection failure : Act Reader α) r w).result = .error reported := by
  unfold giveUp
  cases failure.isInterrupt with
  | true => exact ⟨rfl, failure, rfl⟩
  | false =>
    cases connection with
    | none => exact ⟨rfl, .opening failure, rfl⟩
    | some c =>
      simp only [Bool.false_eq_true, if_false, Act.log_bind]
      rw [Act.bind_apply, Act.discard_within]
      cases (Connection.close c w).result with
      | error closing => exact ⟨rfl, closing, rfl⟩
      | ok _ => exact ⟨rfl, .opening failure, rfl⟩

end GivingUp

/-! ## Opening -/

def opening (r : Reader) (p : Partition) (w : Server) : Progress Reader :=
  Stage.run (r.openingStages p (w.clients + 1)) r w

theorem script_opening {q : Point} (hq : q = .fetch ∨ q = .cursorClose ∨ q = .clientClose) :
    (r.opening p w).server.script q = w.script q := by
  apply Stage.script_run
  intro stage hstage hpoint
  have hmem := mem_openingPoints hstage hpoint
  rcases hq with rfl | rfl | rfl <;> exact absurd hmem (by decide)

theorem query_of_failure?_eq_none {client : ℕ}
    (h : ∀ stage ∈ r.openingStages p client, stage.failure? w = none) :
    ∃ query, Query.ofFilters r.config.idField r.filters = .ok query := by
  cases hquery : Query.ofFilters r.config.idField r.filters with
  | ok query => exact ⟨query, rfl⟩
  | error e =>
    have hmem : .check (some (.compilation e)) ∈ r.openingStages p client := by
      simp [openingStages, cursorStages, queryStages, hquery]
    have hnone := h _ hmem
    contradiction

def openedRecord (r : Reader) (p : Partition) : LogRecord :=
  .opened r.config.database r.config.collection p.index (r.selection.1.entries.map Prod.fst)
    ((r.selection.2.getD []).map Prod.fst)

theorem opening_of_connect_failure {failure : Failure}
    (h : (Stage.run (r.connectStages p) r w).failure = some failure) :
    r.opening p w = Stage.run (r.connectStages p) r w :=
  Stage.run_append_of_failure h

/-- Once the client is made, the stages after it run on the same reader. -/
theorem opening_of_connect (h : (Stage.run (r.connectStages p) r w).failure = none) :
    r.opening p w =
      let connected := Stage.run (r.connectStages p) r w
      let opened := Stage.run (r.cursorStages p (w.clients + 1)) r connected.server
      ⟨opened.failure, opened.state, opened.server, connected.events ++ opened.events⟩ := by
  have hstate := (run_connectStages r p w).1
  unfold opening openingStages
  rw [Stage.run_append h, hstate]

/-- What connecting and opening the cursor come to, whatever is done with them. -/
theorem establish_bind {α : Type} (f : ℕ × Connection × Query × Option Projection → Act Reader α)
    (p : Partition) (r : Reader) (w : Server) :
    (establish p >>= f) r w =
      let connected := Stage.run (r.connectStages p) r w
      match connected.failure with
      | some failure => (giveUp p none failure r connected.server).after connected.events
      | none =>
        let opened := Stage.run (r.cursorStages p (w.clients + 1)) r connected.server
        match opened.failure with
        | some failure =>
          (giveUp p (some (r.connectedTo p (w.clients + 1))) failure opened.state
            opened.server).after (connected.events ++ opened.events)
        | none =>
          (f (w.clients + 1, r.connectedTo p (w.clients + 1), r.selection) opened.state
            opened.server).after (connected.events ++ opened.events) := by
  have hstate := (run_connectStages r p w).1
  unfold establish
  rw [Act.bind_assoc, Act.attempt_bind, connect_along]
  cases hconnect : (Stage.run (r.connectStages p) r w).failure with
  | some failure =>
    rw [Act.along_of_failure hconnect, hstate]
    simp only [giveUp_bind, hconnect]
  | none =>
    have hcursor (v : Server) : openCursor (r.connectedTo p (w.clients + 1)) (w.clients + 1) p r v =
        Act.along (r.cursorStages p (w.clients + 1)) r.selection r v :=
      openCursor_along rfl p r v
    rw [Act.along_of_complete hconnect, hstate]
    simp only [Act.bind_assoc, Act.attempt_bind, hcursor]
    cases hopened : (Stage.run (r.cursorStages p (w.clients + 1)) r
        (Stage.run (r.connectStages p) r w).server).failure with
    | some failure =>
      rw [Act.along_of_failure hopened, Outcome.after_after]
      simp only [giveUp_bind, hconnect]
    | none =>
      rw [Act.along_of_complete hopened, Outcome.after_after]
      simp only [hconnect]
      rfl

/-- Connecting and opening the cursor changes nothing about the reader but its
filters, and the connection that comes of it keeps the client. -/
theorem establish_cases (p : Partition) (r : Reader) (w : Server) :
    (∃ filters, (establish p r w).state = { r with filters := filters }) ∧
      ∀ made, (establish p r w).result = .ok made → made.2.1.client = some made.1 := by
  obtain ⟨filters, hfilters⟩ := (run_cursorStages (w.clients + 1) r p
    (Stage.run (r.connectStages p) r w).server).1
  rw [← Act.bind_pure (establish p), establish_bind]
  simp only [hfilters]
  split
  · rename_i failure _
    obtain ⟨hstate, reported, hreported⟩ :=
      giveUp_cases (α := ℕ × Connection × Query × Option Projection) p none failure r
        (Stage.run (r.connectStages p) r w).server
    refine ⟨⟨r.filters, hstate⟩, ?_⟩
    rw [Outcome.after_result, hreported]
    exact nofun
  · split
    · rename_i failure _
      obtain ⟨hstate, reported, hreported⟩ :=
        giveUp_cases (α := ℕ × Connection × Query × Option Projection) p
          (some (r.connectedTo p (w.clients + 1))) failure { r with filters := filters }
          (Stage.run (r.cursorStages p (w.clients + 1)) r
            (Stage.run (r.connectStages p) r w).server).server
      refine ⟨⟨filters, hstate⟩, ?_⟩
      rw [Outcome.after_result, hreported]
      exact nofun
    · refine ⟨⟨filters, rfl⟩, ?_⟩
      rintro _ ⟨⟩
      rfl

theorem init_of_establish (hidle : r.phase = .idle) :
    init p r w =
      let o := establish p r w
      match o.result with
      | .error failure => ⟨.error failure, o.state, o.server, o.events⟩
      | .ok (client, _, query, projection) =>
        ⟨.ok (), o.state.withPhase (.opened client ⟨0, none⟩), o.server,
          o.events ++ (logOpened p query projection o.state o.server).events⟩ := by
  unfold init
  rw [Act.get_bind, hidle]
  simp only [Act.bind_apply]
  cases (establish p r w).result <;> rfl

theorem init_idle (hidle : r.phase = .idle) :
    init p r w =
      let connected := Stage.run (r.connectStages p) r w
      match connected.failure with
      | some failure => (giveUp p none failure r connected.server).after connected.events
      | none =>
        let opened := Stage.run (r.cursorStages p (w.clients + 1)) r connected.server
        match opened.failure with
        | some failure =>
          (giveUp p (some (r.connectedTo p (w.clients + 1))) failure opened.state
            opened.server).after (connected.events ++ opened.events)
        | none =>
          ⟨.ok (), opened.state.withPhase (.opened (w.clients + 1) ⟨0, none⟩), opened.server,
            connected.events ++ opened.events ++ [.log (r.openedRecord p)]⟩ := by
  obtain ⟨filters, hfilters⟩ := (run_cursorStages (w.clients + 1) r p
    (Stage.run (r.connectStages p) r w).server).1
  unfold init
  rw [Act.get_bind, hidle]
  simp only [establish_bind, hfilters]
  simp [logOpened, Act.log, openedRecord, withPhase]

theorem init_of_complete (hidle : r.phase = .idle) (h : (r.opening p w).failure = none) :
    init p r w =
      ⟨.ok (), (r.opening p w).state.withPhase (.opened (w.clients + 1) ⟨0, none⟩),
        (r.opening p w).server, (r.opening p w).events ++ [.log (r.openedRecord p)]⟩ := by
  rw [init_idle hidle]
  cases hconnect : (Stage.run (r.connectStages p) r w).failure with
  | some failure =>
    rw [opening_of_connect_failure hconnect, hconnect] at h
    contradiction
  | none =>
    rw [opening_of_connect hconnect] at h ⊢
    simp only [hconnect] at h ⊢
    rw [h]

/-- An idle reader that fails at a stage is given up, with its connection if
the client was made. -/
theorem init_of_failure {failure : Failure} (hidle : r.phase = .idle)
    (h : (r.opening p w).failure = some failure) :
    init p r w =
      (giveUp p (if (r.opening p w).server.clients = w.clients then none
          else some (r.connectedTo p (w.clients + 1)))
        failure (r.opening p w).state (r.opening p w).server).after (r.opening p w).events := by
  have hclients := (run_connectStages r p w).2
  have hstate := (run_connectStages r p w).1
  rw [init_idle hidle]
  cases hconnect : (Stage.run (r.connectStages p) r w).failure with
  | some other =>
    rw [opening_of_connect_failure hconnect, hconnect] at h
    cases h
    simp only [hconnect, Option.isNone_some, Bool.false_eq_true, if_false] at hclients
    rw [opening_of_connect_failure hconnect, if_pos hclients, hstate]
    simp only [hconnect]
  | none =>
    have hmade := (run_cursorStages (w.clients + 1) r p
      (Stage.run (r.connectStages p) r w).server).2
    simp only [hconnect, Option.isNone_none, if_true] at hclients
    have hnew : w.clients + 1 ≠ w.clients := Nat.succ_ne_self _
    rw [opening_of_connect hconnect] at h ⊢
    simp only [hconnect] at h ⊢
    rw [h, hmade, hclients, if_neg hnew]

theorem init_of_failure_unconnected {failure : Failure} (hidle : r.phase = .idle)
    (h : (r.opening p w).failure = some failure) (hordinary : failure.isInterrupt = false)
    (hclients : (r.opening p w).server.clients = w.clients) :
    init p r w =
      ⟨.error (.opening failure), (r.opening p w).state, (r.opening p w).server,
        (r.opening p w).events ++ [.log (.openFailed p.index failure.message)]⟩ := by
  rw [init_of_failure hidle h, if_pos hclients, giveUp_unconnected hordinary]
  rfl

theorem init_of_failure_connected {failure : Failure} (hidle : r.phase = .idle)
    (h : (r.opening p w).failure = some failure) (hordinary : failure.isInterrupt = false)
    (hclients : (r.opening p w).server.clients ≠ w.clients) :
    init p r w =
      ⟨match w.outcome .clientClose with
        | some report => .error (.reported report)
        | none => .error (.opening failure),
        (r.opening p w).state, (r.opening p w).server.advance .clientClose,
        (r.opening p w).events ++ [.log (.openFailed p.index failure.message),
          .clientClose (w.clients + 1)]⟩ := by
  have houtcome : (r.opening p w).server.outcome .clientClose = w.outcome .clientClose := by
    unfold Server.outcome
    rw [script_opening (.inr (.inr rfl))]
  rw [init_of_failure hidle h, if_neg hclients, giveUp_connected hordinary rfl, houtcome]
  rfl

/-- An interrupt leaves everything as it is. -/
theorem init_of_interrupt {failure : Failure} (hidle : r.phase = .idle)
    (h : (r.opening p w).failure = some failure) (hinterrupt : failure.isInterrupt = true) :
    init p r w =
      ⟨.error failure, (r.opening p w).state, (r.opening p w).server, (r.opening p w).events⟩ := by
  rw [init_of_failure hidle h, giveUp_interrupt hinterrupt]
  simp [Outcome.after]

/-- An opening that fails reports a failure, and giving it up changes neither the
reader nor the number of clients made. -/
structure Fails (r : Reader) (p : Partition) (w : Server) : Prop where
  result : ∃ reported, (init p r w).result = .error reported
  state : (init p r w).state = (r.opening p w).state
  clients : (init p r w).server.clients = (r.opening p w).server.clients

theorem init_fails {failure : Failure} (hidle : r.phase = .idle)
    (h : (r.opening p w).failure = some failure) : r.Fails p w := by
  cases hinterrupt : failure.isInterrupt with
  | true =>
    have hinit := init_of_interrupt hidle h hinterrupt
    constructor <;> rw [hinit]
    exact ⟨_, rfl⟩
  | false =>
    by_cases hclients : (r.opening p w).server.clients = w.clients
    · have hinit := init_of_failure_unconnected hidle h hinterrupt hclients
      constructor <;> rw [hinit]
      exact ⟨_, rfl⟩
    · have hinit := init_of_failure_connected hidle h hinterrupt hclients
      constructor <;> rw [hinit]
      · cases w.outcome .clientClose with
        | none => exact ⟨_, rfl⟩
        | some report => exact ⟨_, rfl⟩
      · rfl

theorem isInterrupt_of_opening {failure : Failure} (huninterrupted : w.OpensUninterrupted)
    (h : (r.opening p w).failure = some failure) : failure.isInterrupt = false := by
  have hpoints := nodup_points_openingStages r p (w.clients + 1)
  rcases Stage.run_cases (s := r) (w := w) hpoints with ⟨-, hcomplete⟩ |
    ⟨before, stage, rest, other, hsplit, -, hstage, hrun⟩
  · have hnone : (r.opening p w).failure = none := hcomplete
    rw [hnone] at h
    contradiction
  · have hother : (r.opening p w).failure = some other := congrArg Progress.failure hrun
    rw [hother] at h
    cases h
    have hmem : stage ∈ r.openingStages p (w.clients + 1) := by
      rw [hsplit]
      exact List.mem_append_right _ List.mem_cons_self
    exact isInterrupt_of_stage huninterrupted hmem hstage

/-- Opening makes at most one client, and makes it if it comes through all
stages. -/
theorem clients_opening (r : Reader) (p : Partition) (w : Server) :
    (r.opening p w).server.clients = w.clients + 1 ∨
      (r.opening p w).server.clients = w.clients ∧ (r.opening p w).failure ≠ none := by
  have hclients := (run_connectStages r p w).2
  cases hconnect : (Stage.run (r.connectStages p) r w).failure with
  | some failure =>
    right
    simp only [hconnect, Option.isNone_some, Bool.false_eq_true, if_false] at hclients
    rw [opening_of_connect_failure hconnect, hconnect]
    exact ⟨hclients, Option.some_ne_none failure⟩
  | none =>
    left
    simp only [hconnect, Option.isNone_none, if_true] at hclients
    rw [opening_of_connect hconnect]
    exact (run_cursorStages _ r p _).2.trans hclients

theorem state_opening (r : Reader) (p : Partition) (w : Server) :
    ∃ filters, (r.opening p w).state = { r with filters := filters } := by
  cases hconnect : (Stage.run (r.connectStages p) r w).failure with
  | some failure =>
    rw [opening_of_connect_failure hconnect]
    exact ⟨r.filters, (run_connectStages r p w).1⟩
  | none =>
    rw [opening_of_connect hconnect]
    exact (run_cursorStages _ r p _).1

theorem phase_opening (r : Reader) (p : Partition) (w : Server) :
    (r.opening p w).state.phase = r.phase := by
  obtain ⟨filters, hfilters⟩ := state_opening r p w
  rw [hfilters]

theorem init_of_not_idle (h : r.phase ≠ .idle) :
    init p r w = ⟨.error (.notInitializable r.state), r, w, []⟩ := by
  unfold init state
  rw [Act.get_bind]
  cases hphase : r.phase with
  | idle => exact absurd hphase h
  | opened client cursor => rfl
  | closed => rfl

/-- Opening either succeeds on an idle reader, or fails and leaves the reader in
its phase. -/
theorem init_phase_cases (p : Partition) (r : Reader) (w : Server) :
    (r.phase = .idle ∧ (init p r w).result = .ok () ∧
        (init p r w).state.phase = .opened (w.clients + 1) ⟨0, none⟩) ∨
      ∃ failure, (init p r w).result = .error failure ∧ (init p r w).state.phase = r.phase := by
  by_cases hphase : r.phase = .idle
  swap
  · right
    rw [init_of_not_idle hphase]
    exact ⟨_, rfl, rfl⟩
  · cases hopening : (r.opening p w).failure with
    | none =>
      left
      rw [init_of_complete hphase hopening]
      exact ⟨hphase, rfl, rfl⟩
    | some failure =>
      right
      obtain ⟨reported, hreported⟩ := (init_fails hphase hopening).result
      have hstate := (init_fails hphase hopening).state
      exact ⟨reported, hreported, by rw [hstate, phase_opening]⟩

theorem phase_of_init (h : (init p r w).result = .ok ()) :
    (init p r w).state.phase = .opened (w.clients + 1) ⟨0, none⟩ := by
  rcases init_phase_cases p r w with ⟨-, -, hopened⟩ | ⟨failure, hfailure, -⟩
  · exact hopened
  · rw [hfailure] at h
    contradiction

end Reader

end DocScan
