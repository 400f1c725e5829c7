import DocScan.Proofs.ReaderOpening

/-!
# The trace of opening

The events of opening a reader are written down once, in their order.  Opening
an idle reader against a server without interrupts either emits all of them,
or stops at the first stage that fails: the events up to that stage are
followed by a warning, and by the end of the client if it was made.
-/

namespace DocScan

namespace Reader

variable {r : Reader} {p : Partition} {w : Server}

def restrictTrace (range : KeyRange) : List Event :=
  if range.isBounded then
    [.hint range.indexKey] ++ (KeyRange.effective range.lower).toList.map Event.min ++
      (KeyRange.effective range.upper).toList.map Event.max
  else []

/-- The events of opening a reader with a query through a client. -/
def openingTrace (r : Reader) (p : Partition) (query : Query) (client : ℕ) : List Event :=
  let c := r.connectionTo p.hosts
  let projection := Projection.ofFields? r.config.idField r.columns
  c.notes.map Event.log ++
  [.factory p.hosts (c.ownOptions ++ r.config.clientOptions),
    .log (.connected p.hosts),
    .command client,
    .database client r.config.database,
    .collection r.config.database r.config.collection,
    .find query projection] ++
  r.config.batchSize.toList.map Event.batchSize ++
  restrictTrace p.range ++
  [.log (.opened r.config.database r.config.collection p.index (query.entries.map Prod.fst)
    ((projection.getD []).map Prod.fst))]

theorem events_connectStages (r : Reader) (p : Partition) :
    (r.connectStages p).flatMap Stage.events =
      (r.connectionTo p.hosts).notes.map Event.log ++
        [.factory p.hosts ((r.connectionTo p.hosts).ownOptions ++ r.config.clientOptions),
          .log (.connected p.hosts)] := by
  have hnotes : ((r.connectionTo p.hosts).notes.map
      (Stage.record : LogRecord → Stage Reader)).flatMap Stage.events =
        (r.connectionTo p.hosts).notes.map Event.log := by
    rw [List.flatMap_map, List.map_eq_flatMap]
    rfl
  unfold connectStages factoryStages
  rw [List.flatMap_append, List.flatMap_append, List.flatMap_cons, hnotes]
  simp only [Stage.events, List.nil_append, List.append_assoc]
  rfl

theorem events_restrictStages (range : KeyRange) :
    (restrictStages range).flatMap Stage.events = restrictTrace range := by
  unfold restrictStages restrictTrace
  split
  · cases KeyRange.effective range.lower <;> cases KeyRange.effective range.upper <;> rfl
  · rfl

theorem events_openingStages {query : Query} (client : ℕ)
    (h : Query.ofFilters r.config.idField r.filters = .ok query) :
    (r.openingStages p client).flatMap Stage.events ++ [.log (r.openedRecord p)] =
      r.openingTrace p query client := by
  have hbatch : (r.config.batchSize.toList.map fun n =>
      (.reach .batchSize (.batchSize n) .reported : Stage Reader)).flatMap Stage.events =
        r.config.batchSize.toList.map Event.batchSize := by
    cases r.config.batchSize <;> rfl
  unfold openingStages cursorStages queryStages openedRecord selection
  rw [h]
  simp only [List.flatMap_append, events_connectStages, hbatch, events_restrictStages]
  unfold openingTrace
  simp only [List.append_assoc]
  rfl

/-! ## Opening without interrupts -/

/-- Opening comes through all stages, and emits the whole trace. -/
structure Opens (r : Reader) (p : Partition) (w : Server) (query : Query) : Prop where
  translated : Query.ofFilters r.config.idField r.filters = .ok query
  stages : ∀ stage ∈ r.openingStages p (w.clients + 1), stage.failure? w = none
  result : (init p r w).result = .ok ()
  events : (init p r w).events = r.openingTrace p query (w.clients + 1)
  state : (init p r w).state.state = .initialized

/-- Opening stops at the first stage that fails.  It emits the trace up to
there, then a warning, and then ends the client if it was made; the reader is
as idle as before. -/
structure StopsAt (r : Reader) (p : Partition) (w : Server) (before : List (Stage Reader))
    (stage : Stage Reader) (failure : Failure) : Prop where
  stages : ∃ rest, r.openingStages p (w.clients + 1) = before ++ stage :: rest
  earlier : ∀ earlier ∈ before, earlier.failure? w = none
  failing : stage.failure? w = some failure
  result : (init p r w).result = .error (.opening failure)
  events : (init p r w).events = (before ++ [stage]).flatMap Stage.events ++
    [.log (.openFailed p.index failure.message)] ++
    (if before.any Stage.makesClient then [.clientClose (w.clients + 1)] else [])
  trace : ∀ query, Query.ofFilters r.config.idField r.filters = .ok query →
    (before ++ [stage]).flatMap Stage.events <+: r.openingTrace p query (w.clients + 1)
  state : (init p r w).state.state = .uninitialized
  unchanged : ∃ filters, (init p r w).state = { r with filters := filters }

theorem opens_of_complete {query : Query} (hidle : r.phase = .idle)
    (hquery : Query.ofFilters r.config.idField r.filters = .ok query)
    (hall : ∀ stage ∈ r.openingStages p (w.clients + 1), stage.failure? w = none)
    (hcomplete : (r.opening p w).failure = none) : r.Opens p w query := by
  have hevents : (r.opening p w).events = (r.openingStages p (w.clients + 1)).flatMap
      Stage.events := (Stage.run_of_complete hcomplete).1
  have hinit := init_of_complete (p := p) (w := w) hidle hcomplete
  constructor
  · exact hquery
  · exact hall
  · rw [hinit]
  · rw [hinit, ← events_openingStages (w.clients + 1) hquery, ← hevents]
  · rw [hinit]
    rfl

/-- Opening succeeds only by coming through all stages. -/
theorem exists_opens (h : (init p r w).result = .ok ()) : ∃ query, r.Opens p w query := by
  rcases init_phase_cases p r w with ⟨hidle, -, -⟩ | ⟨failure, hfailure, -⟩
  swap
  · rw [hfailure] at h
    contradiction
  have hpoints := nodup_points_openingStages r p (w.clients + 1)
  rcases Stage.run_cases (s := r) (w := w) hpoints with ⟨hall, hcomplete⟩ |
    ⟨before, stage, rest, failure, -, -, -, hrun⟩
  · rcases query_of_failure?_eq_none hall with ⟨query, hquery⟩
    exact ⟨query, opens_of_complete hidle hquery hall hcomplete⟩
  · have hfailure : (r.opening p w).failure = some failure := congrArg Progress.failure hrun
    rcases (init_fails hidle hfailure).result with ⟨reported, hreported⟩
    rw [hreported] at h
    contradiction

theorem events_prefix_openingTrace {client : ℕ} {before rest : List (Stage Reader)}
    {stage : Stage Reader} {query : Query}
    (hsplit : r.openingStages p client = before ++ stage :: rest)
    (hquery : Query.ofFilters r.config.idField r.filters = .ok query) :
    (before ++ [stage]).flatMap Stage.events <+: r.openingTrace p query client := by
  have htrace := events_openingStages (p := p) client hquery
  rw [hsplit, List.append_cons before, List.flatMap_append, List.append_assoc] at htrace
  rw [← htrace]
  exact List.prefix_append _ _

/-- What is said of a failure after the client has been ended: a failure of
that end comes instead of the failure it was ended for. -/
def givenUp (w : Server) (made : Bool) (failure : Failure) : Failure :=
  match made, w.outcome .clientClose with
  | true, some report => .reported report
  | _, _ => .opening failure

theorem givenUp_eq_opening {made : Bool} (h : made = false ∨ w.outcome .clientClose = none)
    (failure : Failure) : givenUp w made failure = .opening failure := by
  unfold givenUp
  rcases h with rfl | hclose
  · rfl
  · rw [hclose]
    cases made <;> rfl

theorem givenUp_eq_reported {report : Report} (h : w.outcome .clientClose = some report)
    (failure : Failure) : givenUp w true failure = .reported report := by
  unfold givenUp
  rw [h]

/-- What an ordinary failure of a stage comes to. -/
theorem init_of_stopped {before : List (Stage Reader)} {stage : Stage Reader} {failure : Failure}
    (hidle : r.phase = .idle) (hordinary : failure.isInterrupt = false)
    (hstage : stage.failure? w = some failure)
    (hrun : r.opening p w = ⟨some failure, before.foldl Stage.change r,
      (before ++ [stage]).foldl Stage.after w, (before ++ [stage]).flatMap Stage.events⟩) :
    (init p r w).result = .error (givenUp w (before.any Stage.makesClient) failure) ∧
      (init p r w).state = (r.opening p w).state ∧
      (init p r w).events = (before ++ [stage]).flatMap Stage.events ++
        [.log (.openFailed p.index failure.message)] ++
        (if before.any Stage.makesClient then [.clientClose (w.clients + 1)] else []) := by
  have hfailure : (r.opening p w).failure = some failure := by
    rw [hrun]
  have hevents : (r.opening p w).events = (before ++ [stage]).flatMap Stage.events := by
    rw [hrun]
  have hmade : (r.opening p w).server.clients = w.clients ↔
      before.any Stage.makesClient = false := by
    rw [hrun]
    simp only [Stage.clients_foldl_eq_iff, List.any_append, List.any_cons, List.any_nil,
      Stage.makesClient_of_failure hstage, Bool.or_false]
  cases hany : before.any Stage.makesClient with
  | false =>
    have hinit := init_of_failure_unconnected hidle hfailure hordinary (hmade.mpr hany)
    rw [hinit, hevents]
    exact ⟨rfl, rfl, by simp⟩
  | true =>
    have hclients : (r.opening p w).server.clients ≠ w.clients := by
      intro heq
      rw [hmade.mp heq] at hany
      contradiction
    have hinit := init_of_failure_connected hidle hfailure hordinary hclients
    rw [hinit, hevents]
    refine ⟨?_, rfl, by simp⟩
    unfold givenUp
    cases w.outcome .clientClose <;> rfl

/-- What an ordinary failure of a stage comes to, if the client can be ended. -/
theorem init_of_run {before : List (Stage Reader)} {stage : Stage Reader} {failure : Failure}
    (hidle : r.phase = .idle) (hclose : w.outcome .clientClose = none)
    (hordinary : failure.isInterrupt = false) (hstage : stage.failure? w = some failure)
    (hrun : r.opening p w = ⟨some failure, before.foldl Stage.change r,
      (before ++ [stage]).foldl Stage.after w, (before ++ [stage]).flatMap Stage.events⟩) :
    (init p r w).result = .error (.opening failure) ∧
      (init p r w).state = (r.opening p w).state ∧
      (init p r w).events = (before ++ [stage]).flatMap Stage.events ++
        [.log (.openFailed p.index failure.message)] ++
        (if before.any Stage.makesClient then [.clientClose (w.clients + 1)] else []) := by
  obtain ⟨hresult, hrest⟩ := init_of_stopped hidle hordinary hstage hrun
  rw [givenUp_eq_opening (.inr hclose)] at hresult
  exact ⟨hresult, hrest⟩

theorem init_opens_or_stops (hidle : r.phase = .idle) (huninterrupted : w.OpensUninterrupted)
    (hclose : w.outcome .clientClose = none) :
    (∃ query, r.Opens p w query) ∨ ∃ before stage failure, r.StopsAt p w before stage failure := by
  have hpoints := nodup_points_openingStages r p (w.clients + 1)
  rcases Stage.run_cases (s := r) (w := w) hpoints with ⟨hall, hcomplete⟩ |
    ⟨before, stage, rest, failure, hsplit, hbefore, hstage, hrun⟩
  · left
    rcases query_of_failure?_eq_none hall with ⟨query, hquery⟩
    exact ⟨query, opens_of_complete hidle hquery hall hcomplete⟩
  · right
    have hfailure : (r.opening p w).failure = some failure := congrArg Progress.failure hrun
    have hordinary := isInterrupt_of_opening huninterrupted hfailure
    rcases init_of_run hidle hclose hordinary hstage hrun with ⟨hresult, hstate, hevents⟩
    rcases state_opening r p w with ⟨filters, hfilters⟩
    have hsame : (init p r w).state = { r with filters := filters } := hstate.trans hfilters
    have huninitialized : (init p r w).state.state = .uninitialized := by
      rw [hsame, state, hidle]
      rfl
    have hprefix (query : Query) (hquery : Query.ofFilters r.config.idField r.filters = .ok query) :
        (before ++ [stage]).flatMap Stage.events <+: r.openingTrace p query (w.clients + 1) :=
      events_prefix_openingTrace hsplit hquery
    exact ⟨before, stage, failure, ⟨rest, hsplit⟩, hbefore, hstage, hresult, hevents, hprefix,
      huninitialized, ⟨filters, hsame⟩⟩

/-- With two users, batches and a bounded range, a failing hint ends the
client that was made. -/
theorem init_stops_at_hint :
    let r : Reader := .fresh ⟨"db", "docs", [⟨"u", "admin", "x"⟩, ⟨"v", "admin", "y"⟩], "_id",
      some 100, 5000, 10000, [("appname", .text "scan")]⟩ ["a"]
      [.test .equal "a" (.int 1)]
    let p : Partition := ⟨3, ["h1", "h2"], ⟨some [("a", .int 0)], some [("a", .int 9)]⟩⟩
    let report : Report := ⟨.ordinary "ValueError", "no index"⟩
    let w : Server := ⟨[], fun point => if point = .hint then [some report] else [], 0⟩
    r.phase = .idle ∧
      w.OpensUninterrupted ∧
      w.outcome .clientClose = none ∧
      (∃ before stage, r.StopsAt p w before stage (.reported report)) ∧
      (init p r w).events.getLast? = some (.clientClose 1) := by
  intro r p report w
  have huninterrupted : w.OpensUninterrupted := by
    intro point hpoint other hother
    cases point with
    | hint =>
      cases List.mem_singleton.mp hother
      rfl
    | fetch | cursorClose | clientClose => exact absurd hpoint (by decide)
    | factory | command | database | collection | find | batchSize | min | max =>
      exact absurd hother List.not_mem_nil
  have hresult : (init p r w).result = .error (.opening (.reported report)) := by
    decide +kernel
  have hlast : (init p r w).events.getLast? = some (.clientClose 1) := by
    decide +kernel
  refine ⟨rfl, huninterrupted, rfl, ?_, hlast⟩
  rcases init_opens_or_stops (r := r) (p := p) (w := w) rfl huninterrupted rfl with
    ⟨query, hopens⟩ | ⟨before, stage, failure, hstops⟩
  · have hsame := hopens.result.symm.trans hresult
    cases hsame
  · have hfailure : failure = .reported report := by
      have hsame := hstops.result.symm.trans hresult
      cases hsame
      rfl
    rw [← hfailure]
    exact ⟨before, stage, hstops⟩

end Reader

end DocScan
