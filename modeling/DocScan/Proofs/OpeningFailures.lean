import DocScan.Proofs.ClientAccounting

/-!
# What is left of an opening that fails

An opening that fails at a stage is given up: the client is closed if it was
made, and the failure is reported as the cause.  Two things come in between.
If closing fails as well, its failure is reported instead, and the cause is
lost.  And an interrupt is passed on before anything is given up, so that a
client made before it stays open, with no reader to hold it.
-/

namespace DocScan

/-- No interrupt is to come at any point. -/
def Server.Uninterrupted (w : Server) : Prop :=
  ∀ point report, some report ∈ w.script point → (Failure.reported report).isInterrupt = false

theorem Server.Uninterrupted.opens {w : Server} (h : w.Uninterrupted) : w.OpensUninterrupted :=
  fun point _ report hreport => h point report hreport

namespace Reader

variable {r : Reader} {p : Partition} {w : Server}

/-- The first stage of opening that fails, with the stages before it. -/
structure FailsAt (r : Reader) (p : Partition) (w : Server) (before : List (Stage Reader))
    (stage : Stage Reader) (failure : Failure) : Prop where
  stages : ∃ rest, r.openingStages p (w.clients + 1) = before ++ stage :: rest
  earlier : ∀ earlier ∈ before, earlier.failure? w = none
  failing : stage.failure? w = some failure

/-- Opening comes through all stages or stops at the first one that fails. -/
theorem opening_cases (r : Reader) (p : Partition) (w : Server) :
    (r.opening p w).failure = none ∨
      ∃ before stage failure, r.FailsAt p w before stage failure ∧
        r.opening p w = ⟨some failure, before.foldl Stage.change r,
          (before ++ [stage]).foldl Stage.after w, (before ++ [stage]).flatMap Stage.events⟩ := by
  have hpoints := nodup_points_openingStages r p (w.clients + 1)
  rcases Stage.run_cases (s := r) (w := w) hpoints with ⟨-, hcomplete⟩ |
    ⟨before, stage, rest, failure, hsplit, hbefore, hstage, hrun⟩
  · exact .inl hcomplete
  · exact .inr ⟨before, stage, failure, ⟨⟨rest, hsplit⟩, hbefore, hstage⟩, hrun⟩

/-! ## What is reported -/

/-- Without interrupts, an opening that does not succeed reports the failure of
the first stage that fails as its cause, unless the client was made and cannot
be closed.  Then it reports that it cannot. -/
theorem init_reports_cause (hidle : r.phase = .idle) (h : w.Uninterrupted) :
    (init p r w).result = .ok () ∨
      ∃ before stage failure, r.FailsAt p w before stage failure ∧
        (before.any Stage.makesClient = false ∨ w.outcome .clientClose = none →
          (init p r w).result = .error (.opening failure)) ∧
        ∀ report, before.any Stage.makesClient = true → w.outcome .clientClose = some report →
          (init p r w).result = .error (.reported report) := by
  rcases opening_cases r p w with hcomplete | ⟨before, stage, failure, hfails, hrun⟩
  · left
    rw [init_of_complete hidle hcomplete]
  · right
    have hfailure : (r.opening p w).failure = some failure := congrArg Progress.failure hrun
    have hordinary := isInterrupt_of_opening h.opens hfailure
    have hresult := (init_of_stopped hidle hordinary hfails.failing hrun).1
    refine ⟨before, stage, failure, hfails, ?_, ?_⟩
    · intro hclosed
      rw [hresult, givenUp_eq_opening hclosed]
    · intro report hmade hclose
      rw [hresult, hmade, givenUp_eq_reported hclose]

/-- A report of the ping that is one of a connection already is the cause as it
is, after the client was closed. -/
theorem init_reports_cause_of_ping :
    let r : Reader := .fresh ⟨"db", "docs", [], "_id", none, 5000, 10000, []⟩ [] []
    let p : Partition := ⟨0, ["h"], .unbounded⟩
    let report : Report := ⟨.connection, "refused"⟩
    let w : Server := ⟨[], fun point => if point = .command then [some report] else [], 0⟩
    w.Uninterrupted ∧ (init p r w).result = .error (.opening (.reported report)) ∧
      ((init p r w).result = .ok () ∨
        ∃ before stage failure, r.FailsAt p w before stage failure ∧
          (before.any Stage.makesClient = false ∨ w.outcome .clientClose = none →
            (init p r w).result = .error (.opening failure)) ∧
          ∀ report, before.any Stage.makesClient = true → w.outcome .clientClose = some report →
            (init p r w).result = .error (.reported report)) := by
  intro r p report w
  have huninterrupted : w.Uninterrupted := by
    intro point other hother
    cases point with
    | command =>
      cases List.mem_singleton.mp hother
      rfl
    | _ => exact absurd hother List.not_mem_nil
  have hresult : (init p r w).result = .error (.opening (.reported report)) := by
    decide +kernel
  exact ⟨huninterrupted, hresult, init_reports_cause rfl huninterrupted⟩

/-- When the client that was made cannot be closed, the cause is lost. -/
theorem init_loses_cause :
    ¬ ∀ (r : Reader) (p : Partition) (w : Server), r.phase = .idle → w.Uninterrupted →
      (init p r w).result = .ok () ∨
        ∃ before stage failure, r.FailsAt p w before stage failure ∧
          (init p r w).result = .error (.opening failure) := by
  intro hall
  let r : Reader := .fresh ⟨"db", "docs", [], "_id", none, 5000, 10000, []⟩ [] []
  let p : Partition := ⟨0, ["h"], .unbounded⟩
  let w : Server := ⟨[], fun point =>
    if point = .find then [some ⟨.ordinary "RuntimeError", "boom"⟩]
    else if point = .clientClose then [some ⟨.ordinary "OSError", "lost"⟩]
    else [], 0⟩
  have huninterrupted : w.Uninterrupted := by
    intro point report hreport
    cases point with
    | find | clientClose =>
      cases List.mem_singleton.mp hreport
      rfl
    | _ => exact absurd hreport List.not_mem_nil
  have hresult : (init p r w).result = .error (.reported ⟨.ordinary "OSError", "lost"⟩) := by
    decide +kernel
  have hclaimed := hall r p w rfl huninterrupted
  rw [hresult] at hclaimed
  rcases hclaimed with hok | ⟨before, stage, failure, -, hcause⟩
  · contradiction
  · cases hcause

/-! ## What is left open -/

/-- A client that was made by an opening that fails is closed exactly if no
interrupt stopped the opening. -/
theorem clientClose_mem_init_iff {failure : Failure} (hidle : r.phase = .idle)
    (hfailure : (r.opening p w).failure = some failure) {client : ℕ} (hnew : w.clients < client)
    (hmade : client ≤ (init p r w).server.clients) :
    .clientClose client ∈ (init p r w).events ↔ failure.isInterrupt = false := by
  rw [(init_fails hidle hfailure).clients] at hmade
  cases hinterrupt : failure.isInterrupt with
  | true =>
    rw [init_of_interrupt hidle hfailure hinterrupt]
    constructor
    · intro hmem
      -- No stage of opening ends a client; only giving up does.
      have hopen := closes_of_mem_opening hmem
      contradiction
    · intro hordinary
      contradiction
  | false =>
    have hclients : (r.opening p w).server.clients ≠ w.clients := by omega
    have hclient : client = w.clients + 1 := by
      rcases clients_opening r p w with hnext | ⟨hsame, -⟩ <;> omega
    rw [init_of_failure_connected hidle hfailure hinterrupt hclients, hclient]
    simp

/-- Whatever stops an opening, the reader holds no client afterwards, and every
client that was made is closed exactly if the first stage that fails does not
fail by an interrupt. -/
theorem init_closes_unless_interrupted (hidle : r.phase = .idle) {e : Failure}
    (h : (init p r w).result = .error e) :
    ∃ before stage failure, r.FailsAt p w before stage failure ∧
      (init p r w).state.client? = none ∧
      ∀ client, w.clients < client → client ≤ (init p r w).server.clients →
        (.clientClose client ∈ (init p r w).events ↔ failure.isInterrupt = false) := by
  rcases opening_cases r p w with hcomplete | ⟨before, stage, failure, hfails, hrun⟩
  · rw [init_of_complete hidle hcomplete] at h
    contradiction
  · have hfailure : (r.opening p w).failure = some failure := congrArg Progress.failure hrun
    have hnone : (init p r w).state.client? = none := by
      rw [client?, (init_fails hidle hfailure).state, phase_opening, hidle]
      rfl
    exact ⟨before, stage, failure, hfails, hnone, fun _ hnew hmade =>
      clientClose_mem_init_iff hidle hfailure hnew hmade⟩

/-- A client is closed even if that fails by an interrupt, as long as the
opening was stopped by something else. -/
theorem init_closes_unless_interrupted_there :
    let r : Reader := .fresh ⟨"db", "docs", [], "_id", none, 5000, 10000, []⟩ [] [.unknown]
    let p : Partition := ⟨0, ["h"], .unbounded⟩
    let interrupt : Report := ⟨.interrupt "KeyboardInterrupt", "stop"⟩
    let w : Server := ⟨[], fun point => if point = .clientClose then [some interrupt] else [], 4⟩
    (init p r w).result = .error (.reported interrupt) ∧
      .clientClose 5 ∈ (init p r w).events ∧
      ∃ before stage failure, r.FailsAt p w before stage failure ∧
        (init p r w).state.client? = none ∧
        ∀ client, w.clients < client → client ≤ (init p r w).server.clients →
          (.clientClose client ∈ (init p r w).events ↔ failure.isInterrupt = false) := by
  intro r p interrupt w
  have hresult : (init p r w).result = .error (.reported interrupt) := by decide +kernel
  have hclosed : .clientClose 5 ∈ (init p r w).events := by decide +kernel
  exact ⟨hresult, hclosed, init_closes_unless_interrupted rfl hresult⟩

/-- An interrupt during the ping leaves the client open that was made. -/
theorem init_leaves_client_open :
    ¬ ∀ (r : Reader) (p : Partition) (w : Server) (e : Failure), r.phase = .idle →
      (init p r w).result = .error e →
      ∀ client, w.clients < client → client ≤ (init p r w).server.clients →
        .clientClose client ∈ (init p r w).events := by
  intro hall
  let r : Reader := .fresh ⟨"db", "docs", [], "_id", none, 5000, 10000, []⟩ [] []
  let p : Partition := ⟨0, ["h"], .unbounded⟩
  let interrupt : Report := ⟨.interrupt "KeyboardInterrupt", "stop"⟩
  let w : Server := ⟨[], fun point => if point = .command then [some interrupt] else [], 0⟩
  have hresult : (init p r w).result = .error (.reported interrupt) := by decide +kernel
  have hmade : (init p r w).server.clients = 1 := by decide +kernel
  have hopen : .clientClose 1 ∉ (init p r w).events := by decide +kernel
  exact hopen (hall r p w _ rfl hresult 1 Nat.one_pos hmade.ge)

end Reader

end DocScan
