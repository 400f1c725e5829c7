import DocScan.Proofs.ReaderSteps
import DocScan.Proofs.ServerProgress
import DocScan.Scan

/-!
# What each step of a scan does

One equation for each phase of a scan says what a draw comes to, in terms of the
steps of the scan's reader.  A draw that gives no document ends the scan, and a
scan that has ended does nothing more.
-/

namespace DocScan

namespace Scan

variable {α : Type} {reader : Reader} {s : Scan} {w : Server}

@[simp] theorem withPhase_phase (s : Scan) (phase : ScanPhase) :
    (s.withPhase phase).phase = phase := rfl

theorem withPhase_of_phase {phase : ScanPhase} (h : s.phase = phase) : s.withPhase phase = s := by
  rw [← h]
  rfl

/-! ## Steps of the reader -/

/-- What a scan reports for a failure of its reader. -/
def surfaced (failure : Failure) : Failure :=
  if failure.isExhaustion then .misplacedEnd else failure

theorem finish_apply (s : Scan) (w : Server) : finish s w = ⟨.ok (), s.withPhase .ended, w, []⟩ :=
  rfl

theorem release_apply (reader : Reader) (s : Scan) (w : Server) :
    release reader s w =
      ⟨(Reader.close reader w).result.mapError surfaced, s.withPhase .ended,
        (Reader.close reader w).server, (Reader.close reader w).events⟩ := by
  unfold release
  rw [Act.bind_apply, finish_apply]
  simp only [Act.attempt_bind, Act.within, Outcome.after_nil]
  cases (Reader.close reader w).result with
  | ok _ => simp [Except.map, Except.mapError, Act.pure_apply]
  | error failure => simp [Except.map, Except.mapError, failWith, surfaced, Act.fail]

theorem onReader_ok {x : Act Reader α} {a : α} (h : (x reader w).result = .ok a) (s : Scan) :
    onReader reader x s w =
      ⟨.ok (a, (x reader w).state), s, (x reader w).server, (x reader w).events⟩ := by
  unfold onReader
  simp [Act.bind_apply, Act.within, Act.attempt, h, Except.map, Act.pure_apply, Outcome.after]

/-- A step that fails ends the scan, after the reader was closed.  Of two
failures that of closing is reported. -/
theorem onReader_error {x : Act Reader α} {failure : Failure}
    (h : (x reader w).result = .error failure) (s : Scan) :
    let closed := Reader.close (x reader w).state (x reader w).server
    onReader reader x s w =
      ⟨(closed.result.mapError surfaced).bind fun _ => .error (surfaced failure),
        s.withPhase .ended, closed.server, (x reader w).events ++ closed.events⟩ := by
  intro closed
  unfold onReader
  simp only [Act.bind_apply, Act.within, Act.attempt, h, Except.map, release_apply]
  cases (Reader.close (x reader w).state (x reader w).server).result with
  | ok _ => simp [closed, Except.mapError, Except.bind, failWith, Act.fail, surfaced]
  | error closing => simp [closed, Except.mapError, Except.bind]

/-! ## Draws -/

/-- A draw through a reader that is open. -/
def drawFrom (reader : Reader) : Act Scan (Option Value) := do
  match ← onReader reader Reader.draw with
  | (some document, after) =>
    Act.set ((← Act.get).withPhase (.running after))
    return some document
  | (none, after) =>
    release after
    return none

theorem drawFrom_some {document : Value} (h : (Reader.draw reader w).result = .ok (some document))
    (s : Scan) :
    drawFrom reader s w =
      ⟨.ok (some document), s.withPhase (.running (Reader.draw reader w).state),
        (Reader.draw reader w).server, (Reader.draw reader w).events⟩ := by
  unfold drawFrom
  rw [Act.bind_apply, onReader_ok h]
  simp [Act.pure_apply]

theorem drawFrom_stop (h : ∀ document, (Reader.draw reader w).result ≠ .ok (some document))
    (s : Scan) :
    let drawn := Reader.draw reader w
    let closed := Reader.close drawn.state drawn.server
    drawFrom reader s w =
      ⟨(closed.result.mapError surfaced).bind fun _ => drawn.result.mapError surfaced,
        s.withPhase .ended, closed.server, drawn.events ++ closed.events⟩ := by
  intro drawn closed
  -- A draw that fails closes the reader inside the step, one that finds the end after it.
  cases hresult : drawn.result with
  | error failure =>
    have hfailed := onReader_error hresult s
    unfold drawFrom
    rw [Act.bind_apply, hfailed]
    cases closed.result <;>
      simp [closed, drawn, Except.mapError, Except.bind]
  | ok found =>
    cases found with
    | some document => exact absurd hresult (h document)
    | none =>
      unfold drawFrom
      rw [Act.bind_apply, onReader_ok hresult]
      simp only [Act.bind_apply, release_apply]
      cases closed.result <;>
        simp [closed, drawn, Except.mapError, Except.bind, Act.pure_apply]

theorem result_drawFrom_stop (h : ∀ document, (Reader.draw reader w).result ≠ .ok (some document))
    (s : Scan) (document : Value) : (drawFrom reader s w).result ≠ .ok (some document) := by
  rw [drawFrom_stop h]
  cases (Reader.close (Reader.draw reader w).state (Reader.draw reader w).server).result with
  | error closing => simp [Except.mapError, Except.bind]
  | ok _ =>
    cases hresult : (Reader.draw reader w).result with
    | error failure => simp [Except.mapError, Except.bind]
    | ok found =>
      have hfound : found ≠ some document := by
        rintro rfl
        exact h document hresult
      simpa [Except.mapError, Except.bind] using hfound

theorem drawFrom_withPhase (reader : Reader) (s : Scan) (w : Server) (phase : ScanPhase) :
    drawFrom reader (s.withPhase phase) w = drawFrom reader s w := by
  by_cases hsome : ∃ document, (Reader.draw reader w).result = .ok (some document)
  · obtain ⟨document, hdocument⟩ := hsome
    rw [drawFrom_some hdocument, drawFrom_some hdocument]
    rfl
  · have hstop := not_exists.mp hsome
    rw [drawFrom_stop hstop, drawFrom_stop hstop]
    rfl

theorem draw_eq :
    draw = (do
      match ← openedReader with
      | none => return none
      | some reader => drawFrom reader : Act Scan (Option Value)) := rfl

theorem draw_ended (h : s.phase = .ended) : draw s w = ⟨.ok none, s, w, []⟩ := by
  unfold draw openedReader
  rw [Act.bind_apply, Act.get_bind, h]
  rfl

theorem draw_running (h : s.phase = .running reader) : draw s w = drawFrom reader s w := by
  rw [draw_eq, Act.bind_apply]
  unfold openedReader
  rw [Act.get_bind, h]
  rfl

/-- The reader of a scan before it is opened. -/
def unopened (s : Scan) (config : Config) : Reader := .fresh config s.columns s.filters

theorem draw_unresolved {e : ConfigError} (h : s.phase = .waiting)
    (hconfig : s.config.resolve = .error e) :
    draw s w = ⟨.error (.config e), s.withPhase .ended, w, []⟩ := by
  unfold draw openedReader
  rw [Act.bind_apply, Act.get_bind, h]
  simp only [hconfig]
  rfl

theorem openedReader_waiting {config : Config} (h : s.phase = .waiting)
    (hconfig : s.config.resolve = .ok config) :
    openedReader s w = (do
      let ((), opened) ← onReader (s.unopened config) (Reader.init s.partition)
      return some opened : Act Scan (Option Reader)) s w := by
  unfold openedReader
  rw [Act.get_bind, h]
  simp only [hconfig]
  rfl

theorem draw_unopened {config : Config} {failure : Failure} (h : s.phase = .waiting)
    (hconfig : s.config.resolve = .ok config)
    (hinit : (Reader.init s.partition (s.unopened config) w).result = .error failure) :
    let opened := Reader.init s.partition (s.unopened config) w
    let closed := Reader.close opened.state opened.server
    draw s w =
      ⟨(closed.result.mapError surfaced).bind fun _ => .error (surfaced failure),
        s.withPhase .ended, closed.server, opened.events ++ closed.events⟩ := by
  intro opened closed
  have hfailed := onReader_error hinit s
  rw [draw_eq, Act.bind_apply, openedReader_waiting h hconfig, Act.bind_apply, hfailed]
  cases closed.result <;> simp [closed, opened, Except.mapError, Except.bind]

theorem result_draw_unopened {config : Config} {failure : Failure} (h : s.phase = .waiting)
    (hconfig : s.config.resolve = .ok config)
    (hinit : (Reader.init s.partition (s.unopened config) w).result = .error failure)
    (document : Value) : (draw s w).result ≠ .ok (some document) := by
  rw [draw_unopened h hconfig hinit]
  cases (Reader.close _ _).result <;> simp [Except.mapError, Except.bind]

theorem draw_opened {config : Config} (h : s.phase = .waiting)
    (hconfig : s.config.resolve = .ok config)
    (hinit : (Reader.init s.partition (s.unopened config) w).result = .ok ()) :
    let opened := Reader.init s.partition (s.unopened config) w
    draw s w =
      (draw (s.withPhase (.running opened.state)) opened.server).after opened.events := by
  intro opened
  rw [draw_running (s.withPhase_phase _), drawFrom_withPhase, draw_eq, Act.bind_apply,
    openedReader_waiting h hconfig, Act.bind_apply, onReader_ok hinit]
  simp [Act.pure_apply, opened]

theorem draw_cases_running (h : s.phase = .running reader) :
    (∃ document, (draw s w).result = .ok (some document)) ∨
      (∀ document, (draw s w).result ≠ .ok (some document)) ∧
        (draw s w).state.phase = .ended := by
  rw [draw_running h]
  by_cases hsome : ∃ document, (Reader.draw reader w).result = .ok (some document)
  · obtain ⟨document, hdocument⟩ := hsome
    left
    rw [drawFrom_some hdocument]
    exact ⟨document, rfl⟩
  · right
    have hstop := not_exists.mp hsome
    refine ⟨result_drawFrom_stop hstop s, ?_⟩
    rw [drawFrom_stop hstop]
    rfl

/-- A draw hands out a document or ends the scan. -/
theorem draw_cases (s : Scan) (w : Server) :
    (∃ document, (draw s w).result = .ok (some document)) ∨
      (∀ document, (draw s w).result ≠ .ok (some document)) ∧
        (draw s w).state.phase = .ended := by
  cases hphase : s.phase with
  | ended =>
    right
    rw [draw_ended hphase]
    exact ⟨by simp, hphase⟩
  | running reader => exact draw_cases_running hphase
  | waiting =>
    cases hconfig : s.config.resolve with
    | error e =>
      right
      rw [draw_unresolved hphase hconfig]
      exact ⟨by simp, rfl⟩
    | ok config =>
      cases hinit : (Reader.init s.partition (s.unopened config) w).result with
      | error failure =>
        right
        refine ⟨result_draw_unopened hphase hconfig hinit, ?_⟩
        rw [draw_unopened hphase hconfig hinit]
        rfl
      | ok _ =>
        rw [draw_opened hphase hconfig hinit]
        exact draw_cases_running (s.withPhase_phase _)

/-! ## Commands -/

theorem perform_next (s : Scan) (w : Server) :
    perform .next s w =
      ⟨match (draw s w).result with
        | .ok (some document) => .ok (.document document)
        | .ok none => .error .exhausted
        | .error failure => .error failure,
        (draw s w).state, (draw s w).server, (draw s w).events⟩ := by
  simp only [perform, Act.bind_apply]
  cases (draw s w).result with
  | error failure => rfl
  | ok found => cases found <;> simp [Act.pure_apply, Act.fail]

theorem perform_list (s : Scan) (w : Server) :
    let listed := Act.drawUpTo draw (w.documents.length + 1) s w
    perform .list s w =
      ⟨listed.result.map .documents, listed.state, listed.server, listed.events⟩ :=
  Act.bind_pure_apply s w (Act.drawAll draw) Answer.documents

theorem perform_close_running (h : s.phase = .running reader) :
    perform .close s w =
      ⟨((Reader.close reader w).result.mapError surfaced).map fun _ => .done,
        s.withPhase .ended, (Reader.close reader w).server, (Reader.close reader w).events⟩ := by
  simp only [perform, stop, Act.bind_apply, Act.get, h, release_apply]
  cases (Reader.close reader w).result <;>
    simp [Act.pure_apply, Except.map, Except.mapError]

theorem perform_close_idle (h : ∀ reader, s.phase ≠ .running reader) :
    perform .close s w = ⟨.ok .done, s.withPhase .ended, w, []⟩ := by
  simp only [perform, stop, Act.bind_apply, Act.get]
  cases hphase : s.phase with
  | running reader => exact absurd hphase (h reader)
  | waiting => rfl
  | ended => rfl

end Scan

end DocScan
