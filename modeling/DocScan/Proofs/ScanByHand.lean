import DocScan.Proofs.ScanDraws

/-!
# A scan does what a session does by hand

Whoever reads a partition by hand opens a reader, draws documents through one
iterator and closes the reader as soon as opening it or a draw fails, the
documents end, or no more of them are wanted.  A scan hands out the same
documents and causes the same events.
-/

namespace DocScan

namespace Session

abbrev transcript : List Command → Session → Server → Transcript := consumer.transcript

theorem transcript_cons (command : Command) (rest : List Command) (s : Session) (w : Server) :
    let o := perform command s w
    transcript (command :: rest) s w =
      (transcript rest o.state o.server).after (handedOut command s w) o.events := rfl

theorem transcript_close (s : Session) (w : Server) :
    let closed := Reader.close s.reader w
    transcript [.close] s w = ⟨[], closed.server, closed.events⟩ := by
  have hclose := perform_close s w
  have hnone : handedOut .close s w = [] := by
    apply handedOut_of_ne (by simp)
    rw [hclose]
    cases (Reader.close s.reader w).result <;> simp [Except.map]
  rw [transcript_cons, hnone, hclose]
  simp [Consumer.transcript, Act.course, Consumer.handedOutBy, Transcript.after]

/-! ## By hand -/

/-- Draws a number of documents through an iterator that runs.  The reader is
closed as soon as a draw gives none, or after the last draw if the user stops. -/
def drawsByHand (name : String) : ℕ → Bool → Session → Server → List Command
  | 0, stopped, _, _ => if stopped then [.close] else []
  | n + 1, stopped, s, w =>
    let drawn := perform (.iterNext name) s w
    .iterNext name ::
      match drawn.result with
      | .ok _ => drawsByHand name n stopped drawn.state drawn.server
      | .error _ => [.close]

/-- Opens the reader on a partition and draws a number of documents.  A user who
wants none does nothing at all. -/
def byHand (name : String) (data : Value) (n : ℕ) (stopped : Bool) (s : Session) (w : Server) :
    List Command :=
  if n = 0 then []
  else
    let opened := perform (.init data) s w
    .init data ::
      match opened.result with
      | .ok _ =>
        let iterating := perform (.iter name) opened.state opened.server
        .iter name :: drawsByHand name n stopped iterating.state iterating.server
      | .error _ => [.close]

variable {name : String} {n : ℕ} {stopped : Bool} {s : Session} {w : Server}

theorem isRunning_withIterator (s : Session) (name : String) :
    (s.withIterator name true).isRunning name = true := by
  simp [SessionOf.isRunning, SessionOf.withIterator]

theorem transcript_drawsByHand_some {document : Value} (hrunning : s.isRunning name = true)
    (hdraw : (Reader.draw s.reader w).result = .ok (some document)) :
    let drawn := Reader.draw s.reader w
    let after := s.withReader drawn.state
    transcript (drawsByHand name (n + 1) stopped s w) s w =
      (transcript (drawsByHand name n stopped after drawn.server) after drawn.server).after
        [document] drawn.events := by
  intro drawn after
  have hnext := perform_iterNext_some s w hrunning hdraw
  have hhanded : handedOut (.iterNext name) s w = [document] :=
    handedOut_of_document (by simp) (congrArg Outcome.result hnext)
  rw [drawsByHand]
  simp only [hnext]
  rw [transcript_cons, hnext, hhanded]

theorem transcript_drawsByHand_stop (hrunning : s.isRunning name = true)
    (hdraw : ∀ document, (Reader.draw s.reader w).result ≠ .ok (some document)) :
    let drawn := Reader.draw s.reader w
    let closed := Reader.close drawn.state drawn.server
    transcript (drawsByHand name (n + 1) stopped s w) s w =
      ⟨[], closed.server, drawn.events ++ closed.events⟩ := by
  intro drawn closed
  obtain ⟨failure, hnext⟩ := perform_iterNext_stop s w hrunning hdraw
  have hhanded : handedOut (.iterNext name) s w = [] :=
    handedOut_of_ne (by simp) (by simp [hnext])
  rw [drawsByHand]
  simp only [hnext]
  rw [transcript_cons, hnext, hhanded]
  simp only [transcript_close]
  rfl

theorem transcript_byHand_failed {data : Value} {failure : Failure}
    (hinit : (perform (.init data) s w).result = .error failure) :
    let opened := perform (.init data) s w
    let closed := Reader.close opened.state.reader opened.server
    transcript (byHand name data (n + 1) stopped s w) s w =
      ⟨[], closed.server, opened.events ++ closed.events⟩ := by
  intro opened closed
  have hhanded : handedOut (.init data) s w = [] := handedOut_of_ne (by simp) (by simp [hinit])
  rw [byHand, if_neg (Nat.succ_ne_zero n)]
  simp only [hinit]
  rw [transcript_cons, hhanded]
  simp only [transcript_close]
  rfl

theorem transcript_byHand_opened {data : Value}
    (hinit : (perform (.init data) s w).result = .ok .done) :
    let opened := perform (.init data) s w
    let iterating := opened.state.withIterator name true
    transcript (byHand name data (n + 1) stopped s w) s w =
      (transcript (drawsByHand name (n + 1) stopped iterating opened.server) iterating
        opened.server).after [] opened.events := by
  intro opened iterating
  have hhanded : handedOut (.init data) s w = [] := handedOut_of_ne (by simp) (by simp [hinit])
  rw [byHand, if_neg (Nat.succ_ne_zero n)]
  simp only [hinit, perform_iter]
  rw [transcript_cons, hhanded]
  rfl

end Session

namespace Scan

variable {n : ℕ} {stopped : Bool} {s : Scan} {w : Server}

theorem transcript_close_running {reader : Reader} (h : s.phase = .running reader) :
    let closed := Reader.close reader w
    transcript [.close] s w = ⟨[], closed.server, closed.events⟩ := by
  rw [transcript_cons, handedOut_close, perform_close_running h]
  simp [Consumer.transcript, Act.course, Consumer.handedOutBy, Transcript.after]

theorem transcript_close_waiting (h : s.phase = .waiting) :
    transcript [.close] s w = ⟨[], w, []⟩ := by
  rw [transcript_cons, handedOut_close, perform_close_idle (by simp [h])]
  rfl

theorem transcript_draws_running {t : Session} {name : String} (n : ℕ) (stopped : Bool)
    (w : Server) (h : s.phase = .running t.reader) (hrunning : t.isRunning name = true) :
    transcript (draws n stopped) s w = t.transcript (t.drawsByHand name n stopped w) w := by
  -- Each draw that gives a document leaves scan and session with the same reader again.
  induction n generalizing s t w with
  | zero =>
    cases stopped with
    | false => rfl
    | true => exact (transcript_close_running h).trans (t.transcript_close w).symm
  | succ n ih =>
    have hdraw := draw_running (w := w) h
    rw [draws_succ]
    by_cases hsome : ∃ document, (Reader.draw t.reader w).result = .ok (some document)
    · obtain ⟨document, hdocument⟩ := hsome
      have hscan := drawFrom_some hdocument s
      rw [transcript_next_some (by rw [hdraw, hscan]), hdraw, hscan,
        Session.transcript_drawsByHand_some hrunning hdocument]
      have hrest := ih (Reader.draw t.reader w).server
        (s := s.withPhase (.running (Reader.draw t.reader w).state))
        (t := t.withReader (Reader.draw t.reader w).state) rfl hrunning
      rw [hrest]
    · have hnone := not_exists.mp hsome
      have hscan := drawFrom_stop hnone s
      have hstop := result_drawFrom_stop hnone s
      rw [transcript_next_stop (by rwa [hdraw]) (by rw [hdraw, hscan]; rfl), hdraw, hscan,
        Session.transcript_drawsByHand_stop hrunning hnone]

theorem transcript_draws_waiting {config : Config} {data : Value} (name : String) (n : ℕ)
    (stopped : Bool) (h : s.phase = .waiting) (hconfig : s.config.resolve = .ok config)
    (hp : Partition.ofArguments data = .ok s.partition) :
    let session := Session.start (s.unopened config)
    transcript (draws n stopped) s w =
      session.transcript (session.byHand name data n stopped w) w := by
  intro session
  cases n with
  | zero =>
    cases stopped with
    | false => rfl
    | true => exact transcript_close_waiting h
  | succ n =>
    let opened := Reader.init s.partition (s.unopened config) w
    have hperform := session.perform_init_of_partition w hp
    rw [draws_succ]
    cases hinit : opened.result with
    | error failure =>
      have hfailed : (session.perform (.init data) w).result = .error failure := by
        rw [hperform]
        exact congrArg (Except.map fun _ => Session.Answer.done) hinit
      have hdraw := draw_unopened h hconfig hinit
      rw [transcript_next_stop (result_draw_unopened h hconfig hinit) (by rw [hdraw]; rfl), hdraw,
        Session.transcript_byHand_failed hfailed, hperform]
      rfl
    | ok _ =>
      have hopened : (session.perform (.init data) w).result = .ok .done := by
        rw [hperform]
        exact congrArg (Except.map fun _ => Session.Answer.done) hinit
      have hrunning := Session.isRunning_withIterator (session.withReader opened.state) name
      have hdraws := transcript_draws_running (s := s.withPhase (.running opened.state)) (n + 1)
        stopped opened.server rfl hrunning
      rw [transcript_next_of_draw (draw_opened h hconfig hinit), ← draws_succ,
        Session.transcript_byHand_opened hopened, hperform]
      exact congrArg (Transcript.after [] opened.events) hdraws

theorem transcript_unresolved {e : ConfigError} (h : s.phase = .waiting)
    (hconfig : s.config.resolve = .error e) (n : ℕ) (stopped : Bool) :
    transcript (draws n stopped) s w = ⟨[], w, []⟩ := by
  cases n with
  | zero =>
    cases stopped with
    | false => rfl
    | true => exact transcript_close_waiting h
  | succ n =>
    have hdraw := draw_unresolved (w := w) h hconfig
    rw [draws_succ, transcript_next_stop (by simp [hdraw]) (by rw [hdraw]; rfl), hdraw]

theorem transcript_closes (h : s.phase = .waiting) {commands : List Command}
    (hcloses : ∀ command ∈ commands, command = .close) :
    transcript commands s w = ⟨[], w, []⟩ := by
  cases commands with
  | nil => rfl
  | cons command rest =>
    have hcommand : command = .close := hcloses command List.mem_cons_self
    have hclose := perform_close_idle (s := s) (w := w) (by simp [h])
    rw [hcommand, transcript_cons, handedOut_close, transcript_ended (phase_close s w), hclose]
    rfl

/-- Whatever a scan is asked, it does nothing before its first draw, it then hands
out the documents and causes the events of a session that opens a reader, draws
as often and closes the reader, and after a list, a close or a failure it gives
nothing more. -/
theorem transcript_eq_byHand {data : Value} {p : Partition}
    (hp : Partition.ofArguments data = .ok p) (source : ConfigSource) (columns : List String)
    (filters : List Filter) (commands : List Command) (w : Server) (name : String) :
    let scan := waiting source columns filters p
    let n := demand w.documents.length commands
    let stopped := stops commands
    (∀ config, source.resolve = .ok config →
      let session := Session.start (.fresh config columns filters)
      transcript commands scan w =
        session.transcript (session.byHand name data n stopped w) w) ∧
    (∀ e, source.resolve = .error e → transcript commands scan w = ⟨[], w, []⟩) ∧
    ((∀ command ∈ commands, command = .close) → transcript commands scan w = ⟨[], w, []⟩) ∧
    ∀ (earlier : List Command) (command : Command) (later : List Command),
      let reached := Act.course perform earlier scan w
      let o := perform command reached.state reached.server
      command ≠ .next ∨ (∃ failure, o.result = .error failure) →
        Act.course perform later o.state o.server =
          ⟨later.map afterEnd, o.state, o.server, []⟩ := by
  intro scan n stopped
  have hphase : scan.phase = .waiting := rfl
  have hdraws : transcript commands scan w = transcript (draws n stopped) scan w :=
    transcript_eq_draws commands scan w
  refine ⟨?_, ?_, transcript_closes hphase, ?_⟩
  · intro config hconfig
    exact hdraws.trans (transcript_draws_waiting name n stopped hphase hconfig hp)
  · intro e hconfig
    exact hdraws.trans (transcript_unresolved hphase hconfig n stopped)
  · intro earlier command later reached o hends
    have hat : AtDocument w.documents 0 scan := rfl
    obtain ⟨⟨k, hreached⟩, hdocuments⟩ := course_atDocument hat rfl earlier
    exact course_ended (phase_perform hreached hdocuments hends) later o.server

/-- An interrupt at the second fetch, and a client that cannot be closed then.  One
document is handed out, and the list that was cut short leaves nothing to draw. -/
theorem transcript_eq_byHand_interrupted :
    let data : Value := .dict [(.text "hosts", .list [.text "h"])]
    let p : Partition := ⟨0, ["h"], .unbounded⟩
    let source : ConfigSource :=
      .mapping (.dict [(.text "database", .text "db"), (.text "collection", .text "docs")])
    let config : Config := ⟨"db", "docs", [], "_id", none, 5000, 10000, []⟩
    let interrupt : Report := ⟨.interrupt "KeyboardInterrupt", "stop"⟩
    let refusal : Report := ⟨.ordinary "OSError", "down"⟩
    let w : Server := ⟨[.int 1, .int 2], fun point =>
      if point = .fetch then [none, some interrupt]
      else if point = .clientClose then [some refusal] else [], 0⟩
    let scan := waiting source [] [] p
    let session := Session.start (.fresh config [] [])
    let commands : List Command := [.next, .list, .next]
    let manual :=
      session.byHand "i" data (demand w.documents.length commands) (stops commands) w
    let reached := Act.course perform [.next] scan w
    let listed := perform .list reached.state reached.server
    Partition.ofArguments data = .ok p ∧ source.resolve = .ok config ∧
      transcript commands scan w = session.transcript manual w ∧
      (session.transcript manual w).handed = [.int 1] ∧ .clientClose 1 ∈ listed.events ∧
      Act.course perform [.next] listed.state listed.server =
        ⟨[.error .exhausted], listed.state, listed.server, []⟩ := by
  intro data p source config interrupt refusal w scan session commands manual reached listed
  have hp : Partition.ofArguments data = .ok p := rfl
  have hconfig : source.resolve = .ok config := rfl
  obtain ⟨hagrees, -, -, hquiet⟩ :=
    transcript_eq_byHand hp source [] [] commands w "i"
  have hhanded : (session.transcript manual w).handed = [.int 1] := by
    decide +kernel
  have hclosed : .clientClose 1 ∈ listed.events := by
    decide +kernel
  exact ⟨hp, hconfig, hagrees config hconfig, hhanded, hclosed,
    hquiet [.next] .list [.next] (.inl (by simp))⟩

end Scan

end DocScan
