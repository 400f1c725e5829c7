import DocScan.Proofs.ScanSteps
import DocScan.Proofs.SessionDelivery

/-!
# The draws of a scan

A scan hands out the documents of its partition in order until a draw finds the
end or fails, or it is closed; from then on it does nothing.  A list always
comes to such an end.  So how a scan is asked for documents matters only through
the number of draws before it is closed.
-/

namespace DocScan

namespace Scan

variable {documents : List Value} {k : ℕ} {reader : Reader} {s : Scan} {w : Server}

def Command.repeated? : Command → Option (Act Scan (Option Value))
  | .list => some draw
  | _ => none

def Answer.document? : Answer → Option Value
  | .document v => some v
  | _ => none

def consumer : Consumer Scan Command Answer :=
  ⟨perform, Command.repeated?, Answer.document?⟩

abbrev handedOut : Command → Scan → Server → List Value := consumer.handedOut

abbrev transcript : List Command → Scan → Server → Transcript := consumer.transcript

theorem transcript_cons (command : Command) (rest : List Command) (s : Scan) (w : Server) :
    let o := perform command s w
    transcript (command :: rest) s w =
      (transcript rest o.state o.server).after (handedOut command s w) o.events := rfl

theorem handedOut_next (s : Scan) (w : Server) : handedOut .next s w = Act.drawn draw 1 s w := by
  have hnext : (consumer.perform .next s w).result = (perform .next s w).result := rfl
  simp only [Consumer.handedOut, hnext, perform_next, Act.drawn]
  cases (draw s w).result with
  | error failure => rfl
  | ok found => cases found <;> rfl

theorem handedOut_close (s : Scan) (w : Server) : handedOut .close s w = [] := by
  apply consumer.handedOut_of_none rfl
  intro answer hanswer
  have hclose : (perform .close s w).result = .ok answer := hanswer
  simp only [perform, Act.bind_apply] at hclose
  cases hstop : (stop s w).result with
  | error failure =>
    rw [hstop] at hclose
    contradiction
  | ok _ =>
    rw [hstop] at hclose
    cases hclose
    rfl

/-! ## After the end -/

/-- What a scan answers after its end. -/
def afterEnd : Command → Except Failure Answer
  | .next => .error .exhausted
  | .list => .ok (.documents [])
  | .close => .ok .done

theorem drawUpTo_ended (h : s.phase = .ended) (limit : ℕ) (w : Server) :
    Act.drawUpTo draw limit s w = ⟨.ok [], s, w, []⟩ := by
  cases limit with
  | zero => rfl
  | succ limit =>
    have hdraw := draw_ended (w := w) h
    rw [Act.drawUpTo_succ_stop (by simp [hdraw]), hdraw]
    rfl

theorem perform_ended (h : s.phase = .ended) (command : Command) (w : Server) :
    perform command s w = ⟨afterEnd command, s, w, []⟩ := by
  cases command with
  | next =>
    rw [perform_next, draw_ended h]
    rfl
  | list =>
    rw [perform_list, drawUpTo_ended h]
    rfl
  | close =>
    rw [perform_close_idle (by simp [h]), withPhase_of_phase h]
    rfl

theorem handedOut_ended (h : s.phase = .ended) (command : Command) (w : Server) :
    handedOut command s w = [] := by
  have hdraw := draw_ended (w := w) h
  have hdrawn (limit : ℕ) : Act.drawn draw (limit + 1) s w = [] :=
    Act.drawn_succ_stop (by simp [hdraw])
  cases command with
  | next => exact (handedOut_next s w).trans (hdrawn 0)
  | list => exact hdrawn _
  | close => exact handedOut_close s w

theorem course_ended (h : s.phase = .ended) (commands : List Command) (w : Server) :
    Act.course perform commands s w = ⟨commands.map afterEnd, s, w, []⟩ := by
  induction commands with
  | nil => rfl
  | cons command rest ih =>
    rw [Act.course]
    simp only [perform_ended h command w, ih]
    rfl

theorem transcript_ended (h : s.phase = .ended) (commands : List Command) (w : Server) :
    transcript commands s w = ⟨[], w, []⟩ := by
  induction commands with
  | nil => rfl
  | cons command rest ih =>
    rw [transcript_cons, perform_ended h command w, handedOut_ended h command w]
    exact ih

/-! ## Where a scan is -/

/-- The next document to be handed out, if there is one, has number `k`. -/
def AtDocument (documents : List Value) (k : ℕ) (s : Scan) : Prop :=
  match s.phase with
  | .waiting => k = 0
  | .running reader => reader.AtDocument documents k
  | .ended => True

theorem atDocument_ended (h : s.phase = .ended) (documents : List Value) (k : ℕ) :
    AtDocument documents k s := by
  rw [AtDocument, h]
  trivial

theorem atDocument_draw_running {document : Value} (h : s.phase = .running reader)
    (hat : reader.AtDocument documents k) (hw : w.documents = documents)
    (hdraw : (draw s w).result = .ok (some document)) :
    documents[k]? = some document ∧ AtDocument documents (k + 1) (draw s w).state := by
  rw [draw_running h] at hdraw ⊢
  rcases Reader.draw_atDocument hat hw with ⟨other, hresult, hother, hnext⟩ | ⟨hnone, -⟩
  · rw [drawFrom_some hresult] at hdraw ⊢
    cases hdraw
    exact ⟨hother, hnext⟩
  · exact absurd hdraw (result_drawFrom_stop hnone s document)

theorem atDocument_draw {document : Value} (h : AtDocument documents k s)
    (hw : w.documents = documents) (hdraw : (draw s w).result = .ok (some document)) :
    documents[k]? = some document ∧ AtDocument documents (k + 1) (draw s w).state := by
  cases hphase : s.phase with
  | ended =>
    rw [draw_ended hphase] at hdraw
    simp at hdraw
  | running reader =>
    rw [AtDocument, hphase] at h
    exact atDocument_draw_running hphase h hw hdraw
  | waiting =>
    rw [AtDocument, hphase] at h
    subst h
    cases hconfig : s.config.resolve with
    | error e =>
      rw [draw_unresolved hphase hconfig] at hdraw
      contradiction
    | ok config =>
      cases hinit : (Reader.init s.partition (s.unopened config) w).result with
      | error failure => exact absurd hdraw (result_draw_unopened hphase hconfig hinit document)
      | ok _ =>
        rw [draw_opened hphase hconfig hinit] at hdraw ⊢
        have hat := Reader.atDocument_of_init hinit documents
        have hopened := (Reader.movesOn_init s.partition (s.unopened config) w).documents
        exact atDocument_draw_running (s.withPhase_phase _) hat (hopened.trans hw) hdraw

/-- The limit of a list is never what ends it. -/
theorem phase_drawUpTo {limit : ℕ} (h : AtDocument documents k s) (hw : w.documents = documents)
    (hlimit : documents.length - k < limit) :
    (Act.drawUpTo draw limit s w).state.phase = .ended := by
  induction limit generalizing k s w with
  | zero => contradiction
  | succ limit ih =>
    rcases draw_cases s w with ⟨document, hdraw⟩ | ⟨hnone, hended⟩
    · obtain ⟨hdocument, hat⟩ := atDocument_draw h hw hdraw
      have hlt : k < documents.length := (List.getElem?_eq_some_iff.mp hdocument).1
      have hserver : (draw s w).server.documents = documents :=
        (movesOn_draw s w).documents.trans hw
      rw [Act.drawUpTo_succ_some hdraw]
      exact ih hat hserver (by omega)
    · rw [Act.drawUpTo_succ_stop hnone]
      exact hended

theorem phase_list (h : AtDocument documents k s) (hw : w.documents = documents) :
    (perform .list s w).state.phase = .ended := by
  have hlimit : documents.length - k < w.documents.length + 1 := by
    rw [hw]
    omega
  rw [perform_list]
  exact phase_drawUpTo h hw hlimit

theorem phase_close (s : Scan) (w : Server) : (perform .close s w).state.phase = .ended := by
  cases hphase : s.phase with
  | running reader =>
    rw [perform_close_running hphase]
    rfl
  | waiting | ended =>
    rw [perform_close_idle (by simp [hphase])]
    rfl

theorem perform_atDocument (h : AtDocument documents k s) (hw : w.documents = documents)
    (command : Command) : ∃ k', AtDocument documents k' (perform command s w).state := by
  cases command with
  | next =>
    rw [perform_next]
    rcases draw_cases s w with ⟨document, hdraw⟩ | ⟨-, hended⟩
    · exact ⟨k + 1, (atDocument_draw h hw hdraw).2⟩
    · exact ⟨k, atDocument_ended hended documents k⟩
  | list => exact ⟨k, atDocument_ended (phase_list h hw) documents k⟩
  | close => exact ⟨k, atDocument_ended (phase_close s w) documents k⟩

theorem course_atDocument (h : AtDocument documents k s) (hw : w.documents = documents)
    (commands : List Command) :
    let reached := Act.course perform commands s w
    (∃ k', AtDocument documents k' reached.state) ∧ reached.server.documents = documents := by
  induction commands generalizing k s w with
  | nil => exact ⟨⟨k, h⟩, hw⟩
  | cons command rest ih =>
    obtain ⟨k', hat⟩ := perform_atDocument h hw command
    exact ih hat ((movesOn_perform command s w).documents.trans hw)

theorem phase_perform {command : Command} (h : AtDocument documents k s)
    (hw : w.documents = documents)
    (hends : command ≠ .next ∨ ∃ failure, (perform command s w).result = .error failure) :
    (perform command s w).state.phase = .ended := by
  cases command with
  | list => exact phase_list h hw
  | close => exact phase_close s w
  | next =>
    rcases hends with hcommand | ⟨failure, hfailure⟩
    · contradiction
    · rw [perform_next] at hfailure ⊢
      rcases draw_cases s w with ⟨document, hdraw⟩ | ⟨-, hended⟩
      · simp only [hdraw] at hfailure
        contradiction
      · exact hended

/-! ## One draw at a time -/

/-- The draws that are asked of a scan before it is closed, where a list over a
number of documents asks for one draw more. -/
def demand (size : ℕ) : List Command → ℕ
  | [] => 0
  | .next :: rest => 1 + demand size rest
  | .list :: rest => (size + 1) + demand size rest
  | .close :: _ => 0

def stops (commands : List Command) : Bool := commands.contains .close

/-- A number of draws, after which the scan may be closed. -/
def draws (n : ℕ) (stopped : Bool) : List Command :=
  List.replicate n .next ++ if stopped then [.close] else []

theorem draws_succ (n : ℕ) (stopped : Bool) :
    draws (n + 1) stopped = .next :: draws n stopped := rfl

theorem draws_add (m n : ℕ) (stopped : Bool) :
    draws (m + n) stopped = List.replicate m .next ++ draws n stopped := by
  rw [draws, List.replicate_add, List.append_assoc]
  rfl

theorem transcript_next_some {document : Value} {rest : List Command}
    (h : (draw s w).result = .ok (some document)) :
    transcript (.next :: rest) s w =
      (transcript rest (draw s w).state (draw s w).server).after [document] (draw s w).events := by
  have hhanded : handedOut .next s w = [document] := by
    rw [handedOut_next, Act.drawn, h]
    rfl
  rw [transcript_cons, perform_next, hhanded]

theorem transcript_next_stop {rest : List Command}
    (h : ∀ document, (draw s w).result ≠ .ok (some document))
    (hended : (draw s w).state.phase = .ended) :
    transcript (.next :: rest) s w = ⟨[], (draw s w).server, (draw s w).events⟩ := by
  have hhanded : handedOut .next s w = [] := (handedOut_next s w).trans (Act.drawn_succ_stop h)
  rw [transcript_cons, perform_next, hhanded, transcript_ended hended]
  simp [Transcript.after]

theorem transcript_next_of_draw {s' : Scan} {w' : Server} {before : List Event}
    (h : draw s w = (draw s' w').after before) (rest : List Command) :
    transcript (.next :: rest) s w = (transcript (.next :: rest) s' w').after [] before := by
  have hhanded : handedOut .next s w = handedOut .next s' w' := by
    simp only [handedOut_next, Act.drawn, h, Outcome.after_result]
  rw [transcript_cons, transcript_cons, perform_next, perform_next, hhanded, h]
  simp

/-- Many draws at once are as good as one after the other. -/
theorem transcript_drawUpTo (limit : ℕ) (rest : List Command) (s : Scan) (w : Server) :
    let listed := Act.drawUpTo draw limit s w
    (transcript rest listed.state listed.server).after (Act.drawn draw limit s w) listed.events =
      transcript (List.replicate limit .next ++ rest) s w := by
  -- What follows is carried along: after the end the draws that are left do nothing, and
  -- neither does the rest.
  induction limit generalizing s w with
  | zero => rfl
  | succ limit ih =>
    rw [List.replicate_succ, List.cons_append]
    rcases draw_cases s w with ⟨document, hdraw⟩ | ⟨hnone, hended⟩
    · rw [transcript_next_some hdraw, ← ih, Act.drawUpTo_succ_some hdraw,
        Act.drawn_succ_some hdraw]
      simp
    · rw [transcript_next_stop hnone hended, Act.drawUpTo_succ_stop hnone,
        Act.drawn_succ_stop hnone]
      simp [transcript_ended hended, Transcript.after]

theorem transcript_eq_draws (commands : List Command) (s : Scan) (w : Server) :
    transcript commands s w =
      transcript (draws (demand w.documents.length commands) (stops commands)) s w := by
  induction commands generalizing s w with
  | nil => rfl
  | cons command rest ih =>
    have hdocuments := (movesOn_perform command s w).documents
    have hrest := ih (perform command s w).state (perform command s w).server
    rw [hdocuments] at hrest
    rw [transcript_cons, hrest]
    cases command with
    | next =>
      have hstops : stops (.next :: rest) = stops rest := rfl
      rw [demand, hstops, draws_add]
      rfl
    | list =>
      have hstops : stops (.list :: rest) = stops rest := rfl
      rw [demand, hstops, draws_add, ← transcript_drawUpTo, perform_list]
      rfl
    | close =>
      have hdraws : draws (demand w.documents.length (.close :: rest)) (stops (.close :: rest)) =
        [.close] := rfl
      have hended := phase_close s w
      rw [hdraws, transcript_cons, transcript_ended hended, transcript_ended hended]

end Scan

end DocScan
