import DocScan.Proofs.ReaderDelivery
import DocScan.Proofs.ReaderOpening
import DocScan.Proofs.ReadingFrame
import DocScan.Proofs.Transcripts

/-!
# Delivery through a session

However the ways of reading are mixed, a session hands out the documents of
its reader in order and each of them once.  What is proved of one command is
carried through any number of them by induction.
-/

namespace DocScan

theorem Reader.atDocument_of_init {p : Partition} {r : Reader} {w : Server}
    (h : (init p r w).result = .ok ()) (documents : List Value) :
    AtDocument documents 0 (init p r w).state := by
  refine ⟨Nat.zero_le _, w.clients + 1, ⟨0, none⟩, phase_of_init h, rfl, ?_⟩
  intro document hdocument
  contradiction

namespace Session

def Command.repeated? : Command → Option (Act Session (Option Value))
  | .list => some (SessionOf.onReader Reader.draw)
  | _ => none

def Answer.document? : Answer → Option Value
  | .document v => some v
  | _ => none

def consumer : Consumer Session Command Answer :=
  ⟨perform, Command.repeated?, Answer.document?⟩

/-- The documents that a command hands out.  Those of a list are the ones that
its draws hand out, also when the list fails later. -/
abbrev handedOut : Command → Session → Server → List Value := consumer.handedOut

abbrev handedOutBy : List Command → Session → Server → List Value := consumer.handedOutBy

variable {documents : List Value} {k : ℕ} {s : Session} {w : Server}

theorem drawn_onReader (draw : Act Reader (Option Value)) (limit : ℕ) (s : Session) (w : Server) :
    Act.drawn (SessionOf.onReader draw) limit s w = Act.drawn draw limit s.reader w := by
  induction limit generalizing s w with
  | zero => rfl
  | succ limit ih =>
    have hafter := ih (s.withReader (draw s.reader w).state) (draw s.reader w).server
    simp only [Act.drawn, SessionOf.onReader, Act.focus]
    split
    · exact congrArg _ hafter
    · rfl

theorem handedOut_list (s : Session) (w : Server) :
    handedOut .list s w = Act.drawn Reader.draw (w.documents.length + 1) s.reader w :=
  drawn_onReader Reader.draw _ s w

theorem handedOut_of_documents {found : List Value}
    (h : (perform .list s w).result = .ok (.documents found)) : handedOut .list s w = found := by
  rw [perform_list] at h
  rw [handedOut_list]
  simp only at h
  cases hresult : (Reader.drawAll s.reader w).result with
  | error failure =>
    rw [hresult] at h
    contradiction
  | ok drawn =>
    rw [hresult] at h
    cases h
    exact (Act.result_drawUpTo hresult).symm

theorem repeated?_of_ne {command : Command} (hlist : command ≠ .list) :
    command.repeated? = none := by
  cases command with
  | list => contradiction
  | _ => rfl

theorem handedOut_of_ne {command : Command} (hlist : command ≠ .list)
    (h : ∀ document, (perform command s w).result ≠ .ok (.document document)) :
    handedOut command s w = [] := by
  apply consumer.handedOut_of_none (repeated?_of_ne hlist)
  intro answer hanswer
  cases answer with
  | document document => exact absurd hanswer (h document)
  | _ => rfl

theorem handedOut_of_document {command : Command} {document : Value} (hlist : command ≠ .list)
    (h : (perform command s w).result = .ok (.document document)) :
    handedOut command s w = [document] :=
  consumer.handedOut_of_answer (repeated?_of_ne hlist) h

/-- What a command that draws at most once comes to where the next document
has number `k`: it hands that document out, or announces it, or leaves the
reader as it was. -/
inductive DrawsOnce (documents : List Value) (k : ℕ) (s : Session) (o : Outcome Session Answer) :
    Prop where
  | handsOut (document : Value) (result : o.result = .ok (.document document))
      (isNext : documents[k]? = some document)
      (after : o.state.reader.AtDocument documents (k + 1))
  | announces (client : ℕ) (document : Value) (result : o.result = .ok (.flag true))
      (isNext : documents[k]? = some document)
      (after : o.state.reader = s.reader.withPhase (.opened client ⟨k + 1, some document⟩))
  | rests (noDocument : ∀ document, o.result ≠ .ok (.document document))
      (noFlag : o.result ≠ .ok (.flag true)) (after : o.state.reader = s.reader)

theorem hasNext_drawsOnce (h : s.reader.AtDocument documents k) (hw : w.documents = documents) :
    DrawsOnce documents k s (perform .hasNext s w) := by
  rw [perform_hasNext]
  rcases Reader.hasNext_atDocument h hw with ⟨hmore, client, document, hdocument, hstate⟩ |
    ⟨hmore, hstate⟩
  · apply DrawsOnce.announces client document _ hdocument hstate
    rw [hmore]
    rfl
  · cases hresult : (Reader.hasNext s.reader w).result with
    | error failure => exact .rests (by simp [Except.map]) (by simp [Except.map]) hstate
    | ok more =>
      have hfalse : more ≠ true := by
        intro htrue
        rw [hresult, htrue] at hmore
        contradiction
      exact .rests (by simp [Except.map]) (by simp [Except.map, hfalse]) hstate

theorem next_drawsOnce (h : s.reader.AtDocument documents k) (hw : w.documents = documents) :
    DrawsOnce documents k s (perform .next s w) := by
  rw [perform_next]
  rcases Reader.next_atDocument h hw with ⟨document, hresult, hdocument, hat⟩ |
    ⟨⟨failure, hresult⟩, hstate⟩
  · apply DrawsOnce.handsOut document _ hdocument hat
    rw [hresult]
    rfl
  · rw [hresult]
    exact .rests (by simp [Except.map]) (by simp [Except.map]) hstate

theorem iterNext_drawsOnce (name : String) (h : s.reader.AtDocument documents k)
    (hw : w.documents = documents) : DrawsOnce documents k s (perform (.iterNext name) s w) := by
  cases hrunning : s.isRunning name with
  | true =>
    rw [perform_iterNext_running s w hrunning]
    rcases Reader.draw_atDocument h hw with ⟨document, hdraw, hdocument, hat⟩ | ⟨hnone, hstate⟩
    · simp only [hdraw]
      exact .handsOut document rfl hdocument hat
    · cases hdraw : (Reader.draw s.reader w).result with
      | error failure =>
        simp only [hdraw]
        exact .rests (by simp) (by simp) hstate
      | ok found =>
        cases found with
        | none =>
          simp only [hdraw]
          exact .rests (by simp) (by simp) hstate
        | some document => exact absurd hdraw (hnone document)
  | false =>
    rw [perform_iterNext_ended s w hrunning]
    exact .rests (by simp) (by simp) rfl

theorem perform_drawsOnce {command : Command} (hreads : command.Reads) (hlist : command ≠ .list)
    (h : s.reader.AtDocument documents k) (hw : w.documents = documents) :
    DrawsOnce documents k s (perform command s w) := by
  cases command with
  | hasNext => exact hasNext_drawsOnce h hw
  | next => exact next_drawsOnce h hw
  | list => contradiction
  | iter name =>
    rw [perform_iter]
    exact .rests (by simp) (by simp) rfl
  | iterNext name => exact iterNext_drawsOnce name h hw
  | init | enter | exit | close => contradiction

/-- A reading command hands out documents from the one the reader is at, and
moves the reader on by their number. -/
theorem perform_delivers {command : Command} (hreads : command.Reads)
    (h : s.reader.AtDocument documents k) (hw : w.documents = documents) :
    Reader.Delivers documents k (handedOut command s w) (perform command s w).state.reader := by
  by_cases hlist : command = .list
  · subst hlist
    rw [handedOut_list, perform_list]
    exact Reader.drawUpTo_delivers _ h hw
  · cases perform_drawsOnce hreads hlist h hw with
    | handsOut document hresult hdocument hat =>
      rw [handedOut_of_document hlist hresult]
      exact .single hdocument hat
    | announces client document hresult hdocument hstate =>
      rw [handedOut_of_ne hlist (by simp [hresult]), hstate]
      exact .nothing (Reader.atDocument_lookahead hdocument _)
    | rests hresult hflag hstate =>
      rw [handedOut_of_ne hlist hresult, hstate]
      exact .nothing h

theorem course_delivers {commands : List Command} (hreads : ∀ c ∈ commands, c.Reads)
    (h : s.reader.AtDocument documents k) (hw : w.documents = documents) :
    Reader.Delivers documents k (handedOutBy commands s w)
      (Act.course perform commands s w).state.reader := by
  induction commands generalizing k s w with
  | nil => exact .nothing h
  | cons command rest ih =>
    rw [List.forall_mem_cons] at hreads
    have hfirst := perform_delivers hreads.1 h hw
    have hserver : (perform command s w).server.documents = documents :=
      (movesOn_perform command s w).documents.trans hw
    exact hfirst.append (ih hreads.2 hfirst.atDocument hserver)

/-! ## From the opening on -/

/-- What reading does in a session whose next document is the one with number
`k`. -/
structure ReadsAt (documents : List Value) (k : ℕ) (s : Session) (w : Server) : Prop where
  cursor : ∃ client cursor, s.reader.phase = .opened client cursor ∧
    cursor.position = k + cursor.lookahead.toList.length
  next : ∀ document, documents[k]? = some document → w.outcome .fetch = none →
    (perform .next s w).result = .ok (.document document)
  announced : (perform .hasNext s w).result = .ok (.flag true) →
    ∃ document, documents[k]? = some document ∧
      (perform .next (perform .hasNext s w).state (perform .hasNext s w).server).result =
        .ok (.document document) ∧
      (perform .next (perform .hasNext s w).state (perform .hasNext s w).server).events = []
  unchanged : ∀ command : Command, command.Reads → command ≠ .list →
    (∀ document, (perform command s w).result ≠ .ok (.document document)) →
    (perform command s w).result ≠ .ok (.flag true) →
    (perform command s w).state.reader = s.reader
  list : ∃ client, (perform .list s w).state.reader.phase =
    .opened client ⟨k + (handedOut .list s w).length, none⟩
  listed : ∀ found, (perform .list s w).result = .ok (.documents found) →
    handedOut .list s w = found

theorem next_of_fetch (h : s.reader.AtDocument documents k) (hw : w.documents = documents)
    {document : Value} (hdocument : documents[k]? = some document)
    (hfetch : w.outcome .fetch = none) :
    (perform .next s w).result = .ok (.document document) := by
  rw [perform_next]
  rcases h.phase_cases with ⟨client, hphase⟩ | ⟨client, other, hphase, hother⟩
  · rw [Reader.next_fetch hphase, hfetch, hw, hdocument]
    rfl
  · have hsame : other = document := Option.some.inj (hother.symm.trans hdocument)
    rw [Reader.next_lookahead hphase, hsame]
    rfl

theorem next_of_announced (h : s.reader.AtDocument documents k) (hw : w.documents = documents)
    (hannounced : (perform .hasNext s w).result = .ok (.flag true)) :
    ∃ document, documents[k]? = some document ∧
      (perform .next (perform .hasNext s w).state (perform .hasNext s w).server).result =
        .ok (.document document) ∧
      (perform .next (perform .hasNext s w).state (perform .hasNext s w).server).events = [] := by
  cases hasNext_drawsOnce h hw with
  | handsOut document hresult =>
    rw [hresult] at hannounced
    cases hannounced
  | announces client document hresult hdocument hstate =>
    have hphase : (perform .hasNext s w).state.reader.phase =
        .opened client ⟨k + 1, some document⟩ := by
      rw [hstate]
      rfl
    rw [perform_next, Reader.next_lookahead hphase]
    exact ⟨document, hdocument, rfl, rfl⟩
  | rests hresult hflag => exact absurd hannounced hflag

theorem readsAt (h : s.reader.AtDocument documents k) (hw : w.documents = documents) :
    ReadsAt documents k s w := by
  have hlimit : documents.length - k < w.documents.length + 1 := by
    rw [hw]
    omega
  constructor
  · rcases h.cursor with ⟨client, cursor, hphase, hposition, -⟩
    exact ⟨client, cursor, hphase, hposition⟩
  · intro document hdocument hfetch
    exact next_of_fetch h hw hdocument hfetch
  · exact next_of_announced h hw
  · intro command hreads hlist hnone hflag
    cases perform_drawsOnce hreads hlist h hw with
    | handsOut document hresult => exact absurd hresult (hnone document)
    | announces client document hresult => exact absurd hresult hflag
    | rests _ _ hstate => exact hstate
  · rw [perform_list, handedOut_list]
    exact Reader.phase_drawUpTo h hw hlimit
  · intro found hfound
    exact handedOut_of_documents hfound

theorem atDocument_of_init {data : Value} {answer : Answer}
    (hinit : (perform (.init data) s w).result = .ok answer) :
    (perform (.init data) s w).state.reader.AtDocument documents 0 := by
  rw [perform_init] at hinit ⊢
  cases hpartition : Partition.ofArguments data with
  | error e =>
    rw [hpartition] at hinit
    contradiction
  | ok p =>
    rw [hpartition] at hinit
    simp only at hinit ⊢
    have hok : (Reader.init p s.reader w).result = .ok () := by
      cases hresult : (Reader.init p s.reader w).result with
      | ok => rfl
      | error failure =>
        rw [hresult] at hinit
        contradiction
    exact Reader.atDocument_of_init hok documents

/-- From the opening of a reader on, however its ways of reading are mixed, the
documents that were handed out are the first ones in order, and the next one
is there to be read. -/
theorem delivers_in_order {data : Value} {answer : Answer} {commands : List Command}
    (hinit : (perform (.init data) s w).result = .ok answer)
    (hreads : ∀ command ∈ commands, command.Reads) :
    let opened := perform (.init data) s w
    let reached := Act.course perform commands opened.state opened.server
    let handed := handedOutBy commands opened.state opened.server
    handed = w.documents.take handed.length ∧
      ReadsAt w.documents handed.length reached.state reached.server := by
  intro opened reached handed
  have hat : opened.state.reader.AtDocument w.documents 0 := atDocument_of_init hinit
  have hopened : opened.server.documents = w.documents :=
    (movesOn_perform (.init data) s w).documents
  have hdelivers := course_delivers hreads hat hopened
  have hreached : reached.server.documents = w.documents :=
    (onward_course commands _ _).documents.trans hopened
  constructor
  · have hhanded := hdelivers.handed_eq
    rwa [List.drop_zero] at hhanded
  · have hend := hdelivers.atDocument
    rw [Nat.zero_add] at hend
    exact readsAt hend hreached

/-- A fetch that fails between two draws loses nothing: three documents are
handed out through four ways of reading. -/
theorem delivers_in_order_after_interrupt :
    let reader : Reader := .fresh ⟨"db", "docs", [], "_id", none, 5000, 10000, []⟩ [] []
    let data : Value := .dict [(.text "hosts", .list [.text "h"])]
    let report : Report := ⟨.interrupt "KeyboardInterrupt", "stop"⟩
    let w : Server := ⟨[.int 1, .int 2, .int 3],
      fun point => if point = .fetch then [none, some report] else [], 0⟩
    let commands : List Command := [.hasNext, .next, .iter "i", .iterNext "i", .next, .list]
    let opened := perform (.init data) (.start reader) w
    let reached := Act.course perform commands opened.state opened.server
    let handed := handedOutBy commands opened.state opened.server
    opened.result = .ok .done ∧ (∀ command ∈ commands, command.Reads) ∧
      handed = [.int 1, .int 2, .int 3] ∧
      handed = w.documents.take handed.length ∧
      ReadsAt w.documents handed.length reached.state reached.server := by
  intro reader data report w commands opened reached handed
  have hopened : opened.result = .ok .done := rfl
  have hreads : ∀ command ∈ commands, command.Reads := by
    simp [commands, Command.Reads]
  have hhanded : handed = [.int 1, .int 2, .int 3] := by
    decide +kernel
  exact ⟨hopened, hreads, hhanded, delivers_in_order hopened hreads⟩

end Session

end DocScan
