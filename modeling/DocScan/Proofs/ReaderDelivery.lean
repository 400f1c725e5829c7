import DocScan.Proofs.ReaderSteps
import DocScan.Proofs.ServerProgress

/-!
# Documents are handed out in order and exactly once

An opened reader hands out the documents of its cursor through four ways of
reading, and may hold one document that was looked ahead.  The invariant says
which document comes next: the cursor has given those before it, and the one
that is looked ahead, if any, besides.  A draw that hands out a document moves
the invariant on by one, and everything else, failures included, leaves it
where it is.
-/

namespace DocScan

namespace Reader

/-- The next document to be handed out is the one with number `k`.  The
cursor has given the documents before it and what is looked ahead, which is
that document. -/
structure AtDocument (documents : List Value) (k : ℕ) (r : Reader) : Prop where
  bound : k ≤ documents.length
  cursor : ∃ client cursor, r.phase = .opened client cursor ∧
    cursor.position = k + cursor.lookahead.toList.length ∧
    ∀ document, cursor.lookahead = some document → documents[k]? = some document

variable {documents : List Value} {k : ℕ} {r : Reader} {w : Server}

theorem atDocument_opened {client : ℕ} (hk : k ≤ documents.length) (r : Reader) :
    AtDocument documents k (r.withPhase (.opened client ⟨k, none⟩)) := by
  refine ⟨hk, client, ⟨k, none⟩, rfl, ?_, ?_⟩
  · simp
  · intro document hdocument
    contradiction

theorem atDocument_lookahead {client : ℕ} {document : Value}
    (hdocument : documents[k]? = some document) (r : Reader) :
    AtDocument documents k (r.withPhase (.opened client ⟨k + 1, some document⟩)) := by
  have hlt : k < documents.length := (List.getElem?_eq_some_iff.mp hdocument).1
  refine ⟨hlt.le, client, ⟨k + 1, some document⟩, rfl, ?_, ?_⟩
  · simp
  · intro other hother
    rwa [← Option.some.inj hother]

theorem AtDocument.phase_cases (h : AtDocument documents k r) :
    (∃ client, r.phase = .opened client ⟨k, none⟩) ∨
      ∃ client document, r.phase = .opened client ⟨k + 1, some document⟩ ∧
        documents[k]? = some document := by
  rcases h.cursor with ⟨client, ⟨position, lookahead⟩, hphase, hposition, hlookahead⟩
  cases lookahead with
  | none =>
    left
    simp only [Option.toList_none, List.length_nil, Nat.add_zero] at hposition
    subst hposition
    exact ⟨client, hphase⟩
  | some document =>
    right
    simp only [Option.toList_some, List.length_singleton] at hposition
    subst hposition
    exact ⟨client, document, hphase, hlookahead document rfl⟩

/-! ## One document at a time -/

/-- A reader that says that there is another document has it looked ahead.
Otherwise it is left as it was. -/
theorem hasNext_atDocument (h : AtDocument documents k r) (hw : w.documents = documents) :
    ((hasNext r w).result = .ok true ∧
        ∃ client document, documents[k]? = some document ∧
          (hasNext r w).state = r.withPhase (.opened client ⟨k + 1, some document⟩)) ∨
      (hasNext r w).result ≠ .ok true ∧ (hasNext r w).state = r := by
  rcases h.phase_cases with ⟨client, hphase⟩ | ⟨client, document, hphase, hdocument⟩
  · rw [hasNext_fetch hphase, hw]
    cases w.outcome .fetch with
    | some report =>
      right
      refine ⟨?_, rfl⟩
      by_cases hend : (Failure.reported report).isExhaustion <;> simp [hend]
    | none =>
      cases hdocument : documents[k]? with
      | none =>
        right
        exact ⟨by simp, rfl⟩
      | some document =>
        left
        exact ⟨rfl, client, document, rfl, rfl⟩
  · left
    rw [hasNext_lookahead hphase]
    refine ⟨rfl, client, document, hdocument, ?_⟩
    rw [← hphase]
    rfl

theorem next_atDocument (h : AtDocument documents k r) (hw : w.documents = documents) :
    (∃ document, (next r w).result = .ok document ∧ documents[k]? = some document ∧
        AtDocument documents (k + 1) (next r w).state) ∨
      (∃ failure, (next r w).result = .error failure) ∧ (next r w).state = r := by
  rcases h.phase_cases with ⟨client, hphase⟩ | ⟨client, document, hphase, hdocument⟩
  · rw [next_fetch hphase, hw]
    cases w.outcome .fetch with
    | some report =>
      right
      exact ⟨⟨_, rfl⟩, rfl⟩
    | none =>
      cases hdocument : documents[k]? with
      | none =>
        right
        exact ⟨⟨_, rfl⟩, rfl⟩
      | some document =>
        left
        have hlt : k < documents.length := (List.getElem?_eq_some_iff.mp hdocument).1
        exact ⟨document, rfl, rfl, atDocument_opened hlt r⟩
  · left
    rw [next_lookahead hphase]
    have hlt : k < documents.length := (List.getElem?_eq_some_iff.mp hdocument).1
    exact ⟨document, rfl, hdocument, atDocument_opened hlt r⟩

theorem draw_atDocument (h : AtDocument documents k r) (hw : w.documents = documents) :
    (∃ document, (draw r w).result = .ok (some document) ∧ documents[k]? = some document ∧
        AtDocument documents (k + 1) (draw r w).state) ∨
      (∀ document, (draw r w).result ≠ .ok (some document)) ∧ (draw r w).state = r := by
  unfold draw Act.drawing
  rw [Act.bind_apply]
  rcases hasNext_atDocument h hw with ⟨hmore, client, document, hdocument, hstate⟩ | ⟨hmore, hstate⟩
  · left
    have hahead : AtDocument documents k (hasNext r w).state := by
      rw [hstate]
      exact atDocument_lookahead hdocument r
    have hphase : (hasNext r w).state.phase = .opened client ⟨k + 1, some document⟩ := by
      rw [hstate]
      rfl
    rw [hmore]
    simp only [if_true, Act.bind_apply, next_lookahead hphase]
    have hlt : k < documents.length := (List.getElem?_eq_some_iff.mp hdocument).1
    exact ⟨document, rfl, hdocument, atDocument_opened hlt _⟩
  · right
    cases hresult : (hasNext r w).result with
    | error failure =>
      refine ⟨?_, hstate⟩
      intro document hdocument
      contradiction
    | ok more =>
      cases more with
      | true => exact absurd hresult hmore
      | false =>
        refine ⟨?_, hstate⟩
        intro document hdocument
        simp [Act.pure_apply] at hdocument

/-! ## Many documents at a time -/

/-- Documents that were handed out are the ones from number `k` on, and the
reader has moved on by their number. -/
structure Delivers (documents : List Value) (k : ℕ) (handed : List Value) (after : Reader) :
    Prop where
  handed_eq : handed = (documents.drop k).take handed.length
  atDocument : AtDocument documents (k + handed.length) after

theorem Delivers.nothing (h : AtDocument documents k r) : Delivers documents k [] r :=
  ⟨rfl, h⟩

theorem Delivers.single {document : Value} (hdocument : documents[k]? = some document)
    (h : AtDocument documents (k + 1) r) : Delivers documents k [document] r := by
  have hlt : k < documents.length := (List.getElem?_eq_some_iff.mp hdocument).1
  refine ⟨?_, h⟩
  rw [List.drop_eq_getElem_cons hlt, (List.getElem?_eq_some_iff.mp hdocument).2]
  rfl

theorem Delivers.append {first second : List Value} {after : Reader}
    (hfirst : Delivers documents k first r)
    (hsecond : Delivers documents (k + first.length) second after) :
    Delivers documents k (first ++ second) after := by
  constructor
  · rw [List.length_append, List.take_add, List.drop_drop, ← hfirst.handed_eq,
      ← hsecond.handed_eq]
  · rw [List.length_append, ← Nat.add_assoc]
    exact hsecond.atDocument

/-- The draws inside a list hand out the documents from the one the reader is
at, whether or not the list fails. -/
theorem drawUpTo_delivers (limit : ℕ) (h : AtDocument documents k r)
    (hw : w.documents = documents) :
    Delivers documents k (Act.drawn draw limit r w) (Act.drawUpTo draw limit r w).state := by
  induction limit generalizing k r w with
  | zero => exact .nothing h
  | succ limit ih =>
    rcases draw_atDocument h hw with ⟨document, hresult, hdocument, hnext⟩ | ⟨hnone, hstate⟩
    · have hserver : (draw r w).server.documents = documents :=
        (movesOn_draw r w).documents.trans hw
      rw [Act.drawn_succ_some hresult, Act.drawUpTo_succ_some hresult]
      exact (Delivers.single hdocument hnext).append (ih hnext hserver)
    · rw [Act.drawn_succ_stop hnone, Act.drawUpTo_succ_stop hnone, hstate]
      exact .nothing h

theorem AtDocument.not_lookahead (h : AtDocument documents k r)
    (hnone : ∀ document, (draw r w).result ≠ .ok (some document)) :
    ∃ client, r.phase = .opened client ⟨k, none⟩ := by
  rcases h.phase_cases with hphase | ⟨client, document, hphase, -⟩
  · exact hphase
  · have hdraw : (draw r w).result = .ok (some document) := by
      unfold draw Act.drawing
      rw [Act.bind_apply, hasNext_lookahead hphase]
      simp only [if_true, Act.bind_apply, next_lookahead hphase]
      rfl
    exact absurd hdraw (hnone document)

/-- A list goes on until a draw hands out nothing: its limit is never what
ends it. -/
theorem phase_drawUpTo {limit : ℕ} (h : AtDocument documents k r)
    (hw : w.documents = documents) (hlimit : documents.length - k < limit) :
    ∃ client, (Act.drawUpTo draw limit r w).state.phase =
      .opened client ⟨k + (Act.drawn draw limit r w).length, none⟩ := by
  induction limit generalizing k r w with
  | zero => contradiction
  | succ limit ih =>
    rcases draw_atDocument h hw with ⟨document, hresult, hdocument, hnext⟩ | ⟨hnone, hstate⟩
    · have hlt : k < documents.length := (List.getElem?_eq_some_iff.mp hdocument).1
      have hserver : (draw r w).server.documents = documents :=
        (movesOn_draw r w).documents.trans hw
      obtain ⟨client, hphase⟩ := ih hnext hserver (by omega)
      refine ⟨client, ?_⟩
      rw [Act.drawUpTo_succ_some hresult, Act.drawn_succ_some hresult]
      simp only [List.length_cons]
      rw [hphase, Nat.add_right_comm]
      rfl
    · obtain ⟨client, hphase⟩ := h.not_lookahead hnone
      refine ⟨client, ?_⟩
      rw [Act.drawUpTo_succ_stop hnone, hstate, Act.drawn_succ_stop hnone]
      exact hphase

end Reader

end DocScan
