import DocScan.Proofs.Steps
import DocScan.Session

/-!
# What each command of a session does

One equation for each command says what it comes to, in terms of the step of
the reader behind it.  Only the iterators of a session know more than its
reader.
-/

namespace DocScan

/-! ## Readers that have nothing -/

namespace SessionOf

variable {ρ : Type} [PartitionReader ρ] {s : SessionOf ρ} {w : Server}

theorem draw_none {r : ρ} (h : PartitionReader.hasNext r w = ⟨.ok false, r, w, []⟩) :
    draw r w = ⟨.ok none, r, w, []⟩ := by
  unfold draw Act.drawing
  rw [Act.bind_apply, h]
  rfl

theorem perform_hasNext_none
    (h : PartitionReader.hasNext s.reader w = ⟨.ok false, s.reader, w, []⟩) :
    perform .hasNext s w = ⟨.ok (.flag false), s, w, []⟩ := by
  simp only [perform, onReader, Act.focus, Act.bind_apply, h]
  rfl

theorem perform_list_none
    (h : PartitionReader.hasNext s.reader w = ⟨.ok false, s.reader, w, []⟩) :
    perform .list s w = ⟨.ok (.documents []), s, w, []⟩ := by
  have hall : Act.drawAll draw s.reader w = ⟨.ok [], s.reader, w, []⟩ := by
    unfold Act.drawAll
    rw [Act.server_bind, Act.drawUpTo, Act.bind_apply, draw_none h]
    rfl
  simp only [perform, onReader, Act.focus, Act.bind_apply, hall]
  rfl

/-- An iterator that runs ends where the reader has nothing. -/
theorem perform_iterNext_none
    (h : PartitionReader.hasNext s.reader w = ⟨.ok false, s.reader, w, []⟩) (name : String) :
    perform (.iterNext name) s w =
      ⟨.error .exhausted, if s.isRunning name then s.withIterator name false else s, w, []⟩ := by
  simp only [perform, iterNext, Act.bind_apply, Act.get]
  cases s.isRunning name with
  | false => rfl
  | true =>
    simp only [if_true, Act.attempt_bind, onReader, Act.focus, draw_none h]
    rfl

end SessionOf

/-! ## Readers with a phase -/

namespace Session

variable {α : Type} (s : Session) (w : Server)

theorem draw_reader : SessionOf.draw = Reader.draw := rfl

def withReader (r : Reader) : Session := { s with reader := r }

@[simp] theorem withReader_reader (r : Reader) : (s.withReader r).reader = r := rfl

@[simp] theorem withIterator_reader (name : String) (running : Bool) :
    (s.withIterator name running).reader = s.reader := rfl

theorem onReader_map (x : Act Reader α) (answer : α → Answer) :
    (do return answer (← SessionOf.onReader x) : Act Session Answer) s w =
      ⟨(x s.reader w).result.map answer, s.withReader (x s.reader w).state,
        (x s.reader w).server, (x s.reader w).events⟩ :=
  Act.bind_pure_apply s w (SessionOf.onReader x) answer

/-- Opening is refused for what is no partition. -/
theorem perform_init (data : Value) :
    perform (.init data) s w =
      match Partition.ofArguments data with
      | .error e => ⟨.error (.partition e), s, w, []⟩
      | .ok p =>
        ⟨(Reader.init p s.reader w).result.map fun _ => .done,
          s.withReader (Reader.init p s.reader w).state, (Reader.init p s.reader w).server,
          (Reader.init p s.reader w).events⟩ := by
  simp only [perform, SessionOf.perform, SessionOf.init]
  cases Partition.ofArguments data with
  | error e => rfl
  | ok p => exact onReader_map s w (Reader.init p) (fun _ => .done)

theorem perform_init_of_partition {data : Value} {p : Partition}
    (hp : Partition.ofArguments data = .ok p) :
    let opened := Reader.init p s.reader w
    perform (.init data) s w =
      ⟨opened.result.map fun _ => .done, s.withReader opened.state, opened.server,
        opened.events⟩ := by
  rw [perform_init, hp]

theorem perform_hasNext :
    perform .hasNext s w =
      ⟨(Reader.hasNext s.reader w).result.map .flag,
        s.withReader (Reader.hasNext s.reader w).state,
        (Reader.hasNext s.reader w).server, (Reader.hasNext s.reader w).events⟩ :=
  onReader_map s w _ _

theorem perform_next :
    perform .next s w =
      ⟨(Reader.next s.reader w).result.map .document,
        s.withReader (Reader.next s.reader w).state,
        (Reader.next s.reader w).server, (Reader.next s.reader w).events⟩ :=
  onReader_map s w _ _

theorem perform_list :
    perform .list s w =
      ⟨(Reader.drawAll s.reader w).result.map .documents,
        s.withReader (Reader.drawAll s.reader w).state,
        (Reader.drawAll s.reader w).server, (Reader.drawAll s.reader w).events⟩ :=
  onReader_map s w _ _

theorem perform_close :
    perform .close s w =
      ⟨(Reader.close s.reader w).result.map fun _ => .done,
        s.withReader (Reader.close s.reader w).state,
        (Reader.close s.reader w).server, (Reader.close s.reader w).events⟩ :=
  onReader_map s w Reader.close (fun _ => .done)

theorem perform_exit : perform .exit s w = perform .close s w := rfl

theorem perform_iter (name : String) :
    perform (.iter name) s w = ⟨.ok .done, s.withIterator name true, w, []⟩ := rfl

theorem perform_enter : perform .enter s w = ⟨.ok (.flag true), s, w, []⟩ := rfl

theorem perform_iterNext_ended {name : String} (h : s.isRunning name = false) :
    perform (.iterNext name) s w = ⟨.error .exhausted, s, w, []⟩ := by
  simp only [perform, SessionOf.perform, SessionOf.iterNext, Act.bind_apply, Act.get, h]
  rfl

/-- An iterator that runs draws from the reader, and ends unless a document is
drawn. -/
theorem perform_iterNext_running {name : String} (h : s.isRunning name = true) :
    perform (.iterNext name) s w =
      let drawn := Reader.draw s.reader w
      ⟨match drawn.result with
        | .ok (some document) => .ok (.document document)
        | .ok none => .error .exhausted
        | .error failure => .error failure,
        match drawn.result with
        | .ok (some _) => s.withReader drawn.state
        | _ => (s.withReader drawn.state).withIterator name false,
        drawn.server, drawn.events⟩ := by
  simp only [perform, SessionOf.perform, SessionOf.iterNext, Act.bind_apply, Act.get, h, if_true,
    Act.attempt, SessionOf.onReader, Act.focus, draw_reader]
  cases (Reader.draw s.reader w).result with
  | error failure => simp [Act.bind_apply, Act.modify, Act.fail, withReader]
  | ok found =>
    cases found with
    | none => simp [Act.bind_apply, Act.modify, Act.fail, withReader]
    | some document => simp [Act.pure_apply, withReader]

theorem perform_iterNext_some {name : String} {document : Value} (h : s.isRunning name = true)
    (hdraw : (Reader.draw s.reader w).result = .ok (some document)) :
    perform (.iterNext name) s w =
      ⟨.ok (.document document), s.withReader (Reader.draw s.reader w).state,
        (Reader.draw s.reader w).server, (Reader.draw s.reader w).events⟩ := by
  rw [perform_iterNext_running s w h]
  simp only [hdraw]

theorem perform_iterNext_stop {name : String} (h : s.isRunning name = true)
    (hdraw : ∀ document, (Reader.draw s.reader w).result ≠ .ok (some document)) :
    ∃ failure, perform (.iterNext name) s w =
      ⟨.error failure, (s.withReader (Reader.draw s.reader w).state).withIterator name false,
        (Reader.draw s.reader w).server, (Reader.draw s.reader w).events⟩ := by
  rw [perform_iterNext_running s w h]
  cases hresult : (Reader.draw s.reader w).result with
  | error failure =>
    refine ⟨failure, ?_⟩
    simp only [hresult]
  | ok found =>
    cases found with
    | none =>
      refine ⟨.exhausted, ?_⟩
      simp only [hresult]
    | some document => exact absurd hresult (hdraw document)

end Session

end DocScan
