import DocScan.Proofs.AtomicConstraints
import DocScan.Proofs.ClientNumbers

/-!
# Opening again after failures

A failed opening leaves nothing in the reader.  Its filters could be other ones
afterwards, but only through a leaf on a field named `$and`, whose list the
query would share.  Without such a leaf a reader that failed to open any number
of times is the reader that was made, and all that is left of the attempts is on
the side of the server: the outcomes that were taken from the script, and the
clients that were made, which give their numbers to the next ones.
-/

namespace DocScan

/-- The server with the same documents and outcomes to come, as if it had made no
client yet. -/
def Server.unused (w : Server) : Server := ⟨w.documents, w.script, 0⟩

theorem Server.shift_unused (w : Server) : w.unused.shift w.clients = w := by
  simp [Server.shift, Server.unused]

/-! ## What a compilation leaves -/

variable {idField : String}

theorem Filter.withConjunction_of_attributes {f : Filter} (h : "$and" ∉ f.attributes)
    (clauses : Value) : f.withConjunction clauses = f := by
  cases f with
  | test t field value =>
    have hfield : ¬ field = "$and" := by
      rintro rfl
      exact h List.mem_cons_self
    cases t with
    | equal => cases value <;> simp [withConjunction, hfield]
    | _ => rfl
  | extension operator field value =>
    have hfield : ¬ field = "$and" := by
      rintro rfl
      exact h List.mem_cons_self
    cases value <;> simp [withConjunction, hfield]
  | _ => rfl

theorem Query.retainFrom_of_attributes {filters : List Filter}
    (h : ∀ f ∈ filters, "$and" ∉ f.attributes) (clauses : Value) (before : Query) :
    retainFrom idField clauses before filters = filters := by
  induction filters generalizing before with
  | nil => rfl
  | cons f rest ih =>
    rw [List.forall_mem_cons] at h
    unfold retainFrom
    split
    · rfl
    · split
      · split
        · rw [Filter.withConjunction_of_attributes h.1]
        · rw [ih h.2]
      · rfl

theorem Query.retained_of_attributes {filters : List Filter}
    (h : ∀ f ∈ filters, "$and" ∉ f.attributes) (q : Query) :
    retained idField q filters = filters := by
  unfold retained
  split
  · exact retainFrom_of_attributes h _ _
  · rfl

namespace Reader

variable {r : Reader} {p : Partition} {w : Server}

theorem state_opening_of_attributes (h : ∀ f ∈ r.filters, "$and" ∉ f.attributes) :
    (r.opening p w).state = r := by
  apply Stage.run_induction (motive := fun t => t = r) rfl
  rintro stage hstage t rfl
  rcases List.mem_append.mp hstage with hconnect | hcursor
  · rcases List.mem_append.mp hconnect with hfactory | hmade
    · rcases mem_factoryStages hfactory with ⟨_, rfl⟩ | ⟨_, rfl, -⟩ | ⟨_, rfl⟩ <;> rfl
    · simp only [List.mem_cons, List.not_mem_nil, or_false] at hmade
      rcases hmade with rfl | rfl <;> rfl
  · rcases mem_cursorStages hcursor with ⟨_, _, _, rfl, -⟩ | ⟨_, rfl⟩ | ⟨query, rfl⟩
    · rfl
    · rfl
    · simp only [Stage.change, retaining, Query.retained_of_attributes h]

/-- An opening that fails leaves the reader as it was. -/
theorem state_init_of_failure (h : ∀ f ∈ r.filters, "$and" ∉ f.attributes)
    (hfailed : (init p r w).result ≠ .ok ()) : (init p r w).state = r := by
  by_cases hidle : r.phase = .idle
  swap
  · rw [init_of_not_idle hidle]
  cases hfailure : (r.opening p w).failure with
  | none =>
    rw [init_of_complete hidle hfailure] at hfailed
    exact absurd rfl hfailed
  | some failure =>
    rw [(init_fails hidle hfailure).state, state_opening_of_attributes h]

end Reader

namespace Session

variable {s : Session} {w : Server}

/-! ## Failed attempts -/

theorem state_init_of_failed (h : ∀ f ∈ s.reader.filters, "$and" ∉ f.attributes) {data : Value}
    (hfailed : (perform (.init data) s w).result.isOk = false) :
    (perform (.init data) s w).state = s := by
  cases hp : Partition.ofArguments data with
  | error e => rw [perform_init, hp]
  | ok p =>
    have hperform := perform_init_of_partition s w hp
    rw [hperform] at hfailed ⊢
    have hnot : (Reader.init p s.reader w).result ≠ .ok () := by
      intro hok
      simp only [hok] at hfailed
      contradiction
    simp only [Reader.state_init_of_failure h hnot]
    rfl

theorem state_attempts (h : ∀ f ∈ s.reader.filters, "$and" ∉ f.attributes)
    {attempts : List Value}
    (hfailed : ∀ result ∈ (Act.course perform (attempts.map .init) s w).results,
      result.isOk = false) : (Act.course perform (attempts.map .init) s w).state = s := by
  induction attempts generalizing w with
  | nil => rfl
  | cons data rest ih =>
    rw [List.map_cons, Act.course] at hfailed ⊢
    rw [List.forall_mem_cons] at hfailed
    have hstate := state_init_of_failed h hfailed.1
    simp only [hstate] at hfailed ⊢
    exact ih hfailed.2

/-- After any number of failed attempts to open it, on whatever partitions and for
whatever reasons, a session goes on like one with a reader that was just made
and the same outcomes to come: every command comes to the same result, and what
it leaves and what happens are the same but for the numbers of clients. -/
theorem outcomes_after_failed_attempts (config : Config) (columns : List String)
    {filters : List Filter} (h : ∀ f ∈ filters, "$and" ∉ f.attributes) (attempts : List Value)
    (w : Server) :
    let fresh := start (.fresh config columns filters)
    let left := Act.course perform (attempts.map .init) fresh w
    (∀ result ∈ left.results, result.isOk = false) →
      ∀ later, Act.outcomes perform later left.state left.server =
        (Act.outcomes perform later fresh left.server.unused).map
          (Outcome.shift left.server.clients (Session.shift left.server.clients)) := by
  intro fresh left hfailed later
  have hstate : left.state = fresh := state_attempts h hfailed
  have hfresh : fresh.shift left.server.clients = fresh := by
    unfold Session.shift
    rw [Reader.shift_idle rfl]
    rfl
  -- The server that is left is the unused one, with its own number of clients behind it.
  have hshift := outcomes_shift left.server.clients fresh left.server.unused later
  rw [hfresh, Server.shift_unused] at hshift
  rw [hstate]
  exact hshift

/-- The first attempt has no partition; the others fail by an interrupt, with a
failing close, and while the filters were already translated.  The fourth
client is the one that is opened, read from, and closed. -/
theorem outcomes_after_failed_attempts_opened :
    let config : Config := ⟨"db", "docs", [], "_id", some 10, 5000, 10000, []⟩
    let filters : List Filter :=
      [.and (.test .equal "a" (.list [.int 1])) (.isNull "b"), .test .equal "$or" (.list [])]
    let data : Value := .dict [(.text "hosts", .list [.text "h"])]
    let interrupt : Report := ⟨.interrupt "KeyboardInterrupt", "stop"⟩
    let report : Report := ⟨.ordinary "RuntimeError", "boom"⟩
    let w : Server := ⟨[.int 7], fun point =>
      if point = .command then [some interrupt]
      else if point = .database then [some report]
      else if point = .find then [some report]
      else if point = .clientClose then [some ⟨.connection, "lost"⟩]
      else [], 0⟩
    let fresh := start (.fresh config ["a"] filters)
    let left := Act.course perform ([.null, data, data, data].map .init) fresh w
    let later : List Command := [.init data, .iter "i", .iterNext "i", .iterNext "i", .close]
    (∀ f ∈ filters, "$and" ∉ f.attributes) ∧ (∀ result ∈ left.results, result.isOk = false) ∧
      left.server.clients = 3 ∧
      (Act.outcomes perform later left.state left.server).map (fun o => o.state.reader.client?) =
        [some 4, some 4, some 4, some 4, none] ∧
      Act.outcomes perform later left.state left.server =
        (Act.outcomes perform later fresh left.server.unused).map
          (Outcome.shift left.server.clients (Session.shift left.server.clients)) := by
  refine ⟨?names, ?failed, ?clients, ?held, outcomes_after_failed_attempts _ _ ?names _ _ ?failed _⟩
  case names => decide +kernel
  case failed => decide +kernel
  case clients => decide +kernel
  case held => decide +kernel

end Session

end DocScan
