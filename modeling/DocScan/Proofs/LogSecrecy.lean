import DocScan.Proofs.ClosedReader
import DocScan.Proofs.OpeningTrace
import DocScan.Proofs.QueryOutline

/-!
# The log keeps secrets

What opening a reader writes to the log is a function of the configuration, the
partition and the keys of the query, and of the credentials it has their number
alone.  Later commands write nothing but that the reader is closed.  Two sessions
whose filters differ in values only, and whose credentials differ in texts only,
therefore write the same records, whichever servers they meet.
-/

namespace DocScan

def Event.record? : Event → Option LogRecord
  | .log record => some record
  | _ => none

/-- What an outcome writes to the log. -/
def Outcome.records {σ α : Type} (o : Outcome σ α) : List LogRecord :=
  o.events.filterMap Event.record?

/-! ## Opening -/

theorem Connection.notes_of_length {c c' : Connection}
    (h : c.credentials.length = c'.credentials.length) : c.notes = c'.notes := by
  rw [notes, notes, h]

namespace Reader

variable {r : Reader} {p : Partition} {w : Server}

theorem filterMap_record?_restrictTrace (range : KeyRange) :
    (restrictTrace range).filterMap Event.record? = [] := by
  unfold restrictTrace
  split
  · cases KeyRange.effective range.lower <;> cases KeyRange.effective range.upper <;> rfl
  · rfl

theorem filterMap_record?_openingTrace (r : Reader) (p : Partition) (query : Query)
    (client : ℕ) :
    (r.openingTrace p query client).filterMap Event.record? =
      (r.connectionTo p.hosts).notes ++ [.connected p.hosts,
        .opened r.config.database r.config.collection p.index query.keys
          (((Projection.ofFields? r.config.idField r.columns).getD []).map Prod.fst)] := by
  have hnotes : ((r.connectionTo p.hosts).notes.map Event.log).filterMap Event.record? =
      (r.connectionTo p.hosts).notes := by
    simp [List.filterMap_map, Function.comp_def, Event.record?]
  have hbatch : (r.config.batchSize.toList.map Event.batchSize).filterMap Event.record? = [] := by
    cases r.config.batchSize <;> rfl
  unfold openingTrace
  simp only [List.filterMap_append, hnotes, hbatch, filterMap_record?_restrictTrace,
    List.append_assoc]
  rfl

end Reader

/-! ## Sessions -/

namespace Session

variable {s s' : Session} {w w' : Server} {data : Value}

theorem records_init (h : (perform (.init data) s w).result = .ok .done) :
    ∃ p query, Partition.ofArguments data = .ok p ∧
      Query.ofFilters s.reader.config.idField s.reader.filters = .ok query ∧
      (perform (.init data) s w).records =
        (s.reader.connectionTo p.hosts).notes ++ [.connected p.hosts,
          .opened s.reader.config.database s.reader.config.collection p.index query.keys
            (((Projection.ofFields? s.reader.config.idField s.reader.columns).getD []).map
              Prod.fst)] ∧
      (perform (.init data) s w).state.reader.state = .initialized := by
  rw [perform_init] at h ⊢
  cases hp : Partition.ofArguments data with
  | error e => simp [hp] at h
  | ok p =>
    simp only [hp] at h ⊢
    have hinit : (Reader.init p s.reader w).result = .ok () := by
      cases hresult : (Reader.init p s.reader w).result with
      | ok => rfl
      | error failure => simp [hresult, Except.map] at h
    rcases Reader.exists_opens hinit with ⟨query, hopens⟩
    refine ⟨p, query, rfl, hopens.translated, ?_, hopens.state⟩
    rw [Outcome.records, hopens.events, Reader.filterMap_record?_openingTrace]

theorem result_init_of_isOk (h : (perform (.init data) s w).result.isOk) :
    (perform (.init data) s w).result = .ok .done := by
  rw [perform_init] at h ⊢
  cases hp : Partition.ofArguments data with
  | error e => simp [hp, Except.isOk, Except.toBool] at h
  | ok p =>
    cases hresult : (Reader.init p s.reader w).result with
    | ok => simp [hresult, Except.map]
    | error failure => simp [hp, hresult, Except.map, Except.isOk, Except.toBool] at h

def Command.Closes : Command → Prop
  | .exit | .close => True
  | .init _ | .hasNext | .next | .list | .iter _ | .iterNext _ | .enter => False

theorem records_reading {command : Command} (hreads : command.Reads) :
    (perform command s w).records = [] ∧
      (perform command s w).state.reader.state = s.reader.state := by
  have honly := onlyReads_perform command hreads s w
  refine ⟨?_, honly.state⟩
  rw [Outcome.records, List.filterMap_eq_nil_iff]
  intro e he
  rcases honly.events e he with ⟨position, rfl⟩
  rfl

/-- A reader that has been opened once cannot be opened again, and trying to is not
written down. -/
theorem records_init_again (h : s.reader.state ≠ .uninitialized) (data : Value) :
    (perform (.init data) s w).records = [] ∧
      (perform (.init data) s w).state.reader.state = s.reader.state := by
  cases hp : Partition.ofArguments data with
  | error e => simp [perform_init, hp, Outcome.records]
  | ok p => simp [init_of_state hp h, Outcome.records]

theorem records_not_closing {command : Command} (h : s.reader.state ≠ .uninitialized)
    (hcommand : ¬ command.Closes) :
    (perform command s w).records = [] ∧
      (perform command s w).state.reader.state = s.reader.state := by
  cases command with
  | init data => exact records_init_again h data
  | hasNext | next | list | iter | iterNext => exact records_reading trivial
  | enter => simp [perform_enter, Outcome.records]
  | exit | close => exact absurd trivial hcommand

theorem records_close (h : s.reader.state ≠ .uninitialized) :
    (perform .close s w).records =
      if s.reader.state = .initialized then [.closing "initialized"] else [] := by
  cases hstate : s.reader.state with
  | uninitialized => contradiction
  | initialized =>
    rcases events_perform_close (w := w) hstate with ⟨client, -, hevents⟩
    simp [Outcome.records, hevents, Event.record?]
  | closed => simp [Outcome.records, (silent_close (w := w) hstate).events]

theorem records_closing {command : Command} (h : s.reader.state ≠ .uninitialized)
    (hcommand : command.Closes) :
    (perform command s w).records =
        (if s.reader.state = .initialized then [.closing "initialized"] else []) ∧
      (perform command s w).state.reader.state = .closed := by
  cases command with
  | exit | close => exact ⟨records_close h, state_perform_close s w⟩
  | init | hasNext | next | list | iter | iterNext | enter => contradiction

variable (w w') in
/-- What a command writes, and the state it leaves a reader in that has been opened,
depend on the state of the reader alone. -/
theorem records_perform (h : s.reader.state = s'.reader.state)
    (hopened : s.reader.state ≠ .uninitialized) (command : Command) :
    (perform command s w).records = (perform command s' w').records ∧
      (perform command s w).state.reader.state = (perform command s' w').state.reader.state ∧
      (perform command s w).state.reader.state ≠ .uninitialized := by
  have hopened' : s'.reader.state ≠ .uninitialized := h ▸ hopened
  by_cases hcommand : command.Closes
  · have hs := records_closing (w := w) hopened hcommand
    have hs' := records_closing (w := w') hopened' hcommand
    rw [hs.1, hs'.1, hs.2, hs'.2, h]
    simp
  · have hs := records_not_closing (w := w) hopened hcommand
    have hs' := records_not_closing (w := w') hopened' hcommand
    rw [hs.1, hs'.1, hs.2, hs'.2]
    exact ⟨rfl, h, hopened⟩

variable (w w') in
/-- From readers in one state on, sessions write the same at every command. -/
theorem records_outcomes (h : s.reader.state = s'.reader.state)
    (hopened : s.reader.state ≠ .uninitialized) (commands : List Command) :
    (Act.outcomes perform commands s w).map Outcome.records =
      (Act.outcomes perform commands s' w').map Outcome.records := by
  induction commands generalizing s s' w w' with
  | nil => rfl
  | cons command rest ih =>
    have hfirst := records_perform w w' h hopened command
    have hlater := ih (perform command s w).server (perform command s' w').server hfirst.2.1
      hfirst.2.2
    simp only [Act.outcomes, List.map_cons, hfirst.1, hlater]

/-- Two sessions are opened on the same partition, with readers that differ in the
texts of their credentials and in the values of their filters.  If both come to be
opened, they write the same records then and at every later command. -/
theorem records_independent_of_secrets (config : Config) {credentials : List Credentials}
    (hcount : credentials.length = config.credentials.length) (columns : List String)
    {filters filters' : List Filter} (hshape : List.Forall₂ Filter.SameShape filters filters')
    (hvalues : ∀ f ∈ filters, f.EquatesValues) (hvalues' : ∀ f ∈ filters', f.EquatesValues)
    (data : Value) (w w' : Server) :
    let s := start (.fresh config columns filters)
    let s' := start (.fresh { config with credentials := credentials } columns filters')
    (perform (.init data) s w).result = .ok .done →
      (perform (.init data) s' w').result = .ok .done →
      ∀ commands, (Act.outcomes perform (.init data :: commands) s w).map Outcome.records =
        (Act.outcomes perform (.init data :: commands) s' w').map Outcome.records := by
  intro s s' hopened hopened' commands
  rcases records_init hopened with ⟨p, query, hp, hquery, hrecords, hstate⟩
  rcases records_init hopened' with ⟨p', query', hp', hquery', hrecords', hstate'⟩
  have hpartition : p = p' := Except.ok.inj (hp.symm.trans hp')
  have hkeys : query.keys = query'.keys :=
    Query.keys_ofFilters hshape hvalues hvalues' hquery hquery'
  have hnotes : (s.reader.connectionTo p.hosts).notes =
      (s'.reader.connectionTo p'.hosts).notes := by
    exact Connection.notes_of_length hcount.symm
  have hfirst : (perform (.init data) s w).records = (perform (.init data) s' w').records := by
    rw [hrecords, hrecords', hnotes, hkeys, hpartition]
    rfl
  have hlater := records_outcomes (perform (.init data) s w).server
    (perform (.init data) s' w').server (hstate.trans hstate'.symm) (by simp [hstate]) commands
  simp only [Act.outcomes, List.map_cons, hfirst, hlater]

/-- Two sessions with other users and other values, of which one looks an object up
and is disturbed while it closes. -/
theorem records_independent_of_secrets_clashing :
    let config : Config := ⟨"db", "docs", [⟨"ann", "admin", "a"⟩, ⟨"ben", "admin", "b"⟩], "_id",
      some 10, 5000, 10000, []⟩
    let credentials : List Credentials := [⟨"eve", "users", "p"⟩, ⟨"dan", "users", "q"⟩]
    let filters : List Filter := [.test .greater "age" (.int 17), .test .less "age" (.int 66),
      .test .equal "city" (.text "Bern"), .test .equal "_id" (.text "0123456789abcdef01234567"),
      .or (.isNull "city") (.test .equal "city" (.text "Basel")), .isNotNull "city"]
    let filters' : List Filter := [.test .greater "age" .null, .test .less "age" (.bool true),
      .test .equal "city" (.dict [(.text "zip", .int 3000)]), .test .equal "_id" (.int 7),
      .or (.isNull "city") (.test .equal "city" (.list [])), .isNotNull "city"]
    let data : Value := .dict [(.text "hosts", .list [.text "h"]), (.text "index", .int 2)]
    let w : Server := ⟨[.int 1], fun _ => [], 0⟩
    let w' : Server := ⟨[], fun point =>
      if point = .cursorClose then [some ⟨.connection, "down"⟩] else [], 4⟩
    let commands : List Command := [.hasNext, .next, .init data, .close, .exit]
    let s := start (.fresh config ["name"] filters)
    let s' := start (.fresh { config with credentials := credentials } ["name"] filters')
    (perform (.init data) s w).result = .ok .done ∧
      (perform (.init data) s' w').result = .ok .done ∧
      (Act.outcomes perform (.init data :: commands) s w).map Outcome.records =
        [[.extraCredentials 1, .connected ["h"],
            .opened "db" "docs" 2 ["age", "_id", "$or", "$and"] ["name", "_id"]],
          [], [], [], [.closing "initialized"], []] ∧
      (Act.outcomes perform (.init data :: commands) s w).map Outcome.records =
        (Act.outcomes perform (.init data :: commands) s' w').map Outcome.records := by
  intro config credentials filters filters' data w w' commands s s'
  have hopened : (perform (.init data) s w).result = .ok .done :=
    result_init_of_isOk (by decide +kernel)
  have hopened' : (perform (.init data) s' w').result = .ok .done :=
    result_init_of_isOk (by decide +kernel)
  have hcount : credentials.length = config.credentials.length := rfl
  have hshape : List.Forall₂ Filter.SameShape filters filters' := by
    simp only [filters, filters', List.forall₂_cons, List.forall₂_nil_left_iff, and_true]
    exact ⟨.test .., .test .., .test .., .test .., .or (.isNull _) (.test ..), .isNotNull _⟩
  have hvalues : (∀ f ∈ filters, f.EquatesValues) ∧ ∀ f ∈ filters', f.EquatesValues := by
    simp [filters, filters', Filter.EquatesValues, Filter.equated, Value.operators?,
      Value.isOperatorKey]
  refine ⟨hopened, hopened', by decide +kernel, ?_⟩
  exact records_independent_of_secrets config hcount ["name"] hshape hvalues.1 hvalues.2 data w
    w' hopened hopened' commands

end Session

end DocScan
