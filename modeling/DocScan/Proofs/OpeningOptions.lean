import DocScan.Proofs.OpeningFailures

/-!
# Options that stop an opening

The options of a configuration go to the connection and from there to the client, each
time next to settings with names of their own.  An option with such a name would be
given twice and is refused, before the server is met at all.  Where every point
succeeds, that and filters without a query are all that a fresh reader can fail for.
-/

namespace DocScan

/-- Every point succeeds, however often it is reached. -/
def Server.Succeeds (w : Server) : Prop :=
  ∀ point report, some report ∉ w.script point

namespace Server.Succeeds

variable {w : Server}

theorem outcome (h : w.Succeeds) (point : Point) : w.outcome point = none := by
  cases houtcome : w.outcome point with
  | none => rfl
  | some report => exact absurd (mem_script_of_outcome houtcome) (h point report)

theorem opens (h : w.Succeeds) : w.OpensUninterrupted :=
  fun point _ report hreport => absurd hreport (h point report)

end Server.Succeeds

namespace Config

def optionNames (config : Config) : List String := config.clientOptions.map Prod.fst

/-- The names that are taken by settings of the connection and of the client. -/
def reservedNames (config : Config) : List String :=
  ["hosts", "credentials", "server_selection_timeout_ms", "connect_timeout_ms", "client_factory",
    "serverSelectionTimeoutMS", "connectTimeoutMS"] ++
  if config.credentials.isEmpty then [] else ["username", "password", "authSource"]

def Clashes (config : Config) : Prop :=
  ∃ name ∈ config.optionNames, name ∈ config.reservedNames

end Config

/-! ## Names that are given twice -/

theorem Connection.repeatedOption?_eq_none_iff {c : Connection} :
    c.repeatedOption? = none ↔
      ∀ name ∈ c.options.map Prod.fst, name ∉ c.ownOptions.map Prod.fst := by
  simp only [repeatedOption?, List.find?_eq_none, List.contains_iff_mem]

theorem Connection.names_ownOptions (c : Connection) :
    c.ownOptions.map Prod.fst = ["serverSelectionTimeoutMS", "connectTimeoutMS"] ++
      if c.credentials.isEmpty then [] else ["username", "password", "authSource"] := by
  unfold ownOptions authOptions
  cases c.credentials <;> rfl

namespace Reader

variable {r : Reader} {p : Partition} {w : Server}

theorem clash?_eq_none_iff {options : List (String × Value)} :
    clash? options = none ↔
      ∀ name ∈ options.map Prod.fst, name ∉ connectionKeywords ∧ name ∉ connectionPositions := by
  have hsplit : clash? options = none ↔
      (options.map Prod.fst).find? connectionKeywords.contains = none ∧
        (options.map Prod.fst).find? connectionPositions.contains = none := by
    unfold clash?
    dsimp only
    split
    · rename_i key hkeyword
      simp only [hkeyword, reduceCtorEq, false_and]
    · rename_i hkeyword
      split
      · rename_i key hposition
        simp only [hposition, reduceCtorEq, and_false]
      · rename_i hposition
        simp only [hkeyword, hposition, and_self]
  simp only [hsplit, List.find?_eq_none, List.contains_iff_mem, forall_and]

/-- The two checks of the options refuse exactly the names that are taken. -/
theorem checks_eq_none_iff (hself : "self" ∉ r.config.optionNames) :
    clash? r.config.clientOptions = none ∧ (r.connectionTo p.hosts).repeatedOption? = none ↔
      ¬ r.config.Clashes := by
  have hoptions : (r.connectionTo p.hosts).options = r.config.clientOptions := rfl
  have hcredentials : (r.connectionTo p.hosts).credentials = r.config.credentials := rfl
  have hfree : ¬ r.config.Clashes ↔
      ∀ name ∈ r.config.optionNames, name ∉ r.config.reservedNames := by
    simp [Config.Clashes]
  rw [hfree, clash?_eq_none_iff, Connection.repeatedOption?_eq_none_iff,
    Connection.names_ownOptions, hoptions, hcredentials, ← forall₂_and]
  apply forall₂_congr
  intro name hname
  have hother : name ≠ "self" := by
    rintro rfl
    exact hself hname
  simp only [connectionKeywords, connectionPositions, Config.reservedNames, List.mem_append,
    List.mem_cons, List.not_mem_nil, or_false, hother, false_or]
  tauto

/-! ## Where opening stops -/

/-- The stages of opening before the server is met. -/
def checkingStages (r : Reader) (p : Partition) : List (Stage Reader) :=
  .check (clash? r.config.clientOptions) :: (r.connectionTo p.hosts).notes.map .record ++
    [.check ((r.connectionTo p.hosts).repeatedOption?.map fun key =>
      .connection (.clash .client key))]

theorem openingStages_eq_checkingStages (r : Reader) (p : Partition) (client : ℕ) :
    r.openingStages p client = r.checkingStages p ++
      ([.reach .factory (.factory p.hosts ((r.connectionTo p.hosts).ownOptions ++
          r.config.clientOptions)) fun report => Connection.makingFailure (.reported report),
        .newClient, .record (.connected p.hosts)] ++ r.cursorStages p client) := by
  simp [openingStages, connectStages, factoryStages, checkingStages, connectionTo,
    Connection.unconnected]

theorem mem_checkingStages {stage : Stage Reader} (h : stage ∈ r.checkingStages p) :
    (∃ failure, stage = .check failure) ∨ ∃ record, stage = .record record := by
  simp only [checkingStages, List.cons_append, List.mem_cons, List.mem_append, List.mem_map,
    List.not_mem_nil, or_false] at h
  rcases h with rfl | ⟨record, -, rfl⟩ | rfl
  · exact .inl ⟨_, rfl⟩
  · exact .inr ⟨record, rfl⟩
  · exact .inl ⟨_, rfl⟩

theorem checkingStages_pass_iff (hself : "self" ∉ r.config.optionNames) :
    (∀ stage ∈ r.checkingStages p, stage.failure? w = none) ↔ ¬ r.config.Clashes := by
  rw [← checks_eq_none_iff (p := p) hself]
  simp [checkingStages, Stage.failure?, or_imp, forall_and]

theorem cursorStages_pass {client : ℕ} {query : Query} (hserver : w.Succeeds)
    (hquery : Query.ofFilters r.config.idField r.filters = .ok query) :
    ∀ stage ∈ r.cursorStages p client, stage.failure? w = none := by
  intro stage hstage
  rcases mem_cursorStages hstage with ⟨point, event, surfaces, rfl, -⟩ | ⟨e, rfl⟩ | ⟨_, rfl⟩
  · rw [Stage.failure?, hserver.outcome, Option.map_none]
  · simp only [cursorStages, queryStages, hquery, List.mem_append, List.mem_cons, List.mem_map,
      List.not_mem_nil, reduceCtorEq, and_false, exists_false, or_false, false_or] at hstage
    rcases mem_restrictStages hstage with ⟨point, event, hreach⟩
    contradiction
  · rfl

theorem opening_passes_iff (hserver : w.Succeeds) (hself : "self" ∉ r.config.optionNames) :
    (r.opening p w).failure = none ↔
      (∃ query, Query.ofFilters r.config.idField r.filters = .ok query) ∧ ¬ r.config.Clashes := by
  have hstages := openingStages_eq_checkingStages r p (w.clients + 1)
  rw [opening, Stage.failure_run_eq_none_iff (nodup_points_openingStages r p (w.clients + 1)),
    ← checkingStages_pass_iff (p := p) (w := w) hself]
  constructor
  · intro hall
    refine ⟨query_of_failure?_eq_none hall, fun stage hstage => hall stage ?_⟩
    rw [hstages]
    exact List.mem_append_left _ hstage
  · intro hpass stage hstage
    rcases hpass with ⟨⟨query, hquery⟩, hchecks⟩
    rw [hstages, List.mem_append, List.mem_append] at hstage
    rcases hstage with hcheck | hconnect | hcursor
    · exact hchecks stage hcheck
    · simp only [List.mem_cons, List.not_mem_nil, or_false] at hconnect
      rcases hconnect with rfl | rfl | rfl
      · rw [Stage.failure?, hserver.outcome, Option.map_none]
      · rfl
      · rfl
    · exact cursorStages_pass hserver hquery stage hcursor

/-! ## What has happened by then -/

theorem events_of_clashes (hself : "self" ∉ r.config.optionNames) (h : r.config.Clashes) :
    ∀ e ∈ (r.opening p w).events, ∃ record, e = .log record := by
  have hstages := openingStages_eq_checkingStages r p (w.clients + 1)
  have hpoints : ((r.checkingStages p).flatMap Stage.points).Nodup := by
    have hall := nodup_points_openingStages r p (w.clients + 1)
    rw [hstages, List.flatMap_append] at hall
    exact hall.of_append_left
  cases hfailure : (Stage.run (r.checkingStages p) r w).failure with
  | none =>
    have hpass := (Stage.failure_run_eq_none_iff hpoints).mp hfailure
    exact absurd h ((checkingStages_pass_iff hself).mp hpass)
  | some failure =>
    have hopening : r.opening p w = Stage.run (r.checkingStages p) r w := by
      rw [opening, hstages]
      exact Stage.run_append_of_failure hfailure
    intro e he
    rw [hopening] at he
    rcases List.mem_flatMap.mp (Stage.mem_events_run he) with ⟨stage, hstage, hevent⟩
    rcases mem_checkingStages hstage with ⟨check, rfl⟩ | ⟨record, rfl⟩
    · contradiction
    · exact ⟨record, List.mem_singleton.mp hevent⟩

theorem find_not_mem_opening {e : CompileError} {query : Query} {projection : Option Projection}
    (h : Query.ofFilters r.config.idField r.filters = .error e) :
    .find query projection ∉ (r.opening p w).events := by
  intro hmem
  have hstages := Stage.mem_events_run hmem
  rw [openingStages, cursorStages, queryStages, h, List.flatMap_append, events_connectStages]
    at hstages
  simp [Stage.events] at hstages

/-- A failure is reported as the cause, and giving up only warns and ends the client. -/
theorem init_of_failed {failure : Failure} (hidle : r.phase = .idle) (hserver : w.Succeeds)
    (h : (r.opening p w).failure = some failure) :
    (init p r w).result = .error (.opening failure) ∧
      ∀ e ∈ (init p r w).events, e ∈ (r.opening p w).events ∨ (∃ record, e = .log record) ∨
        ∃ client, e = .clientClose client := by
  rcases opening_cases r p w with hcomplete | ⟨before, stage, other, hfails, hrun⟩
  · rw [hcomplete] at h
    contradiction
  · have hother : (r.opening p w).failure = some other := congrArg Progress.failure hrun
    have hevents : (r.opening p w).events = (before ++ [stage]).flatMap Stage.events :=
      congrArg Progress.events hrun
    rw [hother] at h
    cases h
    have hordinary := isInterrupt_of_opening hserver.opens hother
    rcases init_of_run hidle (hserver.outcome .clientClose) hordinary hfails.failing hrun with
      ⟨hresult, -, hinit⟩
    refine ⟨hresult, ?_⟩
    intro e he
    rw [hinit, ← hevents, List.mem_append, List.mem_append, List.mem_singleton] at he
    rcases he with (hopening | hlog) | hclose
    · exact .inl hopening
    · exact .inr (.inl ⟨_, hlog⟩)
    · split at hclose
      · exact .inr (.inr ⟨_, List.mem_singleton.mp hclose⟩)
      · contradiction

theorem events_init_of_clashes (hidle : r.phase = .idle) (hserver : w.Succeeds)
    (hself : "self" ∉ r.config.optionNames) (h : r.config.Clashes) :
    ∀ e ∈ (init p r w).events, (∃ record, e = .log record) ∨ ∃ client, e = .clientClose client := by
  cases hopening : (r.opening p w).failure with
  | none => exact absurd h ((opening_passes_iff hserver hself).mp hopening).2
  | some failure =>
    intro e he
    rcases (init_of_failed hidle hserver hopening).2 e he with hbefore | hgivenUp
    · exact .inl (events_of_clashes hself h e hbefore)
    · exact hgivenUp

theorem find_not_mem_init {e : CompileError} {query : Query} {projection : Option Projection}
    (hidle : r.phase = .idle) (hserver : w.Succeeds) (hself : "self" ∉ r.config.optionNames)
    (h : Query.ofFilters r.config.idField r.filters = .error e) :
    .find query projection ∉ (init p r w).events := by
  cases hopening : (r.opening p w).failure with
  | none =>
    rcases (opening_passes_iff hserver hself).mp hopening with ⟨⟨other, hquery⟩, -⟩
    rw [h] at hquery
    contradiction
  | some failure =>
    intro hfind
    rcases (init_of_failed hidle hserver hopening).2 _ hfind with hbefore | ⟨record, hevent⟩ |
      ⟨client, hevent⟩
    · exact find_not_mem_opening h hbefore
    · contradiction
    · contradiction

/-- Where every point succeeds, a fresh reader opens exactly if its filters have a query and
no option has a name that is taken.  Otherwise the opening is reported as failed and no
cursor is asked for, nor, if a name is taken, a client. -/
theorem init_succeeds_iff (config : Config) (columns : List String) (filters : List Filter)
    (p : Partition) (hserver : w.Succeeds) (hself : "self" ∉ config.optionNames) :
    let outcome := init p (.fresh config columns filters) w
    (outcome.result = .ok () ↔
        (∃ query, Query.ofFilters config.idField filters = .ok query) ∧ ¬ config.Clashes) ∧
      (outcome.result ≠ .ok () →
        (∃ cause, outcome.result = .error (.opening cause)) ∧
          (∀ query projection, .find query projection ∉ outcome.events) ∧
          (config.Clashes → ∀ hosts options, .factory hosts options ∉ outcome.events)) := by
  intro outcome
  let r : Reader := .fresh config columns filters
  have hpasses : (r.opening p w).failure = none ↔
      (∃ query, Query.ofFilters config.idField filters = .ok query) ∧ ¬ config.Clashes :=
    opening_passes_iff hserver hself
  cases hopening : (r.opening p w).failure with
  | none =>
    have hok : outcome.result = .ok () := congrArg Outcome.result (init_of_complete rfl hopening)
    exact ⟨iff_of_true hok (hpasses.mp hopening), fun hfailed => absurd hok hfailed⟩
  | some failure =>
    have hresult : outcome.result = .error (.opening failure) :=
      (init_of_failed rfl hserver hopening).1
    have hfailed : outcome.result ≠ .ok () := by
      rw [hresult]
      exact nofun
    have hrefused : ¬ ((∃ query, Query.ofFilters config.idField filters = .ok query) ∧
        ¬ config.Clashes) := by
      rw [← hpasses, hopening]
      exact Option.some_ne_none failure
    have hclashes : config.Clashes → ∀ e ∈ outcome.events,
        (∃ record, e = .log record) ∨ ∃ client, e = .clientClose client :=
      events_init_of_clashes (r := r) rfl hserver hself
    refine ⟨iff_of_false hfailed hrefused, fun _ => ⟨⟨failure, hresult⟩, ?find, ?factory⟩⟩
    case find =>
      intro query projection hfind
      by_cases hclash : config.Clashes
      · rcases hclashes hclash _ hfind with ⟨record, hevent⟩ | ⟨client, hevent⟩ <;> contradiction
      · cases hquery : Query.ofFilters config.idField filters with
        | ok other => exact hrefused ⟨⟨other, hquery⟩, hclash⟩
        | error e => exact find_not_mem_init (r := r) rfl hserver hself hquery hfind
    case factory =>
      intro hclash hosts options hfactory
      rcases hclashes hclash _ hfactory with ⟨record, hevent⟩ | ⟨client, hevent⟩ <;> contradiction

/-- The name `username` is taken once there are credentials, and only then. -/
theorem init_succeeds_iff_username :
    let config := fun credentials : List Credentials => Config.mk "db" "docs" credentials "_id" none
      5000 10000 [("appname", .text "scan"), ("username", .text "root")]
    let opened := fun credentials : List Credentials =>
      init ⟨0, ["h"], .unbounded⟩ (.fresh (config credentials) ["a"] [.isNull "a"])
        ⟨[], fun _ => [], 0⟩
    (opened []).result = .ok () ∧
      (∃ cause, (opened [⟨"u", "admin", "x"⟩]).result = .error (.opening cause)) ∧
      ∀ hosts options, .factory hosts options ∉ (opened [⟨"u", "admin", "x"⟩]).events := by
  intro config opened
  have hserver : Server.Succeeds ⟨[], fun _ => [], 0⟩ := fun _ _ => List.not_mem_nil
  have hself : ∀ credentials, "self" ∉ (config credentials).optionNames := by
    simp [config, Config.optionNames]
  have hfree : ¬ (config []).Clashes := by
    simp [config, Config.Clashes, Config.optionNames, Config.reservedNames]
  have htaken : (config [⟨"u", "admin", "x"⟩]).Clashes :=
    ⟨"username", by simp [config, Config.optionNames], by simp [config, Config.reservedNames]⟩
  have hopened (credentials : List Credentials) := init_succeeds_iff (config credentials) ["a"]
    [.isNull "a"] ⟨0, ["h"], .unbounded⟩ hserver (hself credentials)
  have hfailed : (opened [⟨"u", "admin", "x"⟩]).result ≠ .ok () :=
    fun hok => ((hopened _).1.mp hok).2 htaken
  rcases (hopened _).2 hfailed with ⟨hcause, -, hfactory⟩
  exact ⟨(hopened []).1.mpr ⟨⟨_, rfl⟩, hfree⟩, hcause, hfactory htaken⟩

end Reader

end DocScan
