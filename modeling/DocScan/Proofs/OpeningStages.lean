import DocScan.Proofs.ConnectionSteps
import DocScan.Proofs.Stages
import DocScan.Reader

/-!
# The stages of opening a reader

What opening does is written down as a list of stages: the client is made, the
server is addressed, the filters are translated, and the cursor is asked for
and restricted.  The list reaches no point twice, makes one client, and
changes nothing about the reader but its filters.
-/

namespace DocScan

namespace Reader

variable {r : Reader} {p : Partition} {w : Server}

def factoryStages (r : Reader) (p : Partition) : List (Stage Reader) :=
  let c := r.connectionTo p.hosts
  .check (clash? r.config.clientOptions) :: c.notes.map .record ++
    [.check (c.repeatedOption?.map fun key => .connection (.clash .client key)),
      .reach .factory (.factory c.hosts (c.ownOptions ++ c.options))
        fun report => Connection.makingFailure (.reported report)]

def connectStages (r : Reader) (p : Partition) : List (Stage Reader) :=
  r.factoryStages p ++ [.newClient, .record (.connected p.hosts)]

def restrictStages (range : KeyRange) : List (Stage Reader) :=
  if range.isBounded then
    .reach .hint (.hint range.indexKey) .reported ::
      (KeyRange.effective range.lower).toList.map
        (fun bound => .reach .min (.min bound) .reported) ++
      (KeyRange.effective range.upper).toList.map
        (fun bound => .reach .max (.max bound) .reported)
  else []

/-- The reader as it is left by the translation of its filters. -/
def retaining (query : Query) (r : Reader) : Reader :=
  { r with filters := Query.retained r.config.idField query r.filters }

def queryStages (r : Reader) (p : Partition) : List (Stage Reader) :=
  match Query.ofFilters r.config.idField r.filters with
  | .error e => [.check (some (.compilation e))]
  | .ok query =>
    [.update (retaining query),
      .reach .find (.find query (Projection.ofFields? r.config.idField r.columns)) .reported] ++
    r.config.batchSize.toList.map (fun n => .reach .batchSize (.batchSize n) .reported) ++
    restrictStages p.range

def cursorStages (r : Reader) (p : Partition) (client : ℕ) : List (Stage Reader) :=
  [.reach .command (.command client) fun report =>
      Connection.addressingFailure (.reported report),
    .reach .database (.database client r.config.database) .reported,
    .reach .collection (.collection r.config.database r.config.collection) .reported] ++
  r.queryStages p

def openingStages (r : Reader) (p : Partition) (client : ℕ) : List (Stage Reader) :=
  r.connectStages p ++ r.cursorStages p client

/-- The points that are reached by opening, in the order in which it reaches
them. -/
def openingPoints : List Point :=
  [.factory, .command, .database, .collection, .find, .batchSize, .hint, .min, .max]

theorem points_restrictStages (range : KeyRange) :
    ((restrictStages range).flatMap Stage.points).Sublist [.hint, .min, .max] := by
  unfold restrictStages
  split
  · cases KeyRange.effective range.lower <;> cases KeyRange.effective range.upper <;>
      simp [Stage.points]
  · simp

theorem points_queryStages (r : Reader) (p : Partition) :
    ((r.queryStages p).flatMap Stage.points).Sublist
      [.find, .batchSize, .hint, .min, .max] := by
  have hbatch : ((r.config.batchSize.toList.map fun n =>
      (.reach .batchSize (.batchSize n) .reported : Stage Reader)).flatMap Stage.points).Sublist
        [.batchSize] := by
    cases r.config.batchSize <;> simp [Stage.points]
  have hfind : ([Point.find] : List Point).Sublist [.find] := List.Sublist.refl _
  unfold queryStages
  split
  · exact List.nil_sublist _
  · rw [List.flatMap_append, List.flatMap_append]
    exact (hfind.append hbatch).append (points_restrictStages p.range)

theorem points_openingStages (r : Reader) (p : Partition) (client : ℕ) :
    ((r.openingStages p client).flatMap Stage.points).Sublist openingPoints := by
  have hconnect : (r.connectStages p).flatMap Stage.points = [.factory] := by
    simp [connectStages, factoryStages, Stage.points, List.flatMap_map]
  have hbefore : ([.factory, .command, .database, .collection] : List Point).Sublist
      [.factory, .command, .database, .collection] := List.Sublist.refl _
  have hall := hbefore.append (points_queryStages r p)
  rw [openingStages, cursorStages, List.flatMap_append, List.flatMap_append, hconnect]
  exact hall

theorem nodup_points_openingStages (r : Reader) (p : Partition) (client : ℕ) :
    ((r.openingStages p client).flatMap Stage.points).Nodup :=
  (points_openingStages r p client).nodup (by decide)

theorem mem_openingPoints {stage : Stage Reader} {client : ℕ} {point : Point}
    (hstage : stage ∈ r.openingStages p client) (hpoint : point ∈ stage.points) :
    point ∈ openingPoints :=
  (points_openingStages r p client).subset (List.mem_flatMap.mpr ⟨stage, hstage, hpoint⟩)

end Reader

/-- No interrupt is to come at a point of opening. -/
def Server.OpensUninterrupted (w : Server) : Prop :=
  ∀ point ∈ Reader.openingPoints, ∀ report, some report ∈ w.script point →
    (Failure.reported report).isInterrupt = false

theorem Server.mem_script_of_outcome {w : Server} {point : Point} {report : Report}
    (h : w.outcome point = some report) : some report ∈ w.script point := by
  rw [Server.outcome, Option.join_eq_some_iff] at h
  exact List.mem_of_mem_head? h

namespace Reader

variable {r : Reader} {p : Partition} {w : Server}

/-! ## What the stages can be -/

theorem isInterrupt_of_clash {options : List (String × Value)} {failure : Failure}
    (h : clash? options = some failure) : failure.isInterrupt = false := by
  unfold clash? at h
  dsimp only at h
  split at h
  · cases h
    rfl
  · split at h
    · cases h
      rfl
    · contradiction

theorem mem_factoryStages {stage : Stage Reader} (h : stage ∈ r.factoryStages p) :
    (∃ record, stage = .record record) ∨
      (∃ failure : Option Failure, stage = .check failure ∧
        ∀ f, failure = some f → f.isInterrupt = false) ∨
      ∃ event, stage = .reach .factory event
        fun report => Connection.makingFailure (.reported report) := by
  simp only [factoryStages, List.cons_append, List.mem_cons, List.mem_append, List.mem_map,
    List.not_mem_nil, or_false] at h
  rcases h with rfl | ⟨record, -, rfl⟩ | rfl | rfl
  · right
    left
    exact ⟨_, rfl, fun _ hclash => isInterrupt_of_clash hclash⟩
  · left
    exact ⟨record, rfl⟩
  · have hrepeated (failure : Failure)
        (hfailure : ((r.connectionTo p.hosts).repeatedOption?.map fun key =>
          Failure.connection (.clash .client key)) = some failure) :
        failure.isInterrupt = false := by
      obtain ⟨key, -, rfl⟩ := Option.map_eq_some_iff.mp hfailure
      rfl
    right
    left
    exact ⟨_, rfl, hrepeated⟩
  · right
    right
    exact ⟨_, rfl⟩

theorem mem_restrictStages {range : KeyRange} {stage : Stage Reader}
    (h : stage ∈ restrictStages range) : ∃ point event, stage = .reach point event .reported := by
  unfold restrictStages at h
  split at h
  · simp only [List.cons_append, List.mem_cons, List.mem_append, List.mem_map] at h
    rcases h with rfl | ⟨bound, -, rfl⟩ | ⟨bound, -, rfl⟩ <;> exact ⟨_, _, rfl⟩
  · contradiction

theorem mem_cursorStages {client : ℕ} {stage : Stage Reader} (h : stage ∈ r.cursorStages p client) :
    (∃ point event surfaces, stage = .reach point event surfaces ∧
        ∀ report, (surfaces report).isInterrupt = (Failure.reported report).isInterrupt) ∨
      (∃ e, stage = .check (some (.compilation e))) ∨
      ∃ query, stage = .update (retaining query) := by
  simp only [cursorStages, List.mem_append, List.mem_cons, List.not_mem_nil, or_false] at h
  rcases h with (rfl | rfl | rfl) | hquery
  · exact .inl ⟨_, _, _, rfl, fun _ => Connection.isInterrupt_addressingFailure _⟩
  · exact .inl ⟨_, _, _, rfl, fun _ => rfl⟩
  · exact .inl ⟨_, _, _, rfl, fun _ => rfl⟩
  · unfold queryStages at hquery
    split at hquery
    · rw [List.mem_singleton] at hquery
      exact .inr (.inl ⟨_, hquery⟩)
    · simp only [List.mem_append, List.mem_cons, List.mem_map, List.not_mem_nil,
        or_false] at hquery
      rcases hquery with ((rfl | rfl) | ⟨size, -, rfl⟩) | hrange
      · exact .inr (.inr ⟨_, rfl⟩)
      · exact .inl ⟨_, _, _, rfl, fun _ => rfl⟩
      · exact .inl ⟨_, _, _, rfl, fun _ => rfl⟩
      · obtain ⟨point, event, hstage⟩ := mem_restrictStages hrange
        exact .inl ⟨point, event, _, hstage, fun _ => rfl⟩

theorem isInterrupt_of_stage {stage : Stage Reader} {client : ℕ} {failure : Failure}
    (huninterrupted : w.OpensUninterrupted) (hstage : stage ∈ r.openingStages p client)
    (h : stage.failure? w = some failure) : failure.isInterrupt = false := by
  have hreach (point : Point) (event : Event) (surfaces : Report → Failure)
      (hsurfaces : ∀ report, (surfaces report).isInterrupt =
        (Failure.reported report).isInterrupt)
      (hrequest : stage = .reach point event surfaces) : failure.isInterrupt = false := by
    subst hrequest
    obtain ⟨report, hreport, rfl⟩ := Option.map_eq_some_iff.mp h
    have hpoint : point ∈ openingPoints := mem_openingPoints hstage List.mem_cons_self
    rw [hsurfaces]
    exact huninterrupted point hpoint report (Server.mem_script_of_outcome hreport)
  have hmem := hstage
  rw [openingStages, connectStages, List.append_assoc, List.mem_append] at hmem
  rcases hmem with hbefore | hafter
  · rcases mem_factoryStages hbefore with ⟨record, rfl⟩ | ⟨check, rfl, hcheck⟩ | ⟨event, hfactory⟩
    · contradiction
    · exact hcheck failure h
    · exact hreach _ _ _ (fun _ => Connection.isInterrupt_makingFailure _) hfactory
  · simp only [List.cons_append, List.mem_cons, List.nil_append] at hafter
    rcases hafter with rfl | rfl | hcursor
    · contradiction
    · contradiction
    · rcases mem_cursorStages hcursor with ⟨_, _, _, hrequest, hsurfaces⟩ | ⟨e, rfl⟩ | ⟨_, rfl⟩
      · exact hreach _ _ _ hsurfaces hrequest
      · cases h
        rfl
      · contradiction

/-- The stages after the client make no client, and change nothing about the
reader but its filters. -/
theorem run_cursorStages (client : ℕ) (r : Reader) (p : Partition) (w : Server) :
    (∃ filters, (Stage.run (r.cursorStages p client) r w).state = { r with filters := filters }) ∧
      (Stage.run (r.cursorStages p client) r w).server.clients = w.clients := by
  constructor
  · apply Stage.run_induction
      (motive := fun t : Reader => ∃ filters, t = { r with filters := filters })
    · exact ⟨r.filters, rfl⟩
    · rintro stage hstage _ ⟨filters, rfl⟩
      rcases mem_cursorStages hstage with ⟨_, _, _, rfl, -⟩ | ⟨_, rfl⟩ | ⟨query, rfl⟩
      · exact ⟨filters, rfl⟩
      · exact ⟨filters, rfl⟩
      · exact ⟨_, rfl⟩
  · apply Stage.clients_run
    intro stage hstage
    rcases mem_cursorStages hstage with ⟨_, _, _, rfl, -⟩ | ⟨_, rfl⟩ | ⟨_, rfl⟩ <;> rfl

/-- Connecting leaves the reader as it was, and makes a client exactly if it
comes to the end. -/
theorem run_connectStages (r : Reader) (p : Partition) (w : Server) :
    (Stage.run (r.connectStages p) r w).state = r ∧
      ((Stage.run (r.connectStages p) r w).server.clients =
        if (Stage.run (r.connectStages p) r w).failure.isNone then w.clients + 1
        else w.clients) := by
  have hstate : (Stage.run (r.factoryStages p) r w).state = r := by
    apply Stage.run_induction (motive := fun t => t = r) rfl
    rintro stage hstage t rfl
    rcases mem_factoryStages hstage with ⟨_, rfl⟩ | ⟨_, rfl, -⟩ | ⟨_, rfl⟩ <;> rfl
  have hclients : (Stage.run (r.factoryStages p) r w).server.clients = w.clients := by
    apply Stage.clients_run
    intro stage hstage
    rcases mem_factoryStages hstage with ⟨_, rfl⟩ | ⟨_, rfl, -⟩ | ⟨_, rfl⟩ <;> rfl
  unfold connectStages
  cases hfailure : (Stage.run (r.factoryStages p) r w).failure with
  | some failure =>
    rw [Stage.run_append_of_failure hfailure, hfailure]
    exact ⟨hstate, hclients⟩
  | none =>
    rw [Stage.run_append hfailure]
    constructor
    · exact hstate
    · exact congrArg (· + 1) hclients

end Reader

end DocScan
