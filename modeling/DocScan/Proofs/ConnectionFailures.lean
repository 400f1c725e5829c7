import DocScan.Proofs.ConnectionSteps

/-!
# How a connection reports what goes wrong

Below a command it can go wrong that there is no client, that options are
repeated, and that the server reports something, be it a failure of the
connection or another one.  What is raised there reaches the caller as a failure
of the connection in every case but an interrupt.  A command that fails has
taken outcomes from the script of the server, and has done nothing else.
-/

namespace DocScan

/-! ## Points that are passed -/

namespace Event

/-- The point of the server at which an event happens. -/
def point? : Event → Option Point
  | .factory _ _ => some .factory
  | .command _ => some .command
  | .database _ _ => some .database
  | .collection _ _ => some .collection
  | .find _ _ => some .find
  | .batchSize _ => some .batchSize
  | .hint _ => some .hint
  | .min _ => some .min
  | .max _ => some .max
  | .fetch _ => some .fetch
  | .cursorClose => some .cursorClose
  | .clientClose _ => some .clientClose
  | .log _ => none

end Event

namespace Server

/-- The server with an outcome taken from its script for every point at which
something happened, and otherwise as it was. -/
def passed (w : Server) (events : List Event) : Server :=
  (events.filterMap Event.point?).foldl advance w

variable (w : Server)

theorem passed_append (events later : List Event) :
    w.passed (events ++ later) = (w.passed events).passed later := by
  simp only [passed, List.filterMap_append, List.foldl_append]

theorem passed_log (records : List LogRecord) : w.passed (records.map .log) = w := by
  unfold passed
  rw [List.filterMap_eq_nil_iff.mpr]
  · rfl
  · intro event hevent
    obtain ⟨record, -, rfl⟩ := List.mem_map.mp hevent
    rfl

end Server

namespace Connection

/-! ## What goes wrong, and what is said of it -/

/-- What goes wrong below a command, before anything handles it. -/
inductive Raises (c : Connection) (w : Server) : Command → Failure → Prop where
  | unconnected {command : Command} (h : c.client = none)
      (hcommand : command = .client ∨ command = .ping) : Raises c w command .notConnected
  | clash {key : String} (h : c.client = none) (hkey : c.repeatedOption? = some key) :
      Raises c w .connect (.clash .client key)
  | factory {report : Report} (h : c.client = none) (hkey : c.repeatedOption? = none)
      (hreport : w.outcome .factory = some report) : Raises c w .connect (.reported report)
  | command {client : ℕ} {report : Report} (h : c.client = some client)
      (hreport : w.outcome .command = some report) : Raises c w .ping (.reported report)

def Uninterrupted (c : Connection) (w : Server) (command : Command) : Prop :=
  ∀ failure, Raises c w command failure → failure.isInterrupt = false

/-- How a command ends.  A failure of the connection is not wrapped once more,
unless it comes from the making of the client. -/
inductive Ends (c : Connection) (w : Server) (command : Command) :
    Except Failure Answer → Prop where
  | answered (answer : Answer) (h : ∀ failure, ¬ Raises c w command failure) :
      Ends c w command (.ok answer)
  | kept {failure : Failure} (h : Raises c w command failure)
      (hown : failure.isConnection = true) (hcommand : command ≠ .connect) :
      Ends c w command (.error failure)
  | wrapped {failure : Failure} (h : Raises c w command failure)
      (hother : command = .connect ∨ failure.isConnection = false) :
      Ends c w command (.error (.connection failure))

variable {c : Connection} {w : Server} {command : Command}

/-- With a client, only what the server reports can go wrong. -/
theorem Raises.of_connected {client : ℕ} {failure : Failure} (h : Raises c w command failure)
    (hclient : c.client = some client) :
    command = .ping ∧ ∃ report, w.outcome .command = some report := by
  cases h with
  | unconnected hnone | clash hnone | factory hnone =>
    rw [hclient] at hnone
    contradiction
  | command _ hreport => exact ⟨rfl, _, hreport⟩

theorem Ends.isConnection {failure : Failure} (h : Ends c w command (.error failure)) :
    failure.isConnection = true := by
  cases h with
  | kept _ hown => exact hown
  | wrapped => rfl

theorem ends_connect (h : Uninterrupted c w .connect) :
    Ends c w .connect (perform .connect c w).result := by
  rw [perform_connect]
  cases hclient : c.client with
  | some client =>
    rw [connect_connected hclient]
    apply Ends.answered
    intro failure hraises
    exact absurd (hraises.of_connected hclient).1 (by decide)
  | none =>
    rw [connect_unconnected hclient]
    cases hkey : c.repeatedOption? with
    | some key => exact .wrapped (.clash hclient hkey) (.inl rfl)
    | none =>
      cases hreport : w.outcome .factory with
      | some report =>
        have hraises : Raises c w .connect (.reported report) := .factory hclient hkey hreport
        have hmaking : makingFailure (.reported report) = .connection (.reported report) := by
          simp [makingFailure, h _ hraises]
        simp only [Except.map, hmaking]
        exact .wrapped hraises (.inl rfl)
      | none =>
        apply Ends.answered
        intro failure hraises
        cases hraises with
        | unconnected _ hcommand => simp at hcommand
        | clash _ hother =>
          rw [hkey] at hother
          contradiction
        | factory _ _ hother =>
          rw [hreport] at hother
          contradiction

theorem ends_client : Ends c w .client (perform .client c w).result := by
  rw [perform_client]
  cases hclient : c.client with
  | some client =>
    rw [keptClient_connected hclient]
    apply Ends.answered
    intro failure hraises
    exact absurd (hraises.of_connected hclient).1 (by decide)
  | none =>
    rw [keptClient_unconnected hclient]
    exact .kept (.unconnected hclient (.inl rfl)) rfl (by decide)

theorem ends_ping (h : Uninterrupted c w .ping) :
    Ends c w .ping (perform .ping c w).result := by
  rw [perform_ping]
  cases hclient : c.client with
  | none =>
    rw [ping_unconnected hclient]
    exact .kept (.unconnected hclient (.inr rfl)) rfl (by decide)
  | some client =>
    rw [ping_connected hclient]
    cases hreport : w.outcome .command with
    | none =>
      apply Ends.answered
      intro failure hraises
      obtain ⟨-, report, hother⟩ := hraises.of_connected hclient
      rw [hreport] at hother
      contradiction
    | some report =>
      have hraises : Raises c w .ping (.reported report) := .command hclient hreport
      simp only [Except.map, addressingFailure, h _ hraises, Bool.false_or]
      cases hown : (Failure.reported report).isConnection with
      | true => exact .kept hraises hown (by decide)
      | false => exact .wrapped hraises (.inr hown)

theorem ends_perform (hcommand : command ∈ [Command.connect, .client, .ping])
    (h : Uninterrupted c w command) : Ends c w command (perform command c w).result := by
  simp only [List.mem_cons, List.not_mem_nil, or_false] at hcommand
  rcases hcommand with rfl | rfl | rfl
  · exact ends_connect h
  · exact ends_client
  · exact ends_ping h

/-- A check of the server's health is a ping that answers whether it succeeded. -/
theorem perform_healthCheck_eq_ping (h : Uninterrupted c w .ping) :
    perform .healthCheck c w =
      { perform .ping c w with result := .ok (.healthy (perform .ping c w).result.isOk) } := by
  have hends : Ends c w .ping (perform .ping c w).result := ends_ping h
  rw [perform_healthCheck, healthCheck_apply]
  rw [perform_ping] at hends ⊢
  cases hresult : (ping c w).result with
  | ok _ => rfl
  | error failure =>
    rw [hresult] at hends
    simp only [hends.isConnection, if_true]
    rfl

/-! ## What a failed command leaves -/

/-- Whether a command did not succeed: it failed, or it found no healthy server. -/
def failed : Except Failure Answer → Bool
  | .error _ => true
  | .ok (.healthy healthy) => !healthy
  | .ok _ => false

/-- A ping, whatever it comes to, only passes the point of the command. -/
theorem ping_passes (c : Connection) (w : Server) :
    (ping c w).state = c ∧ (ping c w).server = w.passed (ping c w).events := by
  cases hclient : c.client with
  | none =>
    rw [ping_unconnected hclient]
    exact ⟨rfl, rfl⟩
  | some client =>
    rw [ping_connected hclient]
    exact ⟨rfl, rfl⟩

theorem connect_passes (h : failed (perform .connect c w).result = true) :
    (perform .connect c w).state = c ∧
      (perform .connect c w).server = w.passed (perform .connect c w).events := by
  rw [perform_connect] at h ⊢
  cases hclient : c.client with
  | some client =>
    rw [connect_connected hclient] at h
    contradiction
  | none =>
    rw [connect_unconnected hclient] at h ⊢
    cases hkey : c.repeatedOption? with
    | some key => exact ⟨rfl, (w.passed_log c.notes).symm⟩
    | none =>
      cases hreport : w.outcome .factory with
      | none =>
        simp only [hkey, hreport] at h
        contradiction
      | some report =>
        refine ⟨rfl, ?_⟩
        simp only [Server.passed_append, Server.passed_log]
        rfl

theorem perform_passes (hclose : command ≠ .close)
    (h : failed (perform command c w).result = true) :
    (perform command c w).state = c ∧
      (perform command c w).server = w.passed (perform command c w).events := by
  cases command with
  | connect => exact connect_passes h
  | client =>
    rw [perform_client]
    cases hclient : c.client with
    | some client =>
      rw [keptClient_connected hclient]
      exact ⟨rfl, rfl⟩
    | none =>
      rw [keptClient_unconnected hclient]
      exact ⟨rfl, rfl⟩
  | ping =>
    rw [perform_ping]
    exact ping_passes c w
  | healthCheck =>
    rw [perform_healthCheck, healthCheck_apply]
    exact ping_passes c w
  | close => exact absurd rfl hclose

theorem course_passes {commands : List Command} (hclose : .close ∉ commands)
    (h : ∀ result ∈ (Act.course perform commands c w).results, failed result = true) :
    let left := Act.course perform commands c w
    left.state = c ∧ left.server = w.passed left.events := by
  induction commands generalizing w with
  | nil => exact ⟨rfl, rfl⟩
  | cons command rest ih =>
    rw [Act.course, List.forall_mem_cons] at h
    rw [List.mem_cons, not_or] at hclose
    obtain ⟨hstate, hserver⟩ := perform_passes (Ne.symm hclose.1) h.1
    simp only [Act.course, hstate] at h ⊢
    have hlater := ih hclose.2 h.2
    simp only [hserver, Server.passed_append] at hlater ⊢
    exact hlater

/-- In whatever state a connection and its server are, what goes wrong below a
command is reported as a failure of the connection, and a check of the server's
health answers instead what a ping would have come to.  After any failed
commands the connection goes on as if they had not been given, from the outcomes
that they left. -/
theorem classifies_failures (c : Connection) (w : Server) :
    (∀ command ∈ [Command.connect, .client, .ping], Uninterrupted c w command →
      Ends c w command (perform command c w).result ∧
        ∀ failure, (perform command c w).result = .error failure →
          failure.isConnection = true) ∧
      (Uninterrupted c w .ping →
        perform .healthCheck c w =
          { perform .ping c w with
            result := .ok (.healthy (perform .ping c w).result.isOk) }) ∧
      ∀ commands, .close ∉ commands →
        let left := Act.course perform commands c w
        (∀ result ∈ left.results, failed result = true) →
          left.state = c ∧
            ∀ later, Act.outcomes perform later left.state left.server =
              Act.outcomes perform later c (w.passed left.events) := by
  refine ⟨?_, perform_healthCheck_eq_ping, ?_⟩
  · intro command hcommand h
    have hends := ends_perform hcommand h
    refine ⟨hends, ?_⟩
    intro failure hfailure
    rw [hfailure] at hends
    exact hends.isConnection
  · intro commands hclose left hfailed
    obtain ⟨hstate, hserver⟩ := course_passes hclose hfailed
    refine ⟨hstate, ?_⟩
    intro later
    rw [hstate, hserver]

/-- The factory fails twice, the second time with a failure of the connection.
The next client is made, is not reached once, and is closed. -/
theorem classifies_failures_before_connecting :
    let lost : Report := ⟨.ordinary "TimeoutError", "no answer"⟩
    let refused : Report := ⟨.connection, "refused"⟩
    let w : Server := ⟨[], fun point =>
      if point = .factory then [some lost, some refused]
      else if point = .command then [some lost]
      else [], 0⟩
    let c := unconnected ["h"] [⟨"u", "admin", "x"⟩, ⟨"v", "admin", "y"⟩] (.int 1) (.int 1) []
    let commands : List Command := [.connect, .ping, .client, .healthCheck, .connect]
    let later : List Command := [.connect, .healthCheck, .ping, .close]
    let left := Act.course perform commands c w
    Uninterrupted c w .connect ∧ Ends c w .connect (perform .connect c w).result ∧
      left.results = [.error (.connection (.reported lost)), .error .notConnected,
        .error .notConnected, .ok (.healthy false),
        .error (.connection (.reported refused))] ∧
      left.state = c ∧
      (Act.outcomes perform later left.state left.server).map Outcome.result =
        [.ok (.client 1), .ok (.healthy false), .ok .done, .ok .done] ∧
      Act.outcomes perform later left.state left.server =
        Act.outcomes perform later c (w.passed left.events) := by
  intro lost refused w c commands later left
  have hconnect : Uninterrupted c w .connect := by
    intro failure hraises
    cases hraises with
    | unconnected => rfl
    | clash => rfl
    | factory _ _ hreport =>
      cases hreport
      rfl
  have hfailed : ∀ result ∈ left.results, failed result = true := by decide +kernel
  have hleft := (classifies_failures c w).2.2 commands (by decide) hfailed
  refine ⟨hconnect, ?ends, ?results, hleft.1, ?later, hleft.2 later⟩
  case ends => exact ((classifies_failures c w).1 _ List.mem_cons_self hconnect).1
  case results => decide +kernel
  case later => decide +kernel

end Connection

end DocScan
