import DocScan.Connection
import DocScan.Proofs.Steps

/-!
# What each step of a connection does

One equation for each step of a connection gives its result, the connection
and server as they are left, and the events, so that no later proof opens the
steps again.
-/

namespace DocScan

namespace Connection

variable {c : Connection} {client : ℕ} {w : Server}

/-- What is said of a failure that happens while the client is made. -/
def makingFailure (failure : Failure) : Failure :=
  if failure.isInterrupt then failure else .connection failure

/-- What is said of a failure that happens while the server is addressed. -/
def addressingFailure (failure : Failure) : Failure :=
  if failure.isInterrupt || failure.isConnection then failure else .connection failure

theorem isInterrupt_makingFailure (failure : Failure) :
    (makingFailure failure).isInterrupt = failure.isInterrupt := by
  unfold makingFailure
  split
  · rfl
  · rename_i hordinary
    rw [Bool.not_eq_true] at hordinary
    rw [hordinary]
    rfl

theorem isInterrupt_addressingFailure (failure : Failure) :
    (addressingFailure failure).isInterrupt = failure.isInterrupt := by
  unfold addressingFailure
  split
  · rfl
  · rename_i hordinary
    rw [Bool.not_eq_true, Bool.or_eq_false_iff] at hordinary
    rw [hordinary.1]
    rfl

/-- The records that are written before the client is made. -/
def notes (c : Connection) : List LogRecord :=
  if 1 < c.credentials.length then [.extraCredentials (c.credentials.length - 1)] else []

theorem noteExtraCredentials_apply (c t : Connection) (w : Server) :
    c.noteExtraCredentials t w = ⟨.ok (), t, w, c.notes.map .log⟩ := by
  unfold noteExtraCredentials notes
  by_cases hmany : 1 < c.credentials.length
  · rw [if_pos hmany, if_pos hmany]
    rfl
  · rw [if_neg hmany, if_neg hmany]
    rfl

theorem makeClient_apply (c t : Connection) (w : Server) :
    c.makeClient t w =
      match c.repeatedOption? with
      | some key => ⟨.error (.clash .client key), t, w, c.notes.map .log⟩
      | none =>
        let made := c.notes.map Event.log ++ [.factory c.hosts (c.ownOptions ++ c.options)]
        match w.outcome .factory with
        | some report => ⟨.error (.reported report), t, w.advance .factory, made⟩
        | none =>
          ⟨.ok (w.clients + 1), t, { w.advance .factory with clients := w.clients + 1 }, made⟩ := by
  unfold makeClient
  rw [Act.bind_apply, noteExtraCredentials_apply]
  cases c.repeatedOption? with
  | some key =>
    simp only [Act.fail, Outcome.after_mk, List.append_nil]
  | none =>
    simp only [Act.reach_bind]
    cases w.outcome .factory with
    | some report => rfl
    | none =>
      simp only [Act.newClient, Outcome.after_mk, List.append_nil]
      rfl

theorem wrapping_apply {σ α : Type} (x : Act σ α) (s : σ) (w : Server) :
    wrapping x s w =
      ⟨(x s w).result.mapError makingFailure, (x s w).state, (x s w).server, (x s w).events⟩ := by
  unfold wrapping
  rw [Act.attempt_bind]
  cases (x s w).result with
  | error failure => simp [Act.fail, Except.mapError, makingFailure, Outcome.after]
  | ok a => simp [Act.pure_apply, Except.mapError, Outcome.after]

theorem connect_unconnected (h : c.client = none) :
    connect c w =
      match c.repeatedOption? with
      | some key => ⟨.error (.connection (.clash .client key)), c, w, c.notes.map .log⟩
      | none =>
        let made := c.notes.map Event.log ++ [.factory c.hosts (c.ownOptions ++ c.options)]
        match w.outcome .factory with
        | some report =>
          ⟨.error (makingFailure (.reported report)), c, w.advance .factory, made⟩
        | none =>
          ⟨.ok (w.clients + 1), { c with client := some (w.clients + 1) },
            { w.advance .factory with clients := w.clients + 1 },
            made ++ [.log (.connected c.hosts)]⟩ := by
  unfold connect
  rw [Act.get_bind, h]
  simp only
  rw [Act.bind_apply, wrapping_apply, makeClient_apply]
  cases c.repeatedOption? with
  | some key => rfl
  | none =>
    cases w.outcome .factory with
    | some report => rfl
    | none => rfl

theorem connect_connected (h : c.client = some client) :
    connect c w = ⟨.ok client, c, w, []⟩ := by
  unfold connect
  rw [Act.get_bind, h]
  rfl

theorem keptClient_connected (h : c.client = some client) :
    keptClient c w = ⟨.ok client, c, w, []⟩ := by
  unfold keptClient
  rw [Act.get_bind, h]
  rfl

theorem keptClient_unconnected (h : c.client = none) :
    keptClient c w = ⟨.error .notConnected, c, w, []⟩ := by
  unfold keptClient
  rw [Act.get_bind, h]
  rfl

theorem ping_unconnected (h : c.client = none) :
    ping c w = ⟨.error .notConnected, c, w, []⟩ := by
  unfold ping
  rw [Act.bind_apply, keptClient_unconnected h]

theorem ping_connected (h : c.client = some client) :
    ping c w =
      ⟨match w.outcome .command with
        | some report => .error (addressingFailure (.reported report))
        | none => .ok (),
        c, w.advance .command, [.command client]⟩ := by
  unfold ping
  rw [Act.bind_apply, keptClient_connected h]
  simp only [Act.attempt_bind, Act.reach]
  cases w.outcome .command with
  | some report => rfl
  | none => rfl

/-- A check of the server's health is a ping whose failures, those of the
connection, are an answer. -/
theorem healthCheck_apply (c : Connection) (w : Server) :
    healthCheck c w =
      ⟨match (ping c w).result with
        | .ok () => .ok true
        | .error failure => if failure.isConnection then .ok false else .error failure,
        (ping c w).state, (ping c w).server, (ping c w).events⟩ := by
  unfold healthCheck
  rw [Act.attempt_bind]
  cases (ping c w).result with
  | ok _ => simp [Act.pure_apply, Outcome.after]
  | error failure =>
    cases hconnection : failure.isConnection <;>
      simp [hconnection, Act.pure_apply, Act.fail, Outcome.after]

theorem close_unconnected (h : c.client = none) : close c w = ⟨.ok (), c, w, []⟩ := by
  unfold close
  rw [Act.get_bind, h]
  rfl

theorem close_connected (h : c.client = some client) :
    close c w =
      ⟨match w.outcome .clientClose with
        | some report => .error (.reported report)
        | none => .ok (),
        { c with client := none }, w.advance .clientClose, [.clientClose client]⟩ := by
  unfold close
  rw [Act.get_bind, h]
  simp only [Act.set_bind, Act.reach]
  cases w.outcome .clientClose with
  | some report => rfl
  | none => rfl

/-! ## Commands -/

variable (c w)

theorem perform_connect :
    perform .connect c w =
      ⟨(connect c w).result.map .client, (connect c w).state, (connect c w).server,
        (connect c w).events⟩ :=
  Act.bind_pure_apply c w connect _

theorem perform_client :
    perform .client c w =
      ⟨(keptClient c w).result.map .client, (keptClient c w).state, (keptClient c w).server,
        (keptClient c w).events⟩ :=
  Act.bind_pure_apply c w keptClient _

theorem perform_ping :
    perform .ping c w =
      ⟨(ping c w).result.map fun _ => .done, (ping c w).state, (ping c w).server,
        (ping c w).events⟩ :=
  Act.bind_pure_apply c w ping fun _ => Answer.done

theorem perform_healthCheck :
    perform .healthCheck c w =
      ⟨(healthCheck c w).result.map .healthy, (healthCheck c w).state, (healthCheck c w).server,
        (healthCheck c w).events⟩ :=
  Act.bind_pure_apply c w healthCheck _

theorem perform_close :
    perform .close c w =
      ⟨(close c w).result.map fun _ => .done, (close c w).state, (close c w).server,
        (close c w).events⟩ :=
  Act.bind_pure_apply c w close fun _ => Answer.done

end Connection

end DocScan
