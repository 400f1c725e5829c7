import DocScan.Proofs.ClientLedger
import DocScan.Proofs.ConnectionSteps

/-!
# The ledger of a connection

A connection closes the clients it makes one after the other.  Its ledger holds of
every command, is carried along by whole runs, and says where each client is.  A
connection that keeps no client tries to make one whenever it is asked to connect, and
keeps the one that it gets.
-/

namespace DocScan

namespace Connection

/-! ## One command -/

/-- What happens when a client is to be made. -/
def attempt (c : Connection) : List Event :=
  c.notes.map .log ++ [.factory c.hosts (c.ownOptions ++ c.options)]

/-- What a command can come to. -/
inductive Turn (c : Connection) (w : Server) : Command → Outcome Connection Answer → Prop where
  | reuse {client : ℕ} (h : c.client = some client) :
      Turn c w .connect ⟨.ok (.client client), c, w, []⟩
  | make {v : Server} (h : c.client = none) (hoptions : c.repeatedOption? = none)
      (hfactory : w.outcome .factory = none) (hv : v.clients = w.clients + 1) :
      Turn c w .connect
        ⟨.ok (.client (w.clients + 1)), { c with client := some (w.clients + 1) }, v,
          c.attempt ++ [.log (.connected c.hosts)]⟩
  | repeated {key : String} (failure : Failure) (h : c.client = none)
      (hoptions : c.repeatedOption? = some key) :
      Turn c w .connect ⟨.error failure, c, w, c.notes.map .log⟩
  | miss {report : Report} (failure : Failure) {v : Server} (h : c.client = none)
      (hoptions : c.repeatedOption? = none) (hfactory : w.outcome .factory = some report)
      (hv : v.clients = w.clients) :
      Turn c w .connect ⟨.error failure, c, v, c.attempt⟩
  | name (result : Except Failure Answer) : Turn c w .client ⟨result, c, w, []⟩
  | address {command : Command} (result : Except Failure Answer) {v : Server}
      (h : command = .ping ∨ command = .healthCheck) (hv : v.clients = w.clients) :
      Turn c w command ⟨result, c, v, c.client.toList.map .command⟩
  | release (result : Except Failure Answer) {v : Server} (hv : v.clients = w.clients) :
      Turn c w .close ⟨result, { c with client := none }, v, c.client.toList.map .clientClose⟩

variable {c : Connection} {w : Server}

theorem turn_connect : Turn c w .connect (perform .connect c w) := by
  rw [perform_connect]
  cases hclient : c.client with
  | some client =>
    rw [connect_connected hclient]
    exact .reuse hclient
  | none =>
    rw [connect_unconnected hclient]
    cases hoptions : c.repeatedOption? with
    | some key => exact .repeated _ hclient hoptions
    | none =>
      cases hfactory : w.outcome .factory with
      | some report => exact .miss _ hclient hoptions hfactory rfl
      | none => exact .make hclient hoptions hfactory rfl

theorem turn_client : Turn c w .client (perform .client c w) := by
  rw [perform_client]
  cases hclient : c.client with
  | some client =>
    rw [keptClient_connected hclient]
    exact .name _
  | none =>
    rw [keptClient_unconnected hclient]
    exact .name _

/-- A ping addresses the client that is kept, if there is one, and changes nothing. -/
theorem ping_addresses (c : Connection) (w : Server) :
    (ping c w).state = c ∧ (ping c w).server.clients = w.clients ∧
      (ping c w).events = c.client.toList.map .command := by
  cases hclient : c.client with
  | some client =>
    rw [ping_connected hclient]
    exact ⟨rfl, rfl, rfl⟩
  | none =>
    rw [ping_unconnected hclient]
    exact ⟨rfl, rfl, rfl⟩

theorem turn_ping : Turn c w .ping (perform .ping c w) := by
  obtain ⟨hstate, hclients, hevents⟩ := ping_addresses c w
  rw [perform_ping, hstate, hevents]
  exact .address _ (.inl rfl) hclients

theorem turn_healthCheck : Turn c w .healthCheck (perform .healthCheck c w) := by
  obtain ⟨hstate, hclients, hevents⟩ := ping_addresses c w
  rw [perform_healthCheck, healthCheck_apply, hstate, hevents]
  exact .address _ (.inr rfl) hclients

theorem close_releases (c : Connection) (w : Server) :
    (close c w).state = { c with client := none } ∧ (close c w).server.clients = w.clients ∧
      (close c w).events = c.client.toList.map .clientClose := by
  cases hclient : c.client with
  | some client =>
    rw [close_connected hclient]
    exact ⟨rfl, rfl, rfl⟩
  | none =>
    have hsame : c = { c with client := none } := by rw [← hclient]
    rw [close_unconnected hclient]
    exact ⟨hsame, rfl, rfl⟩

theorem turn_close : Turn c w .close (perform .close c w) := by
  obtain ⟨hstate, hclients, hevents⟩ := close_releases c w
  rw [perform_close, hstate, hevents]
  exact .release _ hclients

theorem turn_perform (c : Connection) (w : Server) (command : Command) :
    Turn c w command (perform command c w) := by
  cases command with
  | connect => exact turn_connect
  | client => exact turn_client
  | ping => exact turn_ping
  | healthCheck => exact turn_healthCheck
  | close => exact turn_close

theorem clientClose_not_mem_attempt (n : ℕ) : .clientClose n ∉ c.attempt := by
  simp [attempt]

/-- What holds of a single command, whatever came before it. -/
structure Conduct (c : Connection) (w : Server) (command : Command)
    (o : Outcome Connection Answer) : Prop where
  enters : ∀ hosts options, .factory hosts options ∈ o.events →
    command = .connect ∧ c.client = none
  addresses : ∀ n, .command n ∈ o.events → c.client = some n
  asks : command = .ping ∨ command = .healthCheck → o.events = c.client.toList.map .command
  keeps : command ≠ .close → (command = .connect → ∃ failure, o.result = .error failure) →
    o.state = c
  reuses : ∀ n, command = .connect → c.client = some n → o = ⟨.ok (.client n), c, w, []⟩
  attempts : command = .connect → c.client = none →
    (.factory c.hosts (c.ownOptions ++ c.options) ∈ o.events ↔ c.repeatedOption? = none)
  makes : ∀ n, command = .connect → c.client = none →
    (o.result = .ok (.client n) ↔
      c.repeatedOption? = none ∧ w.outcome .factory = none ∧ n = w.clients + 1)
  retains : ∀ n, command = .connect → o.result = .ok (.client n) → o.state.client = some n
  closes : command = .close →
    o.state.client = none ∧ o.events = c.client.toList.map .clientClose

namespace Turn

variable {command : Command} {o : Outcome Connection Answer} {n : ℕ}

theorem enters {hosts : List String} {options : List (String × Value)} (h : Turn c w command o)
    (hentered : .factory hosts options ∈ o.events) : command = .connect ∧ c.client = none := by
  cases h with
  | make hnone | repeated failure hnone | miss failure hnone => exact ⟨rfl, hnone⟩
  | reuse | name => exact absurd hentered List.not_mem_nil
  | address | release => simp at hentered

theorem addresses (h : Turn c w command o) (hcommand : .command n ∈ o.events) :
    c.client = some n := by
  cases h with
  | reuse | name => exact absurd hcommand List.not_mem_nil
  | make | miss => simp [attempt] at hcommand
  | repeated => simp at hcommand
  | address => simpa using hcommand
  | release => simp at hcommand

theorem asks (h : Turn c w command o) (hcommand : command = .ping ∨ command = .healthCheck) :
    o.events = c.client.toList.map .command := by
  cases h with
  | address => rfl
  | reuse | make | repeated | miss | name | release => simp at hcommand

theorem keeps (h : Turn c w command o) (hclose : command ≠ .close)
    (hconnect : command = .connect → ∃ failure, o.result = .error failure) : o.state = c := by
  cases h with
  | reuse | repeated | miss | name | address => rfl
  | make =>
    obtain ⟨failure, hfailure⟩ := hconnect rfl
    contradiction
  | release => exact absurd rfl hclose

theorem reuses (h : Turn c w .connect o) (hclient : c.client = some n) :
    o = ⟨.ok (.client n), c, w, []⟩ := by
  cases h with
  | reuse hother =>
    rw [hclient] at hother
    cases hother
    rfl
  | make hnone | repeated failure hnone | miss failure hnone =>
    rw [hclient] at hnone
    contradiction
  | address result hcommand => simp at hcommand

theorem attempts (h : Turn c w .connect o) (hnone : c.client = none) :
    .factory c.hosts (c.ownOptions ++ c.options) ∈ o.events ↔ c.repeatedOption? = none := by
  cases h with
  | reuse hclient =>
    rw [hnone] at hclient
    contradiction
  | make _ hoptions | miss _ _ hoptions => simp [attempt, hoptions]
  | repeated _ _ hoptions => simp [hoptions]
  | address result hcommand => simp at hcommand

theorem makes (h : Turn c w .connect o) (hnone : c.client = none) :
    o.result = .ok (.client n) ↔
      c.repeatedOption? = none ∧ w.outcome .factory = none ∧ n = w.clients + 1 := by
  cases h with
  | reuse hclient =>
    rw [hnone] at hclient
    contradiction
  | make _ hoptions hfactory => simp [hoptions, hfactory, eq_comm]
  | repeated _ _ hoptions => simp [hoptions]
  | miss _ _ _ hfactory => simp [hfactory]
  | address result hcommand => simp at hcommand

theorem retains (h : Turn c w .connect o) (hresult : o.result = .ok (.client n)) :
    o.state.client = some n := by
  cases h with
  | reuse hclient =>
    cases hresult
    exact hclient
  | make =>
    cases hresult
    rfl
  | repeated | miss => contradiction
  | address result hcommand => simp at hcommand

theorem closes (h : Turn c w .close o) :
    o.state.client = none ∧ o.events = c.client.toList.map .clientClose := by
  cases h with
  | release => exact ⟨rfl, rfl⟩
  | address result hcommand => simp at hcommand

theorem conduct (h : Turn c w command o) : Conduct c w command o where
  enters _ _ := h.enters
  addresses _ := h.addresses
  asks := h.asks
  keeps := h.keeps
  reuses _ := by
    rintro rfl
    exact h.reuses
  attempts := by
    rintro rfl
    exact h.attempts
  makes _ := by
    rintro rfl
    exact h.makes
  retains _ := by
    rintro rfl
    exact h.retains
  closes := by
    rintro rfl
    exact h.closes

/-- Without a client that is given, none is kept. -/
theorem stays_unconnected (h : Turn c w command o) (hnone : c.client = none)
    (hresult : ∀ n, o.result ≠ .ok (.client n)) : o.state.client = none := by
  cases h with
  | reuse | repeated | miss | name | address => exact hnone
  | make => exact absurd rfl (hresult _)
  | release => rfl

/-- Nothing but the client that is kept changes. -/
theorem state_eq (h : Turn c w command o) : ∃ client, o.state = { c with client } := by
  cases h with
  | reuse | repeated | miss | name | address => exact ⟨c.client, rfl⟩
  | make => exact ⟨some (w.clients + 1), rfl⟩
  | release => exact ⟨none, rfl⟩

theorem ledger (h : Turn c w command o) :
    ClientLedger c.client w o.state.client o.server o.events := by
  cases h with
  | reuse | name => exact .still c.client w
  | make hnone _ _ hv =>
    rw [hnone]
    exact .of_made hv (by simp [clientClose_not_mem_attempt])
  | repeated => exact .of_quiet rfl (by simp)
  | miss _ _ _ _ hv => exact .of_quiet hv clientClose_not_mem_attempt
  | address result _ hv => exact .of_quiet hv (by simp)
  | release result hv =>
    apply ClientLedger.of_closed hv
    cases c.client <;> rfl

end Turn

/-! ## Runs -/

theorem ledger_course (c : Connection) (w : Server) (commands : List Command) :
    let left := Act.course perform commands c w
    ClientLedger c.client w left.state.client left.server left.events := by
  induction commands generalizing c w with
  | nil => exact .still c.client w
  | cons command rest ih => exact (turn_perform c w command).ledger.trans (ih _ _)

theorem state_course (c : Connection) (w : Server) (commands : List Command) :
    ∃ client, (Act.course perform commands c w).state = { c with client } := by
  induction commands generalizing c w with
  | nil => exact ⟨c.client, rfl⟩
  | cons command rest ih =>
    obtain ⟨first, hfirst⟩ := (turn_perform c w command).state_eq
    obtain ⟨last, hlast⟩ := ih (perform command c w).state (perform command c w).server
    exact ⟨last, by rw [Act.course, hlast, hfirst]⟩

theorem client_course {commands : List Command} (hnone : c.client = none)
    (hresults : ∀ n, .ok (.client n) ∉ (Act.course perform commands c w).results) :
    (Act.course perform commands c w).state.client = none := by
  induction commands generalizing c w with
  | nil => exact hnone
  | cons command rest ih =>
    have hfirst : (perform command c w).state.client = none := by
      apply (turn_perform c w command).stays_unconnected hnone
      intro n hn
      exact hresults n (hn ▸ List.mem_cons_self)
    exact ih hfirst fun n hn => hresults n (List.mem_cons_of_mem _ hn)

/-- Whatever is asked of a connection and whatever fails, the clients that are not closed
are the one that is kept, and every command treats it as its conduct says.  A close
leaves no client open, once and for all.  From then on the next connect, whatever fails
before it, tries to make a client unless an option repeats one of the connection's own;
it succeeds if the server does, and the client it keeps is a new one. -/
theorem accounts_for_clients (hosts : List String) (credentials : List Credentials)
    (serverSelectionTimeout connectTimeout : Value) (options : List (String × Value))
    (w : Server) (commands : List Command) :
    let start := unconnected hosts credentials serverSelectionTimeout connectTimeout options
    let reached := Act.course perform commands start w
    ClientAccounts w.clients reached.events reached.state.client reached.server ∧
      (∀ command, Conduct reached.state reached.server command
        (perform command reached.state reached.server)) ∧
      ∀ later,
        let closed := perform .close reached.state reached.server
        let left := Act.course perform later closed.state closed.server
        let again := perform .connect left.state left.server
        (∀ n, w.clients < n → n ≤ reached.server.clients →
          (reached.events ++ closed.events).count (.clientClose n) = 1 ∧
            .clientClose n ∉ left.events) ∧
          ((∀ n, .ok (.client n) ∉ left.results) →
            (.factory hosts (start.ownOptions ++ options) ∈ again.events ↔
              start.repeatedOption? = none) ∧
            (∀ n, again.result = .ok (.client n) ↔
              start.repeatedOption? = none ∧ left.server.outcome .factory = none ∧
                n = left.server.clients + 1) ∧
            reached.server.clients ≤ left.server.clients ∧
            ∀ n, again.result = .ok (.client n) → again.state.client = some n) := by
  intro start reached
  have hreached : ClientLedger none w reached.state.client reached.server reached.events :=
    ledger_course start w commands
  refine ⟨hreached.accounts, fun command => (turn_perform _ _ command).conduct, ?_⟩
  intro later closed left again
  have hturn : Turn reached.state reached.server .close closed := turn_perform _ _ .close
  have hclosed : ClientLedger none w none closed.server (reached.events ++ closed.events) :=
    hturn.closes.1 ▸ hreached.trans hturn.ledger
  have hleft : ClientLedger closed.state.client closed.server left.state.client left.server
      left.events := ledger_course _ _ later
  rw [hturn.closes.1] at hleft
  constructor
  · intro n hfirst hlast
    have hone : (reached.events ++ closed.events).count (.clientClose n) = 1 :=
      hclosed.accounts.count_eq_one hfirst (hlast.trans hturn.ledger.clients)
    have honce := (hclosed.trans hleft).accounts.once n
    rw [List.count_append, hone] at honce
    exact ⟨hone, List.count_eq_zero.mp (by omega)⟩
  · intro hresults
    have hnone : left.state.client = none := client_course hturn.closes.1 hresults
    have hagain : Turn left.state left.server .connect again := turn_perform _ _ .connect
    -- a run changes the kept client only, so what is given to a client is as at the start
    obtain ⟨client, hstart⟩ : ∃ client, left.state = { start with client } := by
      obtain ⟨first, hfirst⟩ := state_course start w commands
      obtain ⟨second, hsecond⟩ := hturn.state_eq
      obtain ⟨last, hlast⟩ := state_course closed.state closed.server later
      exact ⟨last, by rw [hlast, hsecond, hfirst]⟩
    have hsame : left.state.hosts = hosts ∧ left.state.ownOptions = start.ownOptions ∧
        left.state.options = options ∧ left.state.repeatedOption? = start.repeatedOption? := by
      rw [hstart]
      exact ⟨rfl, rfl, rfl, rfl⟩
    obtain ⟨hhosts, hown, hfurther, hoptions⟩ := hsame
    have hattempts := hagain.attempts hnone
    rw [hhosts, hown, hfurther, hoptions] at hattempts
    refine ⟨hattempts, fun n => ?_, hturn.ledger.clients.trans hleft.clients,
      fun n => hagain.retains⟩
    rw [hagain.makes hnone, hoptions]

/-- A client that could not be made, one that was closed with a failure and failed calls
in between do not keep the connection from making a new client. -/
theorem accounts_for_clients_reconnecting :
    let report : Report := ⟨.connection, "down"⟩
    let interrupt : Report := ⟨.interrupt "KeyboardInterrupt", "stop"⟩
    let w : Server := ⟨[], fun point =>
      if point = .factory then [some report, none, some interrupt]
      else if point = .clientClose then [some report]
      else [], 0⟩
    let start := unconnected ["h"] [⟨"ada", "db", "pw"⟩] (.int 5000) (.int 10000) []
    let reached := Act.course perform [.connect, .connect, .ping] start w
    let closed := perform .close reached.state reached.server
    let left := Act.course perform [.client, .connect] closed.state closed.server
    let again := perform .connect left.state left.server
    reached.state.client = some 1 ∧ closed.result = .error (.reported report) ∧
      left.results = [.error .notConnected, .error (.reported interrupt)] ∧
      again.result = .ok (.client 2) ∧ again.state.client = some 2 ∧
      ClientAccounts w.clients reached.events reached.state.client reached.server ∧
      (∀ n, w.clients < n → n ≤ reached.server.clients →
        (reached.events ++ closed.events).count (.clientClose n) = 1 ∧
          .clientClose n ∉ left.events) ∧
        ((∀ n, .ok (.client n) ∉ left.results) →
          (.factory ["h"] (start.ownOptions ++ []) ∈ again.events ↔
            start.repeatedOption? = none) ∧
          (∀ n, again.result = .ok (.client n) ↔
            start.repeatedOption? = none ∧ left.server.outcome .factory = none ∧
              n = left.server.clients + 1) ∧
          reached.server.clients ≤ left.server.clients ∧
          ∀ n, again.result = .ok (.client n) → again.state.client = some n) := by
  intro report interrupt w
  obtain ⟨haccounts, -, hlater⟩ := accounts_for_clients ["h"] [⟨"ada", "db", "pw"⟩] (.int 5000)
    (.int 10000) [] w [.connect, .connect, .ping]
  refine ⟨?_, ?_, ?_, ?_, ?_, haccounts, hlater [.client, .connect]⟩
  all_goals decide +kernel

end Connection

end DocScan
