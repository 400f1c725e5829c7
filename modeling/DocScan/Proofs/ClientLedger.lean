import DocScan.Event
import DocScan.Server
import Mathlib.Tactic

/-!
# The ledger of clients

Clients have the numbers in which the server makes them, and whoever makes one holds it
until it is closed.  The ledger of some events is one equation: what is closed, followed
by what is held afterwards, is what was held before followed by what was made.  It is
carried along by runs, and says where each client is.
-/

namespace DocScan

namespace Event

def closedClient? : Event → Option ℕ
  | .clientClose n => some n
  | _ => none

/-- The clients whose closing is among the events, in order. -/
def closedClients (events : List Event) : List ℕ := events.filterMap closedClient?

variable {events later : List Event} {n : ℕ}

@[simp] theorem closedClients_nil : closedClients [] = [] := rfl

@[simp] theorem closedClients_append :
    closedClients (events ++ later) = closedClients events ++ closedClients later :=
  List.filterMap_append

theorem count_closedClients : (closedClients events).count n = events.count (.clientClose n) := by
  induction events with
  | nil => rfl
  | cons e rest ih =>
    cases e with
    | clientClose client =>
      have hcons : closedClients (.clientClose client :: rest) = client :: closedClients rest := rfl
      simp [hcons, List.count_cons, ih]
    | _ =>
      rw [List.count_cons_of_ne (by simp)]
      exact ih

theorem mem_closedClients : n ∈ closedClients events ↔ .clientClose n ∈ events := by
  rw [← List.count_pos_iff, ← List.count_pos_iff, count_closedClients]

theorem closedClients_eq_nil (h : ∀ n, .clientClose n ∉ events) : closedClients events = [] := by
  rw [List.eq_nil_iff_forall_not_mem]
  intro n hn
  exact h n (mem_closedClients.mp hn)

end Event

/-- The clients that the server makes on the way to a later state, in order. -/
def Server.madeClients (before after : Server) : List ℕ :=
  List.range' (before.clients + 1) (after.clients - before.clients)

namespace Server

variable {u v w : Server} {n : ℕ}

theorem mem_madeClients : n ∈ w.madeClients v ↔ w.clients < n ∧ n ≤ v.clients := by
  unfold madeClients
  rw [List.mem_range'_1]
  omega

theorem madeClients_same (h : v.clients = w.clients) : w.madeClients v = [] := by
  unfold madeClients
  rw [h, Nat.sub_self]
  rfl

theorem madeClients_next (h : v.clients = w.clients + 1) :
    w.madeClients v = [w.clients + 1] := by
  unfold madeClients
  rw [h, Nat.add_sub_cancel_left]
  rfl

theorem madeClients_trans (huv : u.clients ≤ v.clients) (hvw : v.clients ≤ w.clients) :
    u.madeClients v ++ v.madeClients w = u.madeClients w := by
  have hstart : v.clients + 1 = u.clients + 1 + (v.clients - u.clients) := by omega
  have hlength : w.clients - u.clients = v.clients - u.clients + (w.clients - v.clients) := by
    omega
  unfold madeClients
  rw [hstart, List.range'_append_1, hlength]

end Server

/-! ## The ledger -/

/-- The clients that are closed, and then the one that is held afterwards, are the one
that was held before and then the ones that were made. -/
structure ClientLedger (held : Option ℕ) (w : Server) (heldAfter : Option ℕ) (v : Server)
    (events : List Event) : Prop where
  clients : w.clients ≤ v.clients
  closed : Event.closedClients events ++ heldAfter.toList = held.toList ++ w.madeClients v

/-- Where the clients are that were made since a number was the last one: only the one
that is held is not closed. -/
structure ClientAccounts (first : ℕ) (events : List Event) (held : Option ℕ) (w : Server) :
    Prop where
  unclosed : ∀ n, first < n ∧ n ≤ w.clients ∧ .clientClose n ∉ events ↔ held = some n
  made : ∀ n, .clientClose n ∈ events → first < n ∧ n ≤ w.clients
  once : ∀ n, events.count (.clientClose n) ≤ 1
  ordered : (Event.closedClients events).Pairwise (· < ·)

namespace ClientLedger

variable {held kept after : Option ℕ} {u v w : Server} {events later : List Event}

theorem of_quiet (hclients : v.clients = w.clients) (hquiet : ∀ n, .clientClose n ∉ events) :
    ClientLedger held w held v events := by
  constructor
  · exact hclients.ge
  · rw [Event.closedClients_eq_nil hquiet, Server.madeClients_same hclients, List.append_nil]
    rfl

theorem still (held : Option ℕ) (w : Server) : ClientLedger held w held w [] :=
  of_quiet rfl fun _ => List.not_mem_nil

theorem of_made (hclients : v.clients = w.clients + 1) (hquiet : ∀ n, .clientClose n ∉ events) :
    ClientLedger none w (some (w.clients + 1)) v events := by
  constructor
  · exact hclients.symm ▸ Nat.le_succ _
  · rw [Event.closedClients_eq_nil hquiet, Server.madeClients_next hclients]
    rfl

theorem of_closed (hclients : v.clients = w.clients)
    (hclosed : Event.closedClients events = held.toList) :
    ClientLedger held w none v events := by
  constructor
  · exact hclients.ge
  · rw [hclosed, Server.madeClients_same hclients]
    rfl

theorem trans (hfirst : ClientLedger held u kept v events)
    (hsecond : ClientLedger kept v after w later) :
    ClientLedger held u after w (events ++ later) := by
  constructor
  · exact hfirst.clients.trans hsecond.clients
  · calc Event.closedClients (events ++ later) ++ after.toList
        = Event.closedClients events ++ (Event.closedClients later ++ after.toList) := by
          rw [Event.closedClients_append, List.append_assoc]
      _ = (Event.closedClients events ++ kept.toList) ++ v.madeClients w := by
          rw [hsecond.closed, List.append_assoc]
      _ = held.toList ++ u.madeClients w := by
          rw [hfirst.closed, List.append_assoc,
            Server.madeClients_trans hfirst.clients hsecond.clients]

theorem accounts (h : ClientLedger none w held v events) :
    ClientAccounts w.clients events held v := by
  have hmade : Event.closedClients events ++ held.toList = w.madeClients v := by
    rw [h.closed]
    rfl
  have hordered : (w.madeClients v).Pairwise (· < ·) := List.pairwise_lt_range'
  rw [← hmade, List.pairwise_append] at hordered
  have hmem (n : ℕ) : w.clients < n ∧ n ≤ v.clients ↔
      .clientClose n ∈ events ∨ held = some n := by
    rw [← Server.mem_madeClients, ← hmade, List.mem_append, Event.mem_closedClients,
      Option.mem_toList]
  constructor
  · intro n
    rw [← and_assoc, hmem]
    constructor
    · rintro ⟨hclosed | hheld, hopen⟩
      · exact absurd hclosed hopen
      · exact hheld
    · intro hheld
      refine ⟨.inr hheld, ?_⟩
      intro hclosed
      have hless := hordered.2.2 n (Event.mem_closedClients.mpr hclosed) n
        (Option.mem_toList.mpr hheld)
      exact absurd hless (lt_irrefl n)
  · intro n hclosed
    exact (hmem n).mpr (.inl hclosed)
  · intro n
    rw [← Event.count_closedClients]
    exact List.nodup_iff_count_le_one.mp hordered.1.nodup n
  · exact hordered.1

end ClientLedger

/-- Where no client is held, every client that was made has been closed. -/
theorem ClientAccounts.count_eq_one {first n : ℕ} {events : List Event} {w : Server}
    (h : ClientAccounts first events none w) (hfirst : first < n) (hlast : n ≤ w.clients) :
    events.count (.clientClose n) = 1 := by
  have hclosed : 1 ≤ events.count (.clientClose n) := by
    rw [List.one_le_count_iff]
    by_contra hopen
    have hheld := (h.unclosed n).mp ⟨hfirst, hlast, hopen⟩
    contradiction
  have honce := h.once n
  omega

end DocScan
