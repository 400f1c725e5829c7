import DocScan.Proofs.Steps
import DocScan.Scan
import DocScan.Session

/-!
# The server only moves on

Whatever a session does, the documents of its server stay what they are, the
outcomes at each point are taken from the front of the script, and clients are
only ever added.  This holds of every primitive step and passes through
sequences of steps, so it holds of every command.
-/

namespace DocScan

/-- What a server can become. -/
structure Server.Onward (before after : Server) : Prop where
  documents : after.documents = before.documents
  script : ∀ p, after.script p <:+ before.script p
  clients : before.clients ≤ after.clients

namespace Server.Onward

theorem refl (w : Server) : w.Onward w :=
  ⟨rfl, fun _ => List.suffix_refl _, le_rfl⟩

theorem trans {u v w : Server} (huv : u.Onward v) (hvw : v.Onward w) : u.Onward w := by
  constructor
  · exact hvw.documents.trans huv.documents
  · exact fun p => (hvw.script p).trans (huv.script p)
  · exact huv.clients.trans hvw.clients

theorem advance (w : Server) (p : Point) : w.Onward (w.advance p) := by
  have hscript (q : Point) : (w.advance p).script q <:+ w.script q := by
    by_cases hq : q = p
    · simp only [Server.advance, if_pos hq]
      exact List.tail_suffix _
    · simp only [Server.advance, if_neg hq]
      exact List.suffix_refl _
  exact ⟨rfl, hscript, le_rfl⟩

end Server.Onward

variable {σ τ α β : Type}

def Act.MovesOn (x : Act σ α) : Prop :=
  ∀ (s : σ) (w : Server), w.Onward (x s w).server

namespace Act.MovesOn

theorem pure (a : α) : (Pure.pure a : Act σ α).MovesOn := fun _ w => .refl w

theorem fail (e : Failure) : (Act.fail e : Act σ α).MovesOn := fun _ w => .refl w

theorem get : (Act.get : Act σ σ).MovesOn := fun _ w => .refl w

theorem set (s : σ) : (Act.set s).MovesOn := fun _ w => .refl w

theorem modify (f : σ → σ) : (Act.modify f).MovesOn := fun _ w => .refl w

theorem server : (Act.server : Act σ Server).MovesOn := fun _ w => .refl w

theorem log (r : LogRecord) : (Act.log r : Act σ Unit).MovesOn := fun _ w => .refl w

theorem ofExcept (r : Except Failure α) : (Act.ofExcept r : Act σ α).MovesOn := by
  cases r with
  | ok a => exact .pure a
  | error e => exact .fail e

theorem newClient : (Act.newClient : Act σ ℕ).MovesOn :=
  fun _ _ => ⟨rfl, fun _ => List.suffix_refl _, Nat.le_succ _⟩

theorem reach (p : Point) (e : Event) : (Act.reach p e : Act σ Unit).MovesOn := by
  intro s w
  unfold Act.reach
  cases w.outcome p with
  | some r => exact .advance w p
  | none => exact .advance w p

theorem bind {x : Act σ α} {f : α → Act σ β} (hx : x.MovesOn) (hf : ∀ a, (f a).MovesOn) :
    (x >>= f).MovesOn := by
  intro s w
  rw [Act.bind_apply]
  cases (x s w).result with
  | error e => exact hx s w
  | ok a => exact (hx s w).trans (hf a _ _)

theorem attempt {x : Act σ α} (hx : x.MovesOn) : x.attempt.MovesOn := fun s w => hx s w

theorem within {x : Act τ α} (hx : x.MovesOn) (t : τ) : (Act.within t x : Act σ _).MovesOn :=
  fun _ w => hx t w

theorem focus {x : Act τ α} (hx : x.MovesOn) (part : σ → τ) (update : σ → τ → σ) :
    (Act.focus part update x).MovesOn :=
  fun s w => hx (part s) w

theorem discard {x : Act σ α} (hx : x.MovesOn) : (Functor.discard x).MovesOn :=
  .bind hx fun _ => .pure _

theorem drawing {more : Act σ Bool} {next : Act σ α} (hmore : more.MovesOn)
    (hnext : next.MovesOn) : (Act.drawing more next).MovesOn := by
  unfold Act.drawing
  apply bind hmore
  intro found
  cases found with
  | true => exact .bind hnext fun _ => .pure _
  | false => exact .pure _

theorem drawUpTo {draw : Act σ (Option α)} (hdraw : draw.MovesOn) (limit : ℕ) :
    (Act.drawUpTo draw limit).MovesOn := by
  induction limit with
  | zero => exact .pure _
  | succ limit ih =>
    unfold Act.drawUpTo
    apply bind hdraw
    intro found
    cases found with
    | none => exact .pure _
    | some a => exact .bind ih fun _ => .pure _

theorem drawAll {draw : Act σ (Option α)} (hdraw : draw.MovesOn) : (Act.drawAll draw).MovesOn :=
  .bind .server fun _ => hdraw.drawUpTo _

theorem fetch (position : ℕ) : (Act.fetch position : Act σ _).MovesOn :=
  .bind (.reach _ _) fun _ => .bind .server fun _ => .pure _

theorem orEnd {x : Act σ (Option α)} (hx : x.MovesOn) : x.orEnd.MovesOn := by
  unfold Act.orEnd
  apply bind hx.attempt
  intro result
  cases result with
  | ok found => exact .pure _
  | error failure =>
    dsimp only
    split
    · exact .pure _
    · exact .fail _

end Act.MovesOn

/-! ## Connections -/

namespace Connection

theorem movesOn_wrapping {x : Act σ α} (hx : x.MovesOn) : (wrapping x).MovesOn := by
  unfold wrapping
  apply Act.MovesOn.bind (.attempt hx)
  intro result
  cases result with
  | ok a => exact .pure a
  | error e => exact .fail _

theorem movesOn_makeClient (c : Connection) : c.makeClient.MovesOn := by
  unfold makeClient noteExtraCredentials
  apply Act.MovesOn.bind
  · split
    · exact .log _
    · exact .pure _
  · intro _
    split
    · exact .fail _
    · exact .bind (.reach _ _) fun _ => .newClient

theorem movesOn_connect : connect.MovesOn := by
  unfold connect
  apply Act.MovesOn.bind .get
  intro c
  split
  · exact .pure _
  · apply Act.MovesOn.bind (movesOn_wrapping (movesOn_makeClient c))
    intro n
    exact .bind (.set _) fun _ => .bind (.log _) fun _ => .pure _

theorem movesOn_keptClient : keptClient.MovesOn := by
  unfold keptClient
  apply Act.MovesOn.bind .get
  intro c
  split
  · exact .pure _
  · exact .fail _

theorem movesOn_ping : ping.MovesOn := by
  unfold ping
  apply Act.MovesOn.bind movesOn_keptClient
  intro n
  apply Act.MovesOn.bind (.attempt (.reach _ _))
  intro result
  cases result with
  | ok _ => exact .pure _
  | error e => exact .fail _

theorem movesOn_close : close.MovesOn := by
  unfold close
  apply Act.MovesOn.bind .get
  intro c
  split
  · exact .pure _
  · exact .bind (.set _) fun _ => .reach _ _

end Connection

/-! ## Readers and sessions -/

namespace Reader

theorem movesOn_connect (p : Partition) : (connect p).MovesOn := by
  unfold connect
  apply Act.MovesOn.bind .get
  intro r
  split
  · exact .fail _
  · exact .within Connection.movesOn_connect _

theorem movesOn_compile : compile.MovesOn := by
  unfold compile
  apply Act.MovesOn.bind .get
  intro r
  split
  · exact .fail _
  · exact .bind (.set _) fun _ => .pure _

theorem movesOn_restrict (range : KeyRange) : (restrict range).MovesOn := by
  unfold restrict
  split
  · apply Act.MovesOn.bind (.reach _ _)
    intro _
    dsimp only
    -- The two ends are asked for one after the other, each only if it is there.
    split
    · apply Act.MovesOn.bind (.reach _ _)
      intro _
      split
      · exact .reach _ _
      · exact .pure _
    · split
      · exact .reach _ _
      · exact .pure _
  · exact .pure _

theorem movesOn_openCursor (connection : Connection) (client : ℕ) (p : Partition) :
    (openCursor connection client p).MovesOn := by
  unfold openCursor
  apply Act.MovesOn.bind .get
  intro r
  apply Act.MovesOn.bind (.discard (.within Connection.movesOn_ping _))
  intro _
  apply Act.MovesOn.bind (.reach _ _)
  intro _
  apply Act.MovesOn.bind (.reach _ _)
  intro _
  apply Act.MovesOn.bind movesOn_compile
  intro query
  apply Act.MovesOn.bind .get
  intro after
  apply Act.MovesOn.bind (.reach _ _)
  intro _
  dsimp only
  split
  · exact .bind (.reach _ _) fun _ => .bind (movesOn_restrict _) fun _ => .pure _
  · exact .bind (movesOn_restrict _) fun _ => .pure _

theorem movesOn_giveUp (p : Partition) (connection : Option Connection) (failure : Failure) :
    (giveUp p connection failure : Act Reader α).MovesOn := by
  unfold giveUp
  split
  · exact .fail _
  · apply Act.MovesOn.bind (.log _)
    intro _
    dsimp only
    split
    · exact .bind (.discard (.within Connection.movesOn_close _)) fun _ => .fail _
    · exact .fail _

theorem movesOn_establish (p : Partition) : (establish p).MovesOn := by
  unfold establish
  apply Act.MovesOn.bind (.attempt (movesOn_connect p))
  intro connected
  split
  · exact movesOn_giveUp _ _ _
  · apply Act.MovesOn.bind (.attempt (movesOn_openCursor _ _ p))
    intro opened
    split
    · exact movesOn_giveUp _ _ _
    · exact .pure _

theorem movesOn_init (p : Partition) : (init p).MovesOn := by
  unfold init
  apply Act.MovesOn.bind .get
  intro r
  split
  · apply Act.MovesOn.bind (movesOn_establish p)
    intro _
    apply Act.MovesOn.bind .get
    intro _
    apply Act.MovesOn.bind (.set _)
    intro _
    unfold logOpened
    exact .bind .get fun _ => .log _
  · exact .fail _

theorem movesOn_close : close.MovesOn := by
  unfold close release
  apply Act.MovesOn.bind .get
  intro r
  split
  · exact .pure _
  · exact .bind (.set _) fun _ => .log _
  · apply Act.MovesOn.bind (.set _)
    intro _
    apply Act.MovesOn.bind (.log _)
    intro _
    exact .bind (.attempt (.reach _ _)) fun _ => .bind (.reach _ _) fun _ => .ofExcept _

theorem movesOn_fetch (client position : ℕ) : (fetch client position).MovesOn := by
  unfold fetch
  apply Act.MovesOn.bind (.fetch position)
  intro found
  split
  · exact .pure _
  · exact .bind .get fun _ => .bind (.set _) fun _ => .pure _

theorem movesOn_hasNext : hasNext.MovesOn := by
  unfold hasNext
  apply Act.MovesOn.bind .get
  intro r
  split
  · apply Act.MovesOn.bind (movesOn_fetch _ _).orEnd
    intro found
    split
    · exact .pure _
    · exact .bind .get fun _ => .bind (.set _) fun _ => .pure _
  · exact .pure _
  · exact .pure _

theorem movesOn_next : next.MovesOn := by
  unfold next
  apply Act.MovesOn.bind .get
  intro r
  split
  · exact .bind (.set _) fun _ => .pure _
  · apply Act.MovesOn.bind (movesOn_fetch _ _)
    intro found
    split
    · exact .pure _
    · exact .fail _
  · exact .fail _

theorem movesOn_draw : draw.MovesOn := movesOn_hasNext.drawing movesOn_next

theorem movesOn_drawAll : drawAll.MovesOn := movesOn_draw.drawAll

end Reader

namespace Session

theorem movesOn_onReader {x : Act Reader α} (hx : x.MovesOn) :
    (SessionOf.onReader x).MovesOn :=
  .focus hx _ _

theorem movesOn_iterNext (name : String) :
    (SessionOf.iterNext name : Act Session Value).MovesOn := by
  unfold SessionOf.iterNext
  apply Act.MovesOn.bind .get
  intro s
  split
  · apply Act.MovesOn.bind (.attempt (movesOn_onReader Reader.movesOn_draw))
    intro result
    split
    · exact .pure _
    · exact .bind (.modify _) fun _ => .fail _
    · exact .bind (.modify _) fun _ => .fail _
  · exact .fail _

theorem movesOn_init (data : Value) :
    (SessionOf.init data : Act Session Unit).MovesOn := by
  unfold SessionOf.init
  split
  · exact .fail _
  · exact movesOn_onReader (Reader.movesOn_init _)

/-- Every command of a session only moves the server on. -/
theorem movesOn_perform (command : Command) : (perform command).MovesOn := by
  cases command with
  | init data => exact .bind (movesOn_init data) fun _ => .pure _
  | hasNext => exact .bind (movesOn_onReader Reader.movesOn_hasNext) fun _ => .pure _
  | next => exact .bind (movesOn_onReader Reader.movesOn_next) fun _ => .pure _
  | list => exact .bind (movesOn_onReader Reader.movesOn_drawAll) fun _ => .pure _
  | iter name => exact .bind (.modify _) fun _ => .pure _
  | iterNext name => exact .bind (movesOn_iterNext name) fun _ => .pure _
  | enter => exact .pure _
  | exit => exact .bind (movesOn_onReader Reader.movesOn_close) fun _ => .pure _
  | close => exact .bind (movesOn_onReader Reader.movesOn_close) fun _ => .pure _

theorem onward_course (commands : List Command) (s : Session) (w : Server) :
    w.Onward (Act.course perform commands s w).server := by
  induction commands generalizing s w with
  | nil => exact .refl w
  | cons command rest ih => exact (movesOn_perform command s w).trans (ih _ _)

end Session

/-! ## Scans -/

namespace Scan

theorem movesOn_finish : finish.MovesOn := .bind .get fun _ => .set _

theorem movesOn_release (reader : Reader) : (release reader).MovesOn := by
  unfold release
  apply Act.MovesOn.bind movesOn_finish
  intro _
  apply Act.MovesOn.bind (.attempt (.within Reader.movesOn_close _))
  intro result
  cases result with
  | ok _ => exact .pure _
  | error failure => exact .fail _

theorem movesOn_onReader {x : Act Reader α} (hx : x.MovesOn) (reader : Reader) :
    (onReader reader x).MovesOn := by
  unfold onReader
  apply Act.MovesOn.bind (.within (.attempt hx) _)
  rintro ⟨result, after⟩
  cases result with
  | ok a => exact .pure _
  | error failure => exact .bind (movesOn_release after) fun _ => .fail _

theorem movesOn_openedReader : openedReader.MovesOn := by
  unfold openedReader
  apply Act.MovesOn.bind .get
  intro s
  split
  · exact .pure _
  · exact .pure _
  · split
    · exact .bind movesOn_finish fun _ => .fail _
    · exact .bind (movesOn_onReader (Reader.movesOn_init _) _) fun _ => .pure _

theorem movesOn_draw : draw.MovesOn := by
  unfold draw
  apply Act.MovesOn.bind movesOn_openedReader
  intro opened
  cases opened with
  | none => exact .pure _
  | some reader =>
    apply Act.MovesOn.bind (movesOn_onReader Reader.movesOn_draw reader)
    rintro ⟨found, after⟩
    cases found with
    | none => exact .bind (movesOn_release after) fun _ => .pure _
    | some document => exact .bind .get fun _ => .bind (.set _) fun _ => .pure _

theorem movesOn_perform (command : Command) : (perform command).MovesOn := by
  cases command with
  | next =>
    apply Act.MovesOn.bind movesOn_draw
    intro found
    cases found with
    | none => exact .fail _
    | some document => exact .pure _
  | list => exact .bind movesOn_draw.drawAll fun _ => .pure _
  | close =>
    refine .bind ?_ fun _ => .pure _
    unfold stop
    apply Act.MovesOn.bind .get
    intro s
    split
    · exact movesOn_release _
    · exact movesOn_finish

end Scan

end DocScan
