import DocScan.Proofs.Steps

/-!
# What is handed out

Sessions and scans are asked for documents by commands of their own.  A command
either draws until there is nothing left, and then every draw counts, or it hands
out the document that it answers with.  A transcript is all that is left for a
consumer of a list of commands.
-/

namespace DocScan

/-- How documents are asked for: how commands are carried out, the draw that a
command repeats, and the document of an answer. -/
structure Consumer (σ γ β : Type) where
  perform : γ → Act σ β
  repeated? : γ → Option (Act σ (Option Value))
  document? : β → Option Value

/-- What a consumer has at the end: the documents that were handed out, the
server as it is left, and the events. -/
structure Transcript where
  handed : List Value
  server : Server
  events : List Event

namespace Transcript

def after (handed : List Value) (events : List Event) (t : Transcript) : Transcript :=
  ⟨handed ++ t.handed, t.server, events ++ t.events⟩

@[simp] theorem after_nil (t : Transcript) : t.after [] [] = t := rfl

@[simp] theorem after_after (first second : List Value) (earlier later : List Event)
    (t : Transcript) :
    (t.after second later).after first earlier = t.after (first ++ second) (earlier ++ later) := by
  simp [after]

end Transcript

namespace Consumer

variable {σ γ β : Type} (c : Consumer σ γ β) {command : γ} {s : σ} {w : Server}

/-- The documents that a command hands out.  Those of repeated draws are the ones
that the draws hand out, also when the command fails later. -/
def handedOut (command : γ) (s : σ) (w : Server) : List Value :=
  match c.repeated? command, (c.perform command s w).result with
  | some draw, _ => Act.drawn draw (w.documents.length + 1) s w
  | none, .ok answer => (c.document? answer).toList
  | none, .error _ => []

def handedOutBy : List γ → σ → Server → List Value
  | [], _, _ => []
  | command :: rest, s, w =>
    c.handedOut command s w ++
      handedOutBy rest (c.perform command s w).state (c.perform command s w).server

def transcript (commands : List γ) (s : σ) (w : Server) : Transcript :=
  let reached := Act.course c.perform commands s w
  ⟨c.handedOutBy commands s w, reached.server, reached.events⟩

theorem transcript_cons (command : γ) (rest : List γ) (s : σ) (w : Server) :
    let o := c.perform command s w
    c.transcript (command :: rest) s w =
      (c.transcript rest o.state o.server).after (c.handedOut command s w) o.events := rfl

theorem handedOut_of_answer {answer : β} (h : c.repeated? command = none)
    (hanswer : (c.perform command s w).result = .ok answer) :
    c.handedOut command s w = (c.document? answer).toList := by
  rw [handedOut, h, hanswer]

/-- Without repeated draws and without a document in the answer, nothing is
handed out. -/
theorem handedOut_of_none (h : c.repeated? command = none)
    (hnone : ∀ answer, (c.perform command s w).result = .ok answer → c.document? answer = none) :
    c.handedOut command s w = [] := by
  rw [handedOut, h]
  cases hresult : (c.perform command s w).result with
  | error failure => rfl
  | ok answer => simp [hnone answer hresult]

end Consumer

end DocScan
