import FieldBus.Proofs.Owed

/-!
# Moving to another number

A node and a server can be moved to another station number.  Then they are as new ones with that
number, whatever was done with them (**`Node.assign_run`**, **`Server.assign_after`**): what there
was of a frame is dropped, what was due is not owed any more, and a server forgets the bytes that it
has not looked at.  In particular nothing that was sent to the old number is served at the new one.

The reason is the same for both.  Whatever is done with one of them, feeding included, makes no
difference to what it would be once it were moved.

* `Node.assign_operate` — one operation makes no difference.
* `Server.Advances.assign_eq` — nor does going through calls, and so nor does one operation on a
  server (`Server.assign_operate`).
* `Server.operate`, `Server.after` — a server that is polled and moved.
-/

namespace FieldBus

namespace Node

/-- The number that this moves a node to. -/
def Entry.station? : Entry → Option Station
  | assigned station => some station
  | _ => none

/-- Whatever is done with a node, moved it would be the same. -/
lemma assign_operate (node : Node) (operation : Operation) (station : Station) :
    (node.operate operation).2.assign station = node.assign station := by
  cases operation with
  | feed bytes =>
      rw [operate, feed]
      split_ifs
      · rfl
      · rw [assign, reset, Receiver.reset_seek]
        rfl
  | respond response =>
      rw [operate]
      rcases node.respond_cases response with ⟨-, reply, hrespond⟩ | ⟨-, fault, hrespond⟩
      · rw [hrespond]
        rfl
      · rw [hrespond]
  | reset => rfl
  | assign station => rfl

/-- Only a move changes the number of a node. -/
lemma station_operate (node : Node) (operation : Operation) :
    (node.operate operation).2.station
      = ((node.operate operation).1.station?).getD node.station := by
  cases operation with
  | feed bytes =>
      rw [operate, feed]
      split_ifs <;> rfl
  | respond response =>
      rw [operate]
      rcases node.respond_cases response with ⟨-, reply, hrespond⟩ | ⟨-, fault, hrespond⟩
      · rw [hrespond]
        rfl
      · rw [hrespond]
        rfl
  | reset => rfl
  | assign station => rfl

/-- **A node that is moved is as a new one.**  Whatever was done with it, it has the number that it
was last moved to, moved to any number it is as a new node with that number, and a reset makes it as
a new node with the number that it has. -/
theorem assign_run (station : Station) (mode : CheckMode) (operations : List Operation) :
    let log := (History.run operate (new station mode) operations).1
    let node := (History.run operate (new station mode) operations).2
    node.station = ((log.filterMap Entry.station?).getLast?).getD station ∧
      (∀ other, node.assign other = new other mode) ∧ node.reset = new node.station mode := by
  intro log node
  have hrun : node.station = ((log.filterMap Entry.station?).getLast?).getD station ∧
      ∀ other, node.assign other = new other mode := by
    refine History.run_invariant operate
      (fun log mid => mid.station = ((log.filterMap Entry.station?).getLast?).getD station ∧
        ∀ other, mid.assign other = new other mode) ⟨rfl, fun other => rfl⟩ ?_ operations
    rintro log mid operation ⟨hstation, hassign⟩
    refine ⟨?_, fun other => (assign_operate mid operation other).trans (hassign other)⟩
    rw [station_operate, History.getLast?_filterMap_concat, hstation]
    cases (mid.operate operation).1.station? <;> rfl
  exact ⟨hrun.1, hrun.2, hrun.2 node.station⟩

end Node

namespace Server

variable {D L : Type} [Device D] {server last : Server} {calls : List Call}

/-- Going through calls makes no difference to the server that it would be if it were moved. -/
lemma Advances.assign_eq (h : Advances server last calls) (station : Station) :
    last.assign station = server.assign station := by
  have hreset : last.node.receiver.reset = server.node.receiver.reset := by
    rw [← Receiver.reset_after _ last.received, h.receiver_eq, Receiver.reset_after]
  rw [assign, assign, Node.assign, Node.assign, Node.reset, Node.reset]
  dsimp only
  rw [h.mode_eq, hreset]

variable [FiniteLink L]

/-- A poll goes through calls of the bytes that the server has then received. -/
lemma exists_advances_poll (hdue : server.node.due = .nothing) (device : D) (link : L) :
    ∃ received calls,
      Advances { server with received := received } (server.poll device link).server calls := by
  rw [poll]
  rcases collect server.received link with ⟨_ | _, received, next⟩
  · exact ⟨received, [], .refl hdue⟩
  · obtain ⟨calls, hadvances, -⟩ :=
      @serve_advances D L _ _ { server with received := received } hdue device next 0
    exact ⟨received, calls, hadvances⟩

/-- What can be done with a server: it is polled, with the device and the link that it finds, or it
is moved to another number. -/
inductive Operation (D L : Type) where
  | poll (device : D) (link : L)
  | assign (station : Station)

/-- Does something with a server. -/
def operate (server : Server) : Operation D L → Server
  | .poll device link => (server.poll device link).server
  | .assign station => server.assign station

/-- Whatever is done with a server that owes no answer, moved it would be the same, and it owes no
answer afterwards. -/
lemma assign_operate (hdue : server.node.due = .nothing) (operation : Operation D L)
    (station : Station) :
    (server.operate operation).assign station = server.assign station ∧
      (server.operate operation).node.due = .nothing := by
  cases operation with
  | poll device link =>
      obtain ⟨received, calls, hadvances⟩ := exists_advances_poll hdue device link
      exact ⟨hadvances.assign_eq station, hadvances.due_eq⟩
  | assign other => exact ⟨rfl, rfl⟩

lemma assign_foldl_operate (hdue : server.node.due = .nothing)
    (operations : List (Operation D L)) (station : Station) :
    (operations.foldl operate server).assign station = server.assign station := by
  induction operations generalizing server with
  | nil => rfl
  | cons operation rest ih =>
      obtain ⟨hassign, hstill⟩ := assign_operate hdue operation station
      exact (ih hstill).trans hassign

/-- A new server, with which all this was done. -/
def after (station : Station) (mode : CheckMode) (operations : List (Operation D L)) : Server :=
  operations.foldl operate (new station mode)

/-- **A server that is moved is as a new one**, and has nothing left of what it received before,
whatever links and devices it was polled with. -/
theorem assign_after (station : Station) (mode : CheckMode) (operations : List (Operation D L))
    (other : Station) : (after station mode operations).assign other = new other mode :=
  @assign_foldl_operate D L _ (new station mode) _ rfl operations other

end Server

end FieldBus
