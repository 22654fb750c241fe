import FieldBus.Proofs.Reports
import FieldBus.Server
import Mathlib.Data.Nat.Init

/-!
# Calls answered one after the other

What a server does with the bytes it has, whatever its device and its link are: it goes through the
reports that the bytes come to, and answers each that is a call for its station.

* `Request.asks?`, `Report.asks?` — what a station is called to.
* `Call.reply`, `Call.replies` — what a device makes of one call, and of several in a row.
* `Server.Advances` — a server has gone through some calls and has the rest before it: its reports
  are those that are left.  `Server.Advances.trans` and `Server.Advances.append` are why neither
  stopping nor more bytes change what is to come.
* `Server.turn_cases` — one turn advances by one call, or gets to the end.
* **`Server.serve_advances`** — serving advances to the end, or up to the first answer that the link
  does not carry; the call of that answer is behind the server all the same.
-/

namespace FieldBus

/-- What a request calls a station to: nothing, unless it names that station. -/
def Request.asks? (station : Station) : Request → Option Call
  | read named parameter => if named = station then some (.read parameter) else none
  | write named parameter value => if named = station then some (.write parameter value) else none
  | select named => if named = station then some .select else none

/-- What a report calls a station to. -/
def Report.asks? (station : Station) : Report → Option Call
  | frame (.request request) => request.asks? station
  | frame (.reply _) => none
  | defect ⟨fault, named⟩ => if named = some station then some (.malformed fault) else none

lemma Request.asks?_eq (station : Station) (request : Request) :
    request.asks? station = if request.station = station then some request.call else none := by
  cases request <;> rfl

/-- A node looks for what its station is called to. -/
lemma Report.call?_eq_asks? (station : Station) : Report.call? station = Report.asks? station := by
  funext report
  rcases report with (request | reply) | defect
  · exact (request.asks?_eq station).symm
  · rfl
  · rfl

section Replies

variable {D : Type} [Device D]

/-- What a device makes of a call, as a reply, and the device after it.  A broken frame is refused
without asking the device. -/
def Call.reply (device : D) : Call → Reply × D
  | .read parameter =>
    match Device.onRead device parameter with
    | (.ok value, next) => (.value value, next)
    | (.error fault, next) => (.refused (Server.refusalFor fault), next)
  | .write parameter value =>
    match Device.onWrite device parameter value with
    | (.ok _, next) => (.ack, next)
    | (.error fault, next) => (.refused (Server.refusalFor fault), next)
  | .select =>
    match Device.onSelect device with
    | (true, next) => (.ack, next)
    | (false, next) => (.refused .commandFailed, next)
  | .malformed _ => (.refused .commandFailed, device)

/-- The replies to calls, each given by the device that the one before has left. -/
def Call.replies (device : D) : List Call → List Reply × D
  | [] => ([], device)
  | call :: rest =>
    let first := call.reply device
    let later := replies first.2 rest
    (first.1 :: later.1, later.2)

@[simp] lemma Call.replies_nil (device : D) : Call.replies device [] = ([], device) := rfl

lemma Call.replies_cons (device : D) (call : Call) (rest : List Call) :
    Call.replies device (call :: rest)
      = ((call.reply device).1 :: (Call.replies (call.reply device).2 rest).1,
          (Call.replies (call.reply device).2 rest).2) := rfl

lemma Call.replies_append (device : D) (calls more : List Call) :
    Call.replies device (calls ++ more)
      = ((Call.replies device calls).1 ++ (Call.replies (Call.replies device calls).2 more).1,
          (Call.replies (Call.replies device calls).2 more).2) := by
  induction calls generalizing device with
  | nil => rfl
  | cons call rest ih =>
      rw [List.cons_append, Call.replies_cons, Call.replies_cons, ih]
      rfl

end Replies

/-- The messages that carry replies. -/
def Reply.messages (mode : CheckMode) (replies : List Reply) : List Bytes :=
  replies.map fun reply => ((Frame.reply reply).encode mode).bytes

/-- Sends messages one after the other, up to the first that the link does not carry.  Tells
whether it carried all of them. -/
def Link.sendEach {L : Type} [Link L] (link : L) : List Bytes → Bool × L
  | [] => (true, link)
  | message :: rest =>
    match Link.send link message with
    | (true, next) => Link.sendEach next rest
    | (false, next) => (false, next)

namespace Server

variable {D L : Type} [Device D] [Link L] {server mid after : Server} {calls more : List Call}

/-- A node that was called answers with what its device makes of the call, and then owes nothing. -/
lemma consult_of_due {node : Node} {call : Call} (hdue : node.due = call.due) (device : D) :
    consult node device call
      = ((.ok ((Frame.reply (call.reply device).1).encode node.mode),
          { node with due := .nothing }), (call.reply device).2) := by
  cases call with
  | read parameter =>
      rcases hread : Device.onRead device parameter with ⟨_ | _, next⟩ <;>
        simp [consult, Call.reply, hread, Node.giveValue, Node.refuse, Node.answer, hdue, Call.due]
  | write parameter value =>
      rcases hwrite : Device.onWrite device parameter value with ⟨_ | _, next⟩ <;>
        simp [consult, Call.reply, hwrite, Node.acknowledge, Node.refuse, Node.answer, hdue,
          Call.due]
  | select =>
      rcases hselect : Device.onSelect device with ⟨_ | _, next⟩ <;>
        simp [consult, Call.reply, hselect, Node.acknowledge, Node.refuse, Node.answer, hdue,
          Call.due]
  | malformed fault => simp [consult, Call.reply, Node.refuse, Node.answer, hdue, Call.due]

/-! ## Going through the calls -/

/-- The reports that the received bytes will come to. -/
def reports (server : Server) : List Report := server.node.receiver.reports server.received

/-- The server with more bytes behind those that it has. -/
def receive (server : Server) (bytes : Bytes) : Server :=
  { server with received := server.received ++ bytes }

/-- From the one server to the other the calls were gone through; what the bytes come to is
otherwise as it was, and nothing is due. -/
structure Advances (server after : Server) (calls : List Call) : Prop where
  station_eq : after.node.station = server.node.station
  mode_eq : after.node.mode = server.node.mode
  due_eq : after.node.due = .nothing
  reports_eq : ∃ passed, server.reports = passed ++ after.reports ∧
    passed.filterMap (Report.call? server.node.station) = calls
  receiver_eq : after.node.receiver.after after.received
    = server.node.receiver.after server.received

namespace Advances

lemma refl (hdue : server.node.due = .nothing) : Advances server server [] :=
  ⟨rfl, rfl, hdue, ⟨[], rfl, rfl⟩, rfl⟩

lemma trans (h : Advances server mid calls) (hmore : Advances mid after more) :
    Advances server after (calls ++ more) := by
  obtain ⟨passed, hpassed, hcalls⟩ := h.reports_eq
  obtain ⟨later, hlater, hmoreCalls⟩ := hmore.reports_eq
  refine ⟨hmore.station_eq.trans h.station_eq, hmore.mode_eq.trans h.mode_eq, hmore.due_eq,
    ⟨passed ++ later, ?_, ?_⟩, hmore.receiver_eq.trans h.receiver_eq⟩
  · rw [hpassed, hlater, List.append_assoc]
  · rw [h.station_eq] at hmoreCalls
    rw [List.filterMap_append, hcalls, hmoreCalls]

/-- More bytes come behind what is left. -/
lemma append (h : Advances server after calls) (bytes : Bytes) :
    Advances (server.receive bytes) (after.receive bytes) calls := by
  obtain ⟨passed, hpassed, hcalls⟩ := h.reports_eq
  refine ⟨h.station_eq, h.mode_eq, h.due_eq, ⟨passed, ?_, hcalls⟩, ?_⟩
  · simp only [Server.reports, receive] at hpassed ⊢
    rw [Receiver.reports_append, Receiver.reports_append, hpassed, h.receiver_eq,
      List.append_assoc]
  · simp only [receive]
    rw [Receiver.after_append, Receiver.after_append, h.receiver_eq]

/-- At the end of the bytes, the calls are all that the bytes come to. -/
lemma calls_eq (h : Advances server after calls) (hend : after.received = []) :
    calls = server.reports.filterMap (Report.call? server.node.station) := by
  obtain ⟨passed, hpassed, rfl⟩ := h.reports_eq
  rw [hpassed, Server.reports, hend, Receiver.reports_nil, List.append_nil]

/-- At the end of the bytes, the server is the one that took them all and owes nothing. -/
lemma eq_of_end (h : Advances server after calls) (hend : after.received = []) :
    after = ⟨⟨server.node.station, server.node.mode,
      server.node.receiver.after server.received, .nothing⟩, []⟩ := by
  have hreceiver := h.receiver_eq
  rw [hend, Receiver.after_nil] at hreceiver
  obtain ⟨⟨station, mode, receiver, due⟩, received⟩ := after
  obtain rfl := h.station_eq
  obtain rfl := h.mode_eq
  obtain rfl := h.due_eq
  obtain rfl := hreceiver
  obtain rfl := hend
  rfl

end Advances

/-- Taking bytes advances up to the call that is found. -/
lemma advances_of_feed {heard : Node.Heard} {node : Node}
    (hfeed : server.node.feed server.received = (.ok heard, node)) :
    Advances server ⟨{ node with due := .nothing }, server.received.drop heard.taken⟩
        heard.call?.toList ∧
      node.due = (heard.call?.map Call.due).getD .nothing ∧
      (heard.call? = none → server.received.drop heard.taken = []) := by
  rw [Node.feed] at hfeed
  split_ifs at hfeed
  · cases hfeed
  obtain ⟨hheard, rfl⟩ := Prod.mk.inj hfeed
  obtain rfl := Except.ok.inj hheard
  have hreports := Receiver.reports_seek (Report.call? server.node.station) server.node.receiver
    server.received
  have hafter := Receiver.after_seek (Report.call? server.node.station) server.node.receiver
    server.received
  refine ⟨⟨rfl, rfl, rfl, hreports, hafter⟩, rfl, ?_⟩
  intro hnone
  rw [Receiver.taken_seek_of_none _ hnone, List.drop_length]

/-- What a server does in a turn in which nothing is due: it gets to the end of its bytes without
a call, or answers the first call; whether it goes on then depends on the link alone. -/
lemma turn_cases (hdue : server.node.due = .nothing) (device : D) (link : L) :
    (∃ after, turn server device link = .finished after ∧ Advances server after [] ∧
      after.received = []) ∨
    ∃ call after, Advances server after [call] ∧
      turn server device link =
        match Link.send link
          ((Frame.reply (call.reply device).1).encode server.node.mode).bytes with
        | (true, next) => .answered after (call.reply device).2 next
        | (false, next) => .stuck .transport after (call.reply device).2 next := by
  have hfree : server.node.isCalled = false := by rw [Node.isCalled, hdue]
  by_cases hnil : server.received = []
  · exact .inl ⟨server, by rw [turn, if_pos hnil], .refl hdue, hnil⟩
  · obtain ⟨heard, node, hfeed⟩ : ∃ heard node,
        server.node.feed server.received = (.ok heard, node) := by
      rw [Node.feed, if_neg (by simp [hfree])]
      exact ⟨_, _, rfl⟩
    obtain ⟨hadvances, hnodeDue, hend⟩ := advances_of_feed hfeed
    cases hcall : heard.call? with
    | none =>
        rw [hcall] at hadvances hnodeDue
        have hnode : { node with due := .nothing } = node := by
          obtain ⟨_, _, _, _⟩ := node
          exact congrArg _ hnodeDue.symm
        rw [hnode] at hadvances
        refine .inl ⟨_, ?_, hadvances, hend hcall⟩
        rw [turn, if_neg hnil, hfeed]
        dsimp only
        rw [hcall]
    | some call =>
        rw [hcall] at hadvances hnodeDue
        refine .inr ⟨call, _, hadvances, ?_⟩
        have hmode : node.mode = server.node.mode := hadvances.mode_eq
        rw [turn, if_neg hnil, hfeed]
        dsimp only
        rw [hcall]
        dsimp only
        rw [consult_of_due hnodeDue, hmode]
        dsimp only
        rcases Link.send link ((Frame.reply (call.reply device).1).encode server.node.mode).bytes
          with ⟨_ | _, _⟩ <;> rfl

/-! ## Serving -/

section Serve

variable {device device' : D} {link link' : L}

lemma serve_of_finished (h : turn server device link = .finished after) (count : Nat) :
    serve server device link count = ⟨.ok count, after, device, link⟩ := by
  rw [serve]
  split
  · next h' => cases h.symm.trans h'; rfl
  · next h' => cases h.symm.trans h'
  · next h' => cases h.symm.trans h'

lemma serve_of_stuck {fault : Fault}
    (h : turn server device link = .stuck fault after device' link') (count : Nat) :
    serve server device link count = ⟨.error fault, after, device', link'⟩ := by
  rw [serve]
  split
  · next h' => cases h.symm.trans h'
  · next h' => cases h.symm.trans h'; rfl
  · next h' => cases h.symm.trans h'

lemma serve_of_answered (h : turn server device link = .answered after device' link')
    (count : Nat) : serve server device link count = serve after device' link' (count + 1) := by
  rw [serve]
  split
  · next h' => cases h.symm.trans h'
  · next h' => cases h.symm.trans h'
  · next h' => cases h.symm.trans h'; rfl

end Serve

/-- **Serving advances through the calls of the received bytes**, and sends what the device makes
of each.  It gets to the end of the bytes unless an answer is not carried; then it ends behind the
call of that answer. -/
theorem serve_advances (hdue : server.node.due = .nothing) (device : D) (link : L) (count : Nat) :
    ∃ calls, Advances server (serve server device link count).server calls ∧
      (serve server device link count).device = (Call.replies device calls).2 ∧
      (serve server device link count).link = (Link.sendEach link
        (Reply.messages server.node.mode (Call.replies device calls).1)).2 ∧
      (((serve server device link count).result = .ok (count + calls.length) ∧
          (serve server device link count).server.received = [] ∧
          (Link.sendEach link
            (Reply.messages server.node.mode (Call.replies device calls).1)).1 = true) ∨
        ((serve server device link count).result = .error .transport ∧
          (Link.sendEach link
            (Reply.messages server.node.mode (Call.replies device calls).1)).1 = false)) := by
  induction hwork : server.work using Nat.strong_induction_on
    generalizing server device link count with
  | _ work ih =>
      rcases turn_cases hdue device link with
        ⟨after, hturn, hadvances, hend⟩ | ⟨call, after, hadvances, hturn⟩
      · rw [serve_of_finished hturn]
        exact ⟨[], hadvances, rfl, rfl, .inl ⟨rfl, hend, rfl⟩⟩
      · cases hsend : Link.send link
            ((Frame.reply (call.reply device).1).encode server.node.mode).bytes with
        | mk carried next =>
            rw [hsend] at hturn
            cases carried with
            | false =>
                rw [serve_of_stuck hturn]
                refine ⟨[call], hadvances, rfl, ?_, .inr ⟨rfl, ?_⟩⟩ <;>
                  simp [Call.replies_cons, Reply.messages, Link.sendEach, hsend]
            | true =>
                have hless : after.work < work := hwork ▸ work_lt_of_answered hturn
                obtain ⟨calls, hlater, hdevice, hlink, hresult⟩ := ih _ hless hadvances.due_eq
                  (call.reply device).2 next (count + 1) rfl
                have hmessages : Link.sendEach link (Reply.messages server.node.mode
                    (Call.replies device (call :: calls)).1) = Link.sendEach next
                      (Reply.messages after.node.mode
                        (Call.replies (call.reply device).2 calls).1) := by
                  rw [hadvances.mode_eq]
                  simp [Call.replies_cons, Reply.messages, Link.sendEach, hsend]
                have hcount : count + 1 + calls.length = count + (call :: calls).length := by
                  rw [List.length_cons]
                  omega
                rw [serve_of_answered hturn]
                refine ⟨call :: calls, hadvances.trans hlater, hdevice, ?_, ?_⟩
                · rw [hmessages, hlink]
                · rw [hmessages, ← hcount]
                  exact hresult

end Server

end FieldBus
