import FieldBus.Controller
import FieldBus.Link.Line
import FieldBus.ParameterStore
import FieldBus.Proofs.Answering
import FieldBus.Proofs.Grammar

/-!
# One request served

What a poll does on a line in memory, which hands over all that waits on it and takes all that is
written.

* `ParameterStore.carryOut` says what a request does to a store, without a server, and
  `ParameterStore.reply_call` that this is what the server replies.
* **`Server.poll_line`** — a poll answers all calls in the bytes that wait.
* **`Server.poll_request`** — so if exactly one request waits, the server serves it if it is for its
  own station, and does nothing otherwise; either way it is then as it was when it was new.
-/

namespace FieldBus

/-- A request carried out on the store of its station: what it achieves, or why it is refused, and
the store afterwards. -/
def ParameterStore.carryOut (store : ParameterStore) :
    Request → Except Refusal Completion × ParameterStore
  | .read _ parameter =>
    match (store.cell parameter).value? with
    | some value => (.ok (.value value), store)
    | none => (.error .invalidParameter, store)
  | .write _ parameter value =>
    match store.cell parameter with
    | ⟨none, _⟩ => (.error .invalidParameter, store)
    | ⟨some _, true⟩ => (.error .commandFailed, store)
    | ⟨some _, false⟩ =>
      (.ok .written, store.modify parameter fun cell => { cell with value? := some value })
  | .select _ => (.ok .selected, store)

/-- How a station reports what a request came to. -/
def Reply.ofResult : Except Refusal Completion → Reply
  | .ok (.value v) => .value v
  | .ok _ => .ack
  | .error why => .refused why

/-- What the server sends for a request. -/
def ParameterStore.answer (store : ParameterStore) (mode : CheckMode) (request : Request) : Bytes :=
  ((Frame.reply (.ofResult (store.carryOut request).1)).encode mode).bytes

namespace Line

/-- The line after all that waits on it was read. -/
def drained (line : Line) : Line := { line with served := line.queued, unread := [] }

lemma drained_read (line : Line) (limit : Nat) : (line.read limit).2.drained = line.drained := by
  rw [drained, queued_read]
  rfl

/-- The line after a message was written to it. -/
def wrote (line : Line) (message : Bytes) : Line :=
  { line with outbox := { line.outbox with written := line.outbox.written ++ message } }

lemma send_eq {line : Line} (hlimit : line.outbox.limit? = none) (message : Bytes) :
    Link.send line message = (true, line.wrote message) := by
  simp [Link.send, Link.write, Link.flush, Line.write, Outbox.write, Outbox.accepted, hlimit, wrote]

/-- A line that takes everything carries all messages. -/
lemma sendEach_eq {line : Line} (hlimit : line.outbox.limit? = none) (messages : List Bytes) :
    Link.sendEach line messages = (true, line.wrote messages.flatten) := by
  induction messages generalizing line with
  | nil => simp [Link.sendEach, wrote]
  | cons message rest ih =>
      have hrest : (line.wrote message).outbox.limit? = none := hlimit
      rw [Link.sendEach, send_eq hlimit]
      dsimp only
      rw [ih hrest]
      simp [wrote]

end Line

/-! ## Requests are answered -/

/-- A receiver between frames makes one report of a request, and is between frames again. -/
lemma Receiver.reports_request (mode : CheckMode) (request : Request) :
    (Receiver.start .commands mode).reports ((Frame.request request).encode mode).bytes
        = [.frame (.request request)] ∧
      (Receiver.start .commands mode).after ((Frame.request request).encode mode).bytes
        = .start .commands mode := by
  have hfeed := Receiver.feed_wireWord (.start .commands mode)
    (Frame.wireWord_request mode request) fun _ _ => rfl
  rw [Receiver.reports_eq_feed, Receiver.after_eq_feed, hfeed, List.drop_length,
    Receiver.reports_nil, Receiver.after_nil]
  exact ⟨rfl, rfl⟩

/-- The store replies to a request as it carries it out. -/
lemma ParameterStore.reply_call (store : ParameterStore) (request : Request) :
    request.call.reply store
      = (.ofResult (store.carryOut request).1, (store.carryOut request).2) := by
  cases request with
  | read s p =>
      rcases hcell : store.cell p with ⟨_ | value, locked⟩ <;>
        simp only [Call.reply, Request.call, Device.onRead, ParameterStore.read,
          ParameterStore.get?, ParameterStore.carryOut, hcell] <;> rfl
  | write s p v =>
      rcases hcell : store.cell p with ⟨_ | value, _ | _⟩ <;>
        simp only [Call.reply, Request.call, Device.onWrite, ParameterStore.write,
          ParameterStore.set, ParameterStore.contains, ParameterStore.get?,
          ParameterStore.carryOut, hcell] <;> rfl
  | select s => rfl

namespace Server

/-! ## Bytes are collected -/

/-- Collecting takes all that waits on a line. -/
lemma collect_line (received : Bytes) (line : Line) :
    collect received line
      = (true, received ++ line.unread, line.drained) := by
  -- a read that gives nothing shows that nothing is left, since it may give 128 bytes
  induction hlength : line.unread.length using Nat.strong_induction_on
    generalizing received line with
  | _ n ih =>
      rw [collect]
      split
      · next hread => cases hread
      · next bytes next hread =>
          obtain ⟨hbytes, rfl⟩ := Prod.mk.inj hread
          obtain rfl := Option.some.inj hbytes
          split_ifs with hnil
          · have hunread : line.unread = [] := by simpa [Link.readLimit] using hnil
            simp [hunread, Line.queued, Line.drained]
          · have hless : (line.read Link.readLimit).2.unread.length < n := by
              have hpos : line.unread ≠ [] := fun h => hnil (by rw [h]; rfl)
              have hlengthPos := List.length_pos_iff.mpr hpos
              simp only [Line.read, List.length_drop, Link.readLimit]
              omega
            have hrest := ih _ hless (received ++ line.unread.take Link.readLimit) _ rfl
            rw [Line.drained_read] at hrest
            simp only [Line.read, List.append_assoc, List.take_append_drop] at hrest
            exact hrest

/-! ## Polls -/

/-- **A poll of a line that takes everything** answers all calls in the bytes that wait, and gets
to their end. -/
theorem poll_line {D : Type} [Device D] {server : Server} (hdue : server.node.due = .nothing)
    (device : D) {line : Line} (hlimit : line.outbox.limit? = none) :
    let bytes := server.received ++ line.unread
    let calls := (server.node.receiver.reports bytes).filterMap
      (Report.call? server.node.station)
    server.poll device line =
      ⟨.ok calls.length,
        ⟨⟨server.node.station, server.node.mode, server.node.receiver.after bytes, .nothing⟩, []⟩,
        (Call.replies device calls).2,
        line.drained.wrote
          (Reply.messages server.node.mode (Call.replies device calls).1).flatten⟩ := by
  dsimp only
  obtain ⟨calls, hadvances, hdevice, hlink, hresult⟩ := @serve_advances D Line _ _
    (server.receive line.unread) hdue device line.drained 0
  have hdrained : line.drained.outbox.limit? = none := hlimit
  rw [Line.sendEach_eq hdrained] at hlink hresult
  rw [poll, collect_line]
  change serve (server.receive line.unread) device line.drained 0 = _
  rcases hresult with ⟨hok, hend, -⟩ | ⟨-, hlost⟩
  · have hserver := hadvances.eq_of_end hend
    obtain rfl := hadvances.calls_eq hend
    rw [Nat.zero_add] at hok
    generalize serve (server.receive line.unread) device line.drained 0 = polled
      at hok hserver hdevice hlink ⊢
    obtain ⟨result, after, last, link⟩ := polled
    obtain rfl : result = _ := hok
    obtain rfl : after = _ := hserver
    obtain rfl : last = _ := hdevice
    obtain rfl : link = _ := hlink
    rfl
  · cases hlost

/-- **A poll with one request on the line** serves it if it is for this station, and leaves it alone
if it is not.  Either way the server is afterwards as if it were new. -/
theorem poll_request (station : Station) (mode : CheckMode) (store : ParameterStore)
    (request : Request) {line : Line} (hlimit : line.outbox.limit? = none)
    (hunread : line.unread = ((Frame.request request).encode mode).bytes) :
    (Server.new station mode).poll store line =
      if request.station = station then
        ⟨.ok 1, .new station mode, (store.carryOut request).2,
          line.drained.wrote (store.answer mode request)⟩
      else
        ⟨.ok 0, .new station mode, store, line.drained⟩ := by
  have hpoll := @poll_line ParameterStore _ (.new station mode) rfl store line hlimit
  obtain ⟨hreports, hafter⟩ := Receiver.reports_request mode request
  dsimp only [Server.new, Node.new] at hpoll ⊢
  rw [hpoll, List.nil_append, hunread, hreports, hafter, List.filterMap_cons, List.filterMap_nil,
    Report.call?]
  split_ifs with h
  · simp [Call.replies_cons, ParameterStore.reply_call, Reply.messages, ParameterStore.answer]
  · simp [Reply.messages, Line.wrote]

end Server

end FieldBus
