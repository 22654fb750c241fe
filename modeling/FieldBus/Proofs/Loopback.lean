import FieldBus.Proofs.Outstanding
import FieldBus.Proofs.Serving

/-!
# The bus does what its orders say

A controller and the server of one station, joined by a line in memory that does not fail, come to
exactly what comes of the orders when they are carried out on the store, with no bus in between:
the same outcome for every order, the same bytes on the line, and the same store in the end
(**`Loop.run_eq_obeyAll`**).

* `Loop.exchange` — one order over the bus.
* `obey` — one order on the store, the ranges of its numbers included.
* `Loop.conclude_answer` — what the controller makes of the answer to its request.  Only the first
  reply counts (`Loop.conclude_reply`).
* `Loop.Ready` — between orders nothing is left of the one before.  This is what makes the run a
  matter of one order at a time (`Loop.exchange_eq_obey`).
-/

namespace FieldBus

/-- What became of an order. -/
inductive Settlement where
  /-- The controller did not take it. -/
  | declined (fault : Fault)
  /-- The station answered. -/
  | ended (ending : Ending)
  /-- No answer came, and the controller gave up waiting. -/
  | unanswered
  /-- The server or the controller could not go on. -/
  | failed (fault : Fault)
  deriving DecidableEq

/-- What went over the line for one order, and what became of it. -/
structure Transaction where
  sent : Bytes
  answered : Bytes
  settlement : Settlement
  deriving DecidableEq

/-! ## Orders over the bus -/

/-- A controller and a server at the two ends of a line. -/
structure Loop where
  controller : Controller
  server : Server
  store : ParameterStore
  line : Line

namespace Loop

/-- Gives the controller what the server has written. -/
def conclude (controller : Controller) (answered : Bytes) : Settlement × Controller :=
  match controller.feed answered with
  | (.error fault, next) => (.failed fault, next)
  | (.ok (some ending), next) => (.ended ending, next)
  | (.ok none, next) =>
    match next.expire with
    | (true, last) => (.unanswered, last)
    | (false, last) => (.failed .sequence, last)

/-- Puts a request on the line and polls the server, and then gives the controller the answer. -/
def carry (loop : Loop) (controller : Controller) (sent : Bytes) : Transaction × Loop :=
  let polled := loop.server.poll loop.store (loop.line.clearWritten.load sent)
  let answered := polled.link.outbox.written
  match polled.result with
  | .error fault =>
    (⟨sent, answered, .failed fault⟩, ⟨controller, polled.server, polled.device, polled.link⟩)
  | .ok _ =>
    let concluded := conclude controller answered
    (⟨sent, answered, concluded.1⟩, ⟨concluded.2, polled.server, polled.device, polled.link⟩)

/-- One order over the bus.  If the controller does not take it, the line is not touched. -/
def exchange (loop : Loop) (order : Order) : Transaction × Loop :=
  match loop.controller.order order with
  | (.error fault, controller) =>
    (⟨[], [], .declined fault⟩, { loop with controller := controller })
  | (.ok block, controller) => loop.carry controller block.bytes

/-- One order after the other. -/
def run (loop : Loop) : List Order → List Transaction × Loop
  | [] => ([], loop)
  | order :: rest =>
    let first := loop.exchange order
    let later := first.2.run rest
    (first.1 :: later.1, later.2)

end Loop

/-! ## Orders on the store -/

/-- How an exchange ends whose request came to this. -/
def Ending.ofResult : Except Refusal Completion → Ending
  | .ok completion => .done completion
  | .error why => .refused why

/-- A request on the store of a station.  One for any other station is not answered. -/
def obeyRequest (mode : CheckMode) (station : Station) (store : ParameterStore)
    (request : Request) : Transaction × ParameterStore :=
  let sent := ((Frame.request request).encode mode).bytes
  if request.station = station then
    let carried := store.carryOut request
    (⟨sent, store.answer mode request, .ended (.ofResult carried.1)⟩, carried.2)
  else
    (⟨sent, [], .unanswered⟩, store)

/-- The station with a number of at most two digits. -/
def Station.numbered (a : Int) (h : 0 ≤ a ∧ a < 100) : Station := ⟨a.toNat, by omega⟩

/-- The parameter with a number of at most three digits. -/
def Parameter.numbered (p : Int) (h : 0 ≤ p ∧ p < 1000) : Parameter := ⟨p.toNat, by omega⟩

/-- The value with at most five digits behind its sign. -/
def Value.numbered (v : Int) (h : -100000 < v ∧ v < 100000) : Value := ⟨v, by omega, by omega⟩

/-- An order on the store of a station.  The station number is looked at first, then the number of
the parameter, then the value; with one out of range nothing is sent. -/
def obey (mode : CheckMode) (station : Station) (store : ParameterStore) :
    Order → Transaction × ParameterStore
  | .read a p =>
    if ha : 0 ≤ a ∧ a < 100 then
      if hp : 0 ≤ p ∧ p < 1000 then
        obeyRequest mode station store (.read (.numbered a ha) (.numbered p hp))
      else
        (⟨[], [], .declined .invalidParameter⟩, store)
    else
      (⟨[], [], .declined .invalidAddress⟩, store)
  | .write a p v =>
    if ha : 0 ≤ a ∧ a < 100 then
      if hp : 0 ≤ p ∧ p < 1000 then
        if hv : -100000 < v ∧ v < 100000 then
          obeyRequest mode station store
            (.write (.numbered a ha) (.numbered p hp) (.numbered v hv))
        else
          (⟨[], [], .declined .valueOutOfRange⟩, store)
      else
        (⟨[], [], .declined .invalidParameter⟩, store)
    else
      (⟨[], [], .declined .invalidAddress⟩, store)
  | .select a =>
    if ha : 0 ≤ a ∧ a < 100 then
      obeyRequest mode station store (.select (.numbered a ha))
    else
      (⟨[], [], .declined .invalidAddress⟩, store)

/-- One order after the other on the store. -/
def obeyAll (mode : CheckMode) (station : Station) (store : ParameterStore) :
    List Order → List Transaction × ParameterStore
  | [] => ([], store)
  | order :: rest =>
    let first := obey mode station store order
    let later := obeyAll mode station first.2 rest
    (first.1 :: later.1, later.2)

/-- Checking an order finds the fault that comes first. -/
lemma obey_eq (mode : CheckMode) (station : Station) (store : ParameterStore) (order : Order) :
    obey mode station store order =
      match order.check with
      | .ok request => obeyRequest mode station store request
      | .error fault => (⟨[], [], .declined fault⟩, store) := by
  cases order with
  | read a p =>
      simp only [obey, Order.check, Station.ofInt, Parameter.ofInt]
      split_ifs <;> first | rfl | omega
  | write a p v =>
      simp only [obey, Order.check, Station.ofInt, Parameter.ofInt, Value.ofInt]
      split_ifs <;> first | rfl | omega
  | select a =>
      simp only [obey, Order.check, Station.ofInt]
      split_ifs <;> first | rfl | omega

/-! ## The ends of the line -/

/-- What a request came to can be told of it, and ends its exchange as it should. -/
lemma Kind.admits_ofResult (store : ParameterStore) (request : Request) :
    request.kind.admits (.ofResult (store.carryOut request).1) = true ∧
      request.kind.ending (.ok (.ofResult (store.carryOut request).1))
        = .ofResult (store.carryOut request).1 := by
  cases request with
  | read s p =>
      simp only [ParameterStore.carryOut]
      rcases (store.cell p).value? with _ | value <;> exact ⟨rfl, rfl⟩
  | write s p v =>
      simp only [ParameterStore.carryOut]
      rcases store.cell p with ⟨_ | value, _ | _⟩ <;> exact ⟨rfl, rfl⟩
  | select s => exact ⟨rfl, rfl⟩

namespace Loop

variable {loop : Loop} {mode : CheckMode} {station : Station}

/-- However an exchange ends, the controller then waits for nothing. -/
lemma conclude_idle (controller : Controller) (answered : Bytes) :
    (conclude controller answered).2.mode = controller.mode ∧
      (conclude controller answered).2.exchange? = none := by
  cases hexchange : controller.exchange? with
  | none => simp [conclude, Controller.feed, hexchange]
  | some exchange =>
      cases hverdict : (exchange.feed answered).verdict? with
      | none =>
          simp [conclude, Controller.feed, hexchange, hverdict, Controller.expire,
            Controller.isIdle]
      | some verdict => simp [conclude, Controller.feed, hexchange, hverdict]

/-- The first reply ends the exchange, if it can be one; what comes behind it is dropped. -/
lemma conclude_reply {controller : Controller} {kind : Kind} {reply : Reply}
    (hexchange : controller.exchange? = some (.start kind mode))
    (hadmits : kind.admits reply = true) (rest : Bytes) :
    (conclude controller (((Frame.reply reply).encode mode).bytes ++ rest)).1
      = .ended (kind.ending (.ok reply)) := by
  have hfeed := Receiver.feed_wireWord (.start .replies mode) (Frame.wireWord_reply mode reply)
    fun _ _ => rfl
  have hreport : ((Receiver.start .replies mode).feed
      ((Frame.reply reply).encode mode).bytes).report? = some (.frame (.reply reply)) := by
    rw [hfeed]
  have hjudge : kind.judge (.frame (.reply reply)) = .ok reply := if_pos hadmits
  simp [conclude, Controller.feed, hexchange, Exchange.feed, Exchange.start,
    Receiver.feed_append_of_report hreport rest, hreport, hjudge]

/-- The controller makes of the answer what the request came to. -/
lemma conclude_answer (store : ParameterStore) (request : Request) {controller : Controller}
    (hexchange : controller.exchange? = some (.start request.kind mode)) :
    (conclude controller (store.answer mode request)).1
      = .ended (.ofResult (store.carryOut request).1) := by
  obtain ⟨hadmits, hending⟩ := Kind.admits_ofResult store request
  have hconclude := conclude_reply hexchange hadmits []
  rw [List.append_nil, hending] at hconclude
  exact hconclude

lemma conclude_nil {controller : Controller} {kind : Kind}
    (hexchange : controller.exchange? = some (.start kind mode)) :
    (conclude controller []).1 = .unanswered := by
  simp [conclude, Controller.feed, hexchange, Exchange.feed, Receiver.feed, Controller.expire,
    Controller.isIdle]

/-- Between orders: the controller waits for nothing, the server is as it was when it was new, and
the line takes messages of any length. -/
structure Ready (mode : CheckMode) (station : Station) (loop : Loop) : Prop where
  mode_eq : loop.controller.mode = mode
  exchange_eq : loop.controller.exchange? = none
  server_eq : loop.server = .new station mode
  limit_eq : loop.line.outbox.limit? = none

/-- Where the poll goes well, the controller settles it with what was written. -/
lemma carry_of_poll {controller : Controller} {sent answered : Bytes}
    {polled : Server.Polled ParameterStore Line} {count : Nat} {settlement : Settlement}
    (hpoll : loop.server.poll loop.store (loop.line.clearWritten.load sent) = polled)
    (hresult : polled.result = .ok count) (hwritten : polled.link.outbox.written = answered)
    (hconclude : (conclude controller answered).1 = settlement) :
    loop.carry controller sent = (⟨sent, answered, settlement⟩,
      ⟨(conclude controller answered).2, polled.server, polled.device, polled.link⟩) := by
  rw [carry, hpoll]
  dsimp only
  rw [hresult, hwritten, hconclude]

/-- A request goes to the station and back as it does without a bus. -/
lemma carry_eq_obeyRequest (h : loop.Ready mode station) (request : Request)
    {controller : Controller} (hmode : controller.mode = mode)
    (hexchange : controller.exchange? = some (.start request.kind mode)) :
    ∃ next : Loop, loop.carry controller ((Frame.request request).encode mode).bytes
        = ((obeyRequest mode station loop.store request).1, next) ∧
      next.Ready mode station ∧
      next.store = (obeyRequest mode station loop.store request).2 := by
  have hlimit : (loop.line.clearWritten.load
      ((Frame.request request).encode mode).bytes).outbox.limit? = none := h.limit_eq
  have hpoll := Server.poll_request station mode loop.store request hlimit rfl
  rw [← h.server_eq] at hpoll
  rw [obeyRequest]
  by_cases hstation : request.station = station
  · rw [if_pos hstation] at hpoll ⊢
    obtain ⟨hlastMode, hlast⟩ := conclude_idle controller (loop.store.answer mode request)
    exact ⟨_, carry_of_poll hpoll rfl rfl (conclude_answer loop.store request hexchange),
      ⟨hlastMode.trans hmode, hlast, h.server_eq, hlimit⟩, rfl⟩
  · rw [if_neg hstation] at hpoll ⊢
    obtain ⟨hlastMode, hlast⟩ := conclude_idle controller []
    exact ⟨_, carry_of_poll hpoll rfl rfl (conclude_nil hexchange),
      ⟨hlastMode.trans hmode, hlast, h.server_eq, hlimit⟩, rfl⟩

/-- **One order over the bus comes to what it comes to on the store**, and leaves nothing behind. -/
theorem exchange_eq_obey (h : loop.Ready mode station) (order : Order) :
    ∃ next : Loop, loop.exchange order = ((obey mode station loop.store order).1, next) ∧
      next.Ready mode station ∧ next.store = (obey mode station loop.store order).2 := by
  have horder := Controller.order_of_idle h.exchange_eq order
  rw [h.mode_eq] at horder
  rw [obey_eq, exchange, horder]
  cases hcheck : order.check with
  | error fault => exact ⟨loop, rfl, h, rfl⟩
  | ok request =>
      exact carry_eq_obeyRequest h request rfl rfl

/-- **A loop comes to what its orders say.**  Whatever the orders are, each has the outcome and the
bytes that it has on the store alone, and the store is the same in the end. -/
theorem run_eq_obeyAll (mode : CheckMode) (station : Station) (store : ParameterStore)
    {line : Line} (hline : line.outbox.limit? = none) (orders : List Order) :
    ((Loop.mk (.new mode) (.new station mode) store line).run orders).1
        = (obeyAll mode station store orders).1 ∧
      ((Loop.mk (.new mode) (.new station mode) store line).run orders).2.store
        = (obeyAll mode station store orders).2 := by
  have hrun : ∀ (orders : List Order) (loop : Loop), loop.Ready mode station →
      (loop.run orders).1 = (obeyAll mode station loop.store orders).1 ∧
        (loop.run orders).2.store = (obeyAll mode station loop.store orders).2 := by
    intro orders
    induction orders with
    | nil =>
        intro loop _
        exact ⟨rfl, rfl⟩
    | cons order rest ih =>
        intro loop hready
        obtain ⟨next, hexchange, hnext, hstore⟩ := exchange_eq_obey hready order
        have hrest := ih next hnext
        rw [hstore] at hrest
        simp only [run, obeyAll, hexchange]
        exact ⟨by rw [hrest.1], hrest.2⟩
  exact hrun orders _ ⟨rfl, rfl, rfl, hline⟩

/-- A write, a read of what was written, a write of a parameter that is not there, a number out of
range, and a station that is not there. -/
theorem run_eq_obeyAll_on_empty_line :
    ((Loop.mk (.new .plain) (.new ⟨12, by decide⟩ .plain)
        (ParameterStore.empty.add ⟨5, by decide⟩ 1) .empty).run
        [.write 12 5 (-1234), .read 12 5, .write 12 6 1, .read 12 1000, .read 13 5]).1.map
          Transaction.settlement
      = [.ended (.done .written), .ended (.done (.value ⟨-1234, by decide, by decide⟩)),
          .ended (.refused .invalidParameter), .declined .invalidParameter, .unanswered] := by
  rw [(run_eq_obeyAll .plain ⟨12, by decide⟩ (ParameterStore.empty.add ⟨5, by decide⟩ 1)
    (show Line.empty.outbox.limit? = none from rfl) _).1]
  decide +kernel

end Loop

end FieldBus
