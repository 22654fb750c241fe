import FieldBus.Proofs.Overhearing

/-!
# Every request is closed once

Bytes of the controller and of the stations come in any order, in pieces of any size, whole frames
and broken ones.  What a listener tells of them still has a simple form: a request, and then one
event that closes it, and then perhaps the next request (**`Monitor.hearEach_is_bracketed`**).  A
request is closed by a silence of its station, by an answer of its station that fits it, or by the
word that the answer of its station was broken.  Apart from this the listener tells only of broken
frames of the controller, and of bytes that no request asked for.

* `Monitor.Closes` — the events that close a request.
* `Monitor.Transaction` — a request and what closed it.
* `Monitor.Awaits` — the invariant: the listener waits exactly for what closes the open request.
* `Monitor.Turns` — what one call can do to the open request, and `Monitor.Awaits.hear`, that it
  does nothing else.
-/

namespace FieldBus

namespace Monitor

variable {monitor : Monitor} {open? : Option Request}

/-! ## Transactions -/

/-- The station of an event on the stations' side; what comes unasked has none. -/
def Answered.station? : Answered → Option Station
  | reply station _ => some station
  | broken station _ => some station
  | unasked => none

/-- Whether an event opens or closes a transaction.  A broken frame of the controller does not, and
neither does what comes unasked. -/
def Event.isPaired : Event → Bool
  | sent (.request _) => true
  | sent (.silence _) => true
  | sent (.defect _) => false
  | answered event => event.station?.isSome

/-- The events that close a request. -/
inductive Closes (request : Request) : Event → Prop
  | silence : Closes request (.sent (.silence request.station))
  | value (value : Value) (hkind : request.kind = .read) :
      Closes request (.answered (.reply request.station (.value value)))
  | ack (hkind : request.kind = .write ∨ request.kind = .select) :
      Closes request (.answered (.reply request.station .ack))
  | refused (why : Refusal) : Closes request (.answered (.reply request.station (.refused why)))
  | broken (fault : Fault) : Closes request (.answered (.broken request.station fault))

/-- A request and the event that closed it. -/
structure Transaction where
  request : Request
  closing : Event
  closes : Closes request closing

def Transaction.events (transaction : Transaction) : List Event :=
  [.sent (.request transaction.request), transaction.closing]

/-- The event that an open request has left. -/
def opening (open? : Option Request) : List Event :=
  (open?.map fun request => Event.sent (.request request)).toList

/-- The events of calls that open or close a transaction. -/
def paired (calls : List (Option Event × Nat)) : List Event :=
  (calls.filterMap Prod.fst).filter Event.isPaired

/-- Whatever is told of the first report behind a request closes it. -/
lemma closes_tells (request : Request) (report : Report) :
    Closes request (.answered ((Awaited.of request).tells report)) := by
  rcases report with (other | reply) | defect
  · exact .broken .framing
  · rcases reply with value | _ | why
    · cases request with
      | read station parameter => exact .value value rfl
      | _ => exact .broken .framing
    · cases request with
      | read station parameter => exact .broken .framing
      | write station parameter value => exact .ack (.inl rfl)
      | select station => exact .ack (.inr rfl)
    · exact .refused why
  · exact .broken defect.fault

/-- And it names the station that was asked. -/
lemma station?_tells (awaited : Awaited) (report : Report) :
    (awaited.tells report).station? = some awaited.station := by
  unfold Awaited.tells
  split
  · rfl
  · split <;> rfl

lemma Closes.isPaired {request : Request} {event : Event} (h : Closes request event) :
    event.isPaired = true := by
  cases h <;> rfl

/-! ## One call -/

/-- What a call can do to the open request: with its event it opens one where there was none, or
closes it; or its event, if there is one, belongs to no transaction. -/
inductive Turns : Option Request → Option Event → Option Request → Prop
  | stays {open? : Option Request} {event? : Option Event}
      (h : ∀ event, event? = some event → event.isPaired = false) : Turns open? event? open?
  | opens (request : Request) : Turns none (some (.sent (.request request))) (some request)
  | closes {request : Request} {event : Event} (h : Closes request event) :
      Turns (some request) (some event) none

/-- A call without an event leaves everything open that was open. -/
lemma Turns.silent (open? : Option Request) : Turns open? none open? :=
  .stays (by simp)

/-- The listener waits for the answer to the open request, and for nothing if there is none. -/
def Awaits (open? : Option Request) (monitor : Monitor) : Prop :=
  monitor.awaited? = open?.map Awaited.of

lemma Awaits.awaitedStation?_eq (h : monitor.Awaits open?) :
    monitor.awaitedStation? = open?.map Request.station := by
  rw [awaitedStation?, h, Option.map_map]
  rfl

lemma Awaits.eq_none (h : monitor.Awaits none) : monitor.awaited? = none := h

lemma Awaits.eq_some {request : Request} (h : monitor.Awaits (some request)) :
    monitor.awaited? = some (.of request) := h

lemma Awaits.hearController (h : monitor.Awaits open?) (bytes : Bytes) :
    ∃ next?, Turns open? (monitor.hear (.controller bytes)).event? next? ∧
      (monitor.hear (.controller bytes)).monitor.Awaits next? := by
  rw [hear]
  cases open? with
  | some request =>
      by_cases hne : bytes = []
      · rw [hne, hearController_nil]
        exact ⟨_, .silent _, h⟩
      · rw [hearController_of_awaited h.eq_some hne]
        exact ⟨none, .closes .silence, rfl⟩
  | none =>
      rw [hearController_of_quiet h.eq_none]
      cases hfound : (monitor.commands.seek sent? bytes).found? with
      | none => exact ⟨none, .silent _, h⟩
      | some event =>
          obtain ⟨report, hreport⟩ := Receiver.exists_of_found sent? hfound
          cases event with
          | request request => exact ⟨some request, .opens request, rfl⟩
          | silence station => exact absurd hreport sent?_ne_silence
          | defect defect => exact ⟨none, .stays (by rintro _ ⟨⟩; rfl), h⟩

lemma Awaits.hearNodes (h : monitor.Awaits open?) (bytes : Bytes) :
    ∃ next?, Turns open? (monitor.hear (.nodes bytes)).event? next? ∧
      (monitor.hear (.nodes bytes)).monitor.Awaits next? := by
  rw [hear]
  cases open? with
  | none =>
      by_cases hne : bytes = []
      · rw [hne, hearNodes_nil]
        exact ⟨_, .silent _, h⟩
      · rw [hearNodes_of_quiet h.eq_none hne]
        exact ⟨none, .stays (by rintro _ ⟨⟩; rfl), h⟩
  | some request =>
      rw [hearNodes_of_awaited h.eq_some]
      cases (monitor.replies.feed bytes).report? with
      | none => exact ⟨some request, .silent _, rfl⟩
      | some report => exact ⟨none, .closes (closes_tells request report), rfl⟩

/-- **A call opens a request, closes the open one, or leaves it open**, and the listener then waits
for what closes the request that is open. -/
lemma Awaits.hear (h : monitor.Awaits open?) (input : Input) :
    ∃ next?, Turns open? (monitor.hear input).event? next? ∧
      (monitor.hear input).monitor.Awaits next? := by
  cases input with
  | controller bytes => exact h.hearController bytes
  | nodes bytes => exact h.hearNodes bytes

/-! ## One call after the other -/

/-- Many calls make transactions, with the request that was open put in front. -/
lemma Awaits.hearEach (h : monitor.Awaits open?) (inputs : List Input) :
    ∃ (transactions : List Transaction) (last? : Option Request),
      opening open? ++ paired (monitor.hearEach inputs).1
        = transactions.flatMap Transaction.events ++ opening last? ∧
      (monitor.hearEach inputs).2.Awaits last? := by
  induction inputs generalizing monitor open? with
  | nil => exact ⟨[], open?, List.append_nil _, h⟩
  | cons input rest ih =>
      obtain ⟨next?, hturns, hnext⟩ := h.hear input
      obtain ⟨transactions, last?, hpaired, hlast⟩ := ih hnext
      have hcalls : paired (monitor.hearEach (input :: rest)).1
          = (monitor.hear input).event?.toList.filter Event.isPaired ++
            paired ((monitor.hear input).monitor.hearEach rest).1 := by
        rw [Monitor.hearEach, paired, paired, List.filterMap_cons]
        cases (monitor.hear input).event? with
        | none => rfl
        | some event => rw [← List.filter_append]; rfl
      rw [hcalls]
      -- what this call opens or closes goes in front of the transactions of the later calls
      generalize (monitor.hear input).event? = event? at hturns
      cases hturns with
      | stays hunpaired =>
          refine ⟨transactions, last?, ?_, hlast⟩
          rw [List.filter_eq_nil_iff.mpr (by simpa using hunpaired), List.nil_append, hpaired]
      | opens request => exact ⟨transactions, last?, hpaired, hlast⟩
      | @closes request event hcloses =>
          refine ⟨⟨request, event, hcloses⟩ :: transactions, last?, ?_, hlast⟩
          rw [List.flatMap_cons, List.append_assoc, ← hpaired, Option.toList_some,
            List.filter_cons_of_pos hcloses.isPaired]
          rfl

/-- **What a listener tells is well bracketed.**  Whatever it hears, the events that open and close
transactions are complete transactions one after the other, and then perhaps one request that is
still open.  The listener expects the station of that request, and no other.  It tells of unasked
bytes exactly if no request is open and the stations send any, and then takes all of them. -/
theorem hearEach_is_bracketed (mode : CheckMode) (inputs : List Input) :
    ∃ (transactions : List Transaction) (open? : Option Request),
      let heard := (new mode).hearEach inputs
      paired heard.1 = transactions.flatMap Transaction.events ++ opening open? ∧
        heard.2.awaitedStation? = open?.map Request.station ∧
        ∀ bytes,
          ((∃ event, (heard.2.hearNodes bytes).event? = some event ∧ event.station? = none) ↔
            bytes ≠ [] ∧ open? = none) ∧
          ∀ event, (heard.2.hearNodes bytes).event? = some event → event.station? = none →
            event = .unasked ∧ (heard.2.hearNodes bytes).taken = bytes.length := by
  have hstart : (new mode).Awaits none := rfl
  obtain ⟨transactions, open?, hpaired, hlast⟩ := hstart.hearEach inputs
  refine ⟨transactions, open?, hpaired, hlast.awaitedStation?_eq, fun bytes => ?_⟩
  cases open? with
  | none =>
      by_cases hne : bytes = []
      · rw [hne, hearNodes_nil]
        simp
      · rw [hearNodes_of_quiet hlast.eq_none hne]
        simp [hne, Answered.station?]
  | some request =>
      have htagged : ∀ event, (((new mode).hearEach inputs).2.hearNodes bytes).event? = some event →
          event.station? ≠ none := by
        rw [hearNodes_of_awaited hlast.eq_some]
        intro event hevent
        obtain ⟨report, -, rfl⟩ := Option.map_eq_some_iff.mp hevent
        rw [station?_tells]
        nofun
      refine ⟨⟨?_, nofun⟩, fun event hevent hunasked => absurd hunasked (htagged event hevent)⟩
      rintro ⟨event, hevent, hunasked⟩
      exact absurd hunasked (htagged event hevent)

end Monitor

end FieldBus
