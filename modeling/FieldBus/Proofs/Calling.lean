import FieldBus.Client
import FieldBus.Proofs.Blame
import FieldBus.Proofs.Independence
import FieldBus.Proofs.Recording

/-!
# What a client leaves behind

A call of a client has many ends.  A number may be out of range; the link may take only part of the
request, or fail to send it, or fail to be read; the time may be over, and the answer may be good, a
refusal or broken.  Behind each of them the controller must be free for the next call, or that would
find it busy.

It always is (**`Client.state_follows_calls`**): whatever calls were made, over whatever links and
with whatever time limits, the client has nothing under way, and what it remembers of the last
exchange and of the last refusal is what its calls gave.  And a call does with its link what its
request needs, and no more.

* `Link.Reads` — what successive reads of a link give.
* `Client.Settles`, **`Client.exists_await`** — how waiting for an answer ends, and that it does.
* `Client.Conversed` — what a client does with a link for one request.
* `Client.perform` — the three calls as one.  `Client.perform_of_idle` says what it comes to.
* `Client.timeLimit` — the time limit that a log leaves.
* `Client.Accords`, `Client.Keeps` — one call, and a history of calls.
-/

namespace FieldBus

namespace Link

variable {L : Type} [Link L]

/-- Reading gives these results, one after the other, and leads from the one link to the other. -/
inductive Reads : L → List (Option Bytes) → L → Prop
  | nil (link : L) : Reads link [] link
  | cons {link mid last : L} {bytes? : Option Bytes} {rest : List (Option Bytes)}
      (hread : Link.read link readLimit = (bytes?, mid)) (hrest : Reads mid rest last) :
      Reads link (bytes? :: rest) last

lemma Reads.singleton {link next : L} {bytes? : Option Bytes}
    (hread : Link.read link readLimit = (bytes?, next)) : Reads link [bytes?] next :=
  .cons hread (.nil next)

/-- Reading writes nothing. -/
lemma Reads.written_tapped {tapped next : Tapped L} {reads : List (Option Bytes)}
    (h : Reads tapped reads next) : next.tap.written = tapped.tap.written := by
  induction h with
  | nil tapped => rfl
  | @cons tapped mid last bytes? rest hread hrest ih =>
      obtain ⟨-, rfl⟩ := Prod.mk.inj hread
      exact ih.trans (tapped.tap.written_read _)

end Link

/-- The outcome of an exchange that ends with this fault.  Faults of numbers and of the link come
before or without the end of one. -/
def Fault.outcome? : Fault → Option Outcome
  | framing => some .broken
  | checksum => some .broken
  | invalidDigit => some .broken
  | overflow => some .broken
  | timedOut => some .timedOut
  | rejected => some .refused
  | invalidAddress => none
  | invalidParameter => none
  | valueOutOfRange => none
  | transport => none
  | sequence => none

lemma Fault.outcome?_of_breaksFrame {fault : Fault} (h : fault.breaksFrame = true) :
    fault.outcome? = some .broken := by
  cases fault <;> first | rfl | cases h

/-- An exchange of this kind can end so: what it completes is of the kind, and what breaks it is a
fault of frames. -/
def Ending.IsFor (kind : Kind) : Ending → Prop
  | done completion => completion.kind = kind
  | refused _ => True
  | broken fault => fault.breaksFrame = true

lemma Kind.isFor_closing {kind : Kind} {mode : CheckMode} {bytes : Bytes} {report : Report}
    (h : ((Receiver.start .replies mode).feed bytes).report? = some report) :
    (kind.closing report).IsFor kind := by
  cases hending : kind.closing report with
  | done completion => exact Kind.kind_of_closing hending
  | refused why => trivial
  | broken fault =>
      cases report with
      | defect defect =>
          obtain rfl : defect.fault = fault := by cases kind <;> cases hending <;> rfl
          have hfollows : (Receiver.start .replies mode).Follows .replies mode [] :=
            Receiver.follows_start
          exact hfollows.breaksFrame_of_defect h
      | frame frame =>
          obtain rfl : fault = .framing := by
            cases frame with
            | request request => cases kind <;> cases hending <;> rfl
            | reply reply => cases reply <;> cases kind <;> cases hending <;> rfl
          rfl

/-- The kind of request that an order comes to. -/
def Order.kind : Order → Kind
  | read .. => .read
  | write .. => .write
  | select _ => .select

/-- An order comes to a request of its kind, or one of its numbers is out of range. -/
lemma Order.check_cases (order : Order) :
    match order.check with
    | .ok request => request.kind = order.kind
    | .error fault =>
      fault = .invalidAddress ∨ fault = .invalidParameter ∨ fault = .valueOutOfRange := by
  cases order with
  | read a p =>
      simp only [check, Station.ofInt, Parameter.ofInt]
      split_ifs <;> first | exact rfl | exact .inl rfl | exact .inr (.inl rfl)
  | write a p v =>
      simp only [check, Station.ofInt, Parameter.ofInt, Value.ofInt]
      split_ifs <;>
        first | exact rfl | exact .inl rfl | exact .inr (.inl rfl) | exact .inr (.inr rfl)
  | select a =>
      simp only [check, Station.ofInt]
      split_ifs <;> first | exact rfl | exact .inl rfl

namespace Client

variable {L : Type} [EndingLink L] {kind : Kind} {mode : CheckMode} {impatient : Bool}
  {controller : Controller} {exchange : Exchange} {heard : Bytes} {link next : L}

/-- How waiting for an answer ends of which this much has been heard and brought no report, with
what the last read gives: reading fails, the answer is complete, or the time is over. -/
inductive Settles (kind : Kind) (mode : CheckMode) (impatient : Bool) (heard : Bytes) :
    Option Bytes → Except Fault Ending → Prop
  | failed : Settles kind mode impatient heard none (.error .transport)
  | answered {chunk : Bytes} {report : Report}
      (hreport : ((Receiver.start .replies mode).feed (heard ++ chunk)).report? = some report) :
      Settles kind mode impatient heard (some chunk) (.ok (kind.closing report))
  | timedOut {chunk : Bytes} (himpatient : impatient = true)
      (hnone : ((Receiver.start .replies mode).feed (heard ++ chunk)).report? = none) :
      Settles kind mode impatient heard (some chunk) (.error .timedOut)

/-- The outcome that waiting gives the exchange, if it ends so. -/
def outcomeOf? : Except Fault Ending → Option Outcome
  | .ok ending => some ending.outcome
  | .error .timedOut => some .timedOut
  | .error _ => none

/-- The controller behind waiting that ended so. -/
def settled (controller : Controller) (result : Except Fault Ending) : Controller :=
  ⟨controller.mode, none, (outcomeOf? result).or controller.outcome?⟩

/-- **Waiting for an answer** takes a bounded number of reads and settles with the last, whatever
the link gives.  An impatient client reads once. -/
theorem exists_await (impatient : Bool) (link : L)
    (hexchange : controller.exchange? = some exchange)
    (htaken : exchange.HasTaken kind mode heard) :
    ∃ before last result next,
      await impatient controller link = (result, settled controller result, next) ∧
      Link.Reads link (before.map some ++ [last]) next ∧
      before.length ≤ EndingLink.reads link ∧
      (impatient = true → before = []) ∧
      ((Receiver.start .replies mode).feed (heard ++ before.flatten)).report? = none ∧
      Settles kind mode impatient (heard ++ before.flatten) last result := by
  -- one case for each way through the loop; the last goes round with the chunk as heard
  fun_induction await impatient controller link generalizing exchange heard with
  | case1 controller link next hread =>
      exact ⟨[], none, _, next, rfl, .singleton hread, Nat.zero_le _, fun _ => rfl,
        by simpa using htaken.replies.report?_eq_none, .failed⟩
  | case2 controller link bytes next hread fault after hfeed =>
      rcases Controller.feed_of_hasTaken hexchange htaken bytes with
        ⟨report, -, hsettled⟩ | ⟨-, waiting, -, hwaits⟩
      · cases hfeed.symm.trans hsettled
      · cases hfeed.symm.trans hwaits
  | case3 controller link bytes next hread ending after hfeed =>
      rcases Controller.feed_of_hasTaken hexchange htaken bytes with
        ⟨report, hreport, hsettled⟩ | ⟨-, waiting, -, hwaits⟩
      · cases hfeed.symm.trans hsettled
        refine ⟨[], some bytes, _, next, rfl, .singleton hread, Nat.zero_le _, fun _ => rfl,
          by simpa using htaken.replies.report?_eq_none, ?_⟩
        rw [List.flatten_nil, List.append_nil]
        exact .answered hreport
      · cases hfeed.symm.trans hwaits
  | case4 controller link bytes next hread after hfeed himpatient =>
      rcases Controller.feed_of_hasTaken hexchange htaken bytes with
        ⟨report, -, hsettled⟩ | ⟨hnone, waiting, -, hwaits⟩
      · cases hfeed.symm.trans hsettled
      · cases hfeed.symm.trans hwaits
        refine ⟨[], some bytes, _, next, rfl, .singleton hread, Nat.zero_le _, fun _ => rfl,
          by simpa using htaken.replies.report?_eq_none, ?_⟩
        rw [List.flatten_nil, List.append_nil]
        exact .timedOut himpatient hnone
  | case5 controller link bytes next hread after hfeed hpatient hless ih =>
      rcases Controller.feed_of_hasTaken hexchange htaken bytes with
        ⟨report, -, hsettled⟩ | ⟨-, waiting, hwaiting, hwaits⟩
      · cases hfeed.symm.trans hsettled
      · cases hfeed.symm.trans hwaits
        obtain ⟨before, last, result, final, hawait, hreads, hlength, -, hnone, hsettles⟩ :=
          ih rfl hwaiting
        refine ⟨bytes :: before, last, result, final, hawait, .cons hread hreads, ?_, ?_, ?_, ?_⟩
        · exact Nat.lt_of_le_of_lt hlength hless
        · exact fun himpatient => absurd himpatient hpatient
        · rwa [List.flatten_cons, ← List.append_assoc]
        · rwa [List.flatten_cons, ← List.append_assoc]

/-! ## One request over a link -/

/-- What a client does with a link for one request, and how that ends.  It writes the request once.
It sends that on its way if the link took all of it, and it reads if that went well. -/
inductive Conversed (kind : Kind) (mode : CheckMode) (impatient : Bool) (message : Bytes)
    (link : L) : Except Fault Ending → L → Prop
  | cut {taken? : Option Nat} {written : L} (hwrite : Link.write link message = (taken?, written))
      (hcut : taken? ≠ some message.length) :
      Conversed kind mode impatient message link (.error .transport) written
  | stuck {written next : L} (hwrite : Link.write link message = (some message.length, written))
      (hflush : Link.flush written = (false, next)) :
      Conversed kind mode impatient message link (.error .transport) next
  | sent {written sent next : L} {before : List Bytes} {last : Option Bytes}
      {answer : Except Fault Ending}
      (hwrite : Link.write link message = (some message.length, written))
      (hflush : Link.flush written = (true, sent))
      (hreads : Link.Reads sent (before.map some ++ [last]) next)
      (hlength : before.length ≤ EndingLink.reads sent) (honce : impatient = true → before = [])
      (hsilent : ((Receiver.start .replies mode).feed before.flatten).report? = none)
      (hsettles : Settles kind mode impatient before.flatten last answer) :
      Conversed kind mode impatient message link answer next

/-- An answer ends waiting, or waiting ends without one. -/
lemma Conversed.cases {message : Bytes} {answer : Except Fault Ending}
    (h : Conversed kind mode impatient message link answer next) :
    answer = .error .transport ∨ answer = .error .timedOut ∨
      ∃ ending, ending.IsFor kind ∧ answer = .ok ending := by
  cases h with
  | cut hwrite hcut => exact .inl rfl
  | stuck hwrite hflush => exact .inl rfl
  | sent hwrite hflush hreads hlength honce hsilent hsettles =>
      cases hsettles with
      | failed => exact .inl rfl
      | answered hreport => exact .inr (.inr ⟨_, Kind.isFor_closing hreport, rfl⟩)
      | timedOut himpatient hnone => exact .inr (.inl rfl)

/-- What a link shows of a request if it is tapped: it has written as much of it as it took, and
nothing was read unless it took and sent all of it. -/
lemma Conversed.tapped {message : Bytes} {tapped after : Tapped L} {answer : Except Fault Ending}
    (h : Conversed kind mode impatient message tapped answer after) :
    after.tap.written
        = tapped.tap.written ++ message.take ((Link.write tapped.link message).1.getD 0) ∧
      ((Link.send tapped.link message).1 = false → after.tap.taken = tapped.tap.taken) := by
  cases h with
  | cut hwrite hcut =>
      obtain ⟨htaken, rfl⟩ := Prod.mk.inj hwrite
      exact ⟨rfl, fun _ => rfl⟩
  | stuck hwrite hflush =>
      obtain ⟨htaken, rfl⟩ := Prod.mk.inj hwrite
      obtain ⟨-, rfl⟩ := Prod.mk.inj hflush
      exact ⟨rfl, fun _ => rfl⟩
  | sent hwrite hflush hreads hlength honce hsilent hsettles =>
      obtain ⟨htaken, rfl⟩ := Prod.mk.inj hwrite
      obtain ⟨hdone, rfl⟩ := Prod.mk.inj hflush
      have hsent : (Link.send tapped.link message).1 = true := by
        rw [Link.send]
        exact (congrArg Prod.fst (if_pos htaken)).trans hdone
      refine ⟨hreads.written_tapped, fun hsend => ?_⟩
      rw [hsent] at hsend
      cases hsend

/-- The reason of the refusal that came as the answer. -/
def refusalIn? : Except Fault Ending → Option Refusal
  | .ok (.refused why) => some why
  | _ => none

variable {client : Client}

/-- **What a client does with an order** when its controller is idle.  An order whose numbers are
out of range does not get to the link; any other is carried over it as a request. -/
theorem call_of_idle (hidle : client.controller.exchange? = none) (order : Order) (link : L) :
    match order.check with
    | .error fault =>
      client.call order link = ⟨.error fault, { client with refusal? := none }, link⟩
    | .ok request => ∃ answer next,
        Conversed request.kind client.controller.mode (decide (client.timeout ≤ 0))
          ((Frame.request request).encode client.controller.mode).bytes link answer next ∧
        client.call order link = ⟨answer >>= conclude,
          { client with
            controller := settled client.controller answer
            refusal? := refusalIn? answer }, next⟩ := by
  rw [call, Controller.order_of_idle hidle]
  cases order.check with
  | error fault => rfl
  | ok request =>
      dsimp only
      generalize hmessage : ((Frame.request request).encode client.controller.mode).bytes = message
      rcases hwrite : Link.write link message with ⟨taken?, written⟩
      rw [Link.send, hwrite]
      dsimp only
      by_cases htaken : taken? = some message.length
      · subst htaken
        rw [if_pos rfl]
        rcases hflush : Link.flush written with ⟨_ | _, sent⟩
        · exact ⟨_, _, .stuck hwrite hflush, rfl⟩
        · let started : Controller := { client.controller with
            exchange? := some (.start request.kind client.controller.mode) }
          have hstarted : started.exchange? = some (.start request.kind client.controller.mode) :=
            rfl
          obtain ⟨before, last, answer, next, hawait, hreads, hlength, honce, hsilent, hsettles⟩ :=
            exists_await client.isImpatient sent hstarted (Exchange.hasTaken_start _ _)
          refine ⟨answer, next, .sent hwrite hflush hreads hlength honce hsilent hsettles, ?_⟩
          dsimp only
          rw [hawait]
          rcases answer with fault | completion | why | fault <;> rfl
      · rw [if_neg htaken]
        exact ⟨_, _, .cut hwrite htaken, rfl⟩

/-! ## The three calls as one -/

/-- Carries out an order with the call that is made for it.  A read gives a value. -/
def perform (client : Client) (order : Order) (link : L) : Called (Option Value) L :=
  match order with
  | .read station parameter =>
    let called := client.read station parameter link
    ⟨called.result.map some, called.client, called.link⟩
  | .write station parameter value =>
    let called := client.write station parameter value link
    ⟨called.result.map fun _ => none, called.client, called.link⟩
  | .select station =>
    let called := client.select station link
    ⟨called.result.map fun _ => none, called.client, called.link⟩

/-- What a call gives whose request came to this. -/
def resultOf : Except Fault Ending → Except Fault (Option Value)
  | .ok (.done (.value value)) => .ok (some value)
  | .ok (.done _) => .ok none
  | .ok (.refused _) => .error .rejected
  | .ok (.broken fault) => .error fault
  | .error fault => .error fault

/-- A call gives what came of its request: no completion is of the wrong kind for it. -/
lemma perform_of_call {order : Order} {called : Called Completion L} {answer : Except Fault Ending}
    (hcall : client.call order link = called) (hresult : called.result = answer >>= conclude)
    (hfits : ∀ ending, answer = .ok ending → ending.IsFor order.kind) :
    client.perform order link = ⟨resultOf answer, called.client, called.link⟩ := by
  have hcompletion : ∀ completion, answer = .ok (.done completion) → completion.kind = order.kind :=
    fun completion hanswer => hfits _ hanswer
  cases order with
  | read station parameter =>
      rw [perform, read, hcall, hresult]
      rcases answer with fault | ⟨⟨value⟩ | _ | _⟩ | why | fault
      case ok.done.written => cases hcompletion _ rfl
      case ok.done.selected => cases hcompletion _ rfl
      all_goals rfl
  | write station parameter value =>
      rw [perform, write, hcall, hresult]
      rcases answer with fault | ⟨⟨value⟩ | _ | _⟩ | why | fault
      case ok.done.value => cases hcompletion _ rfl
      all_goals rfl
  | select station =>
      rw [perform, select, hcall, hresult]
      rcases answer with fault | ⟨⟨value⟩ | _ | _⟩ | why | fault
      case ok.done.value => cases hcompletion _ rfl
      all_goals rfl

/-- **What a client does with an order**, with the call that is made for it. -/
theorem perform_of_idle (hidle : client.controller.exchange? = none) (order : Order) (link : L) :
    match order.check with
    | .error fault =>
      client.perform order link = ⟨.error fault, { client with refusal? := none }, link⟩
    | .ok request => ∃ answer next,
        Conversed request.kind client.controller.mode (decide (client.timeout ≤ 0))
          ((Frame.request request).encode client.controller.mode).bytes link answer next ∧
        client.perform order link = ⟨resultOf answer,
          { client with
            controller := settled client.controller answer
            refusal? := refusalIn? answer }, next⟩ := by
  have hcall := call_of_idle hidle order link
  cases hcheck : order.check with
  | error fault =>
      rw [hcheck] at hcall
      have hnone : (.error fault : Except Fault Completion)
          = (.error fault : Except Fault Ending) >>= conclude := rfl
      exact perform_of_call hcall hnone fun ending hending => nomatch hending
  | ok request =>
      rw [hcheck] at hcall
      obtain ⟨answer, next, hconversed, hcall⟩ := hcall
      have hkind := order.check_cases
      rw [hcheck] at hkind
      refine ⟨answer, next, hconversed, perform_of_call hcall rfl fun ending hending => ?_⟩
      rw [← hkind]
      rcases hconversed.cases with hanswer | hanswer | ⟨other, hfits, hanswer⟩
      · cases hending.symm.trans hanswer
      · cases hending.symm.trans hanswer
      · cases hending.symm.trans hanswer
        exact hfits

/-! ## One call after the other -/

/-- What can be done with a client.  Each order comes with the link that it finds. -/
inductive Operation (L : Type) where
  | order (order : Order) (link : L)
  | setTimeout (timeout : Int)

/-- What a log has of an operation: of a call its result, and the reason of a refusal that the
client knows behind it. -/
inductive Entry where
  | called (order : Order) (result : Except Fault (Option Value)) (refusal? : Option Refusal)
  | timeoutSet (timeout : Int)

/-- Does something with a client. -/
def operate (client : Client) : Operation L → Entry × Client
  | .order order link =>
    let called := client.perform order link
    (.called order called.result called.client.refusal?, called.client)
  | .setTimeout timeout => (.timeoutSet timeout, client.setTimeout timeout)

/-- What a call gave. -/
def Entry.result? : Entry → Option (Except Fault (Option Value))
  | called _ result _ => some result
  | timeoutSet _ => none

/-- What a call left known of a refusal. -/
def Entry.reason? : Entry → Option (Option Refusal)
  | called _ _ refusal? => some refusal?
  | timeoutSet _ => none

def Entry.timeout? : Entry → Option Int
  | called .. => none
  | timeoutSet timeout => some timeout

/-- The time limit behind a log: the last that was set, or the one at the beginning. -/
def timeLimit (timeout : Int) (log : List Entry) : Int :=
  ((log.filterMap Entry.timeout?).getLast?).getD timeout

/-- The outcome that a result gives the exchange, if there was one. -/
def outcomeIn? : Except Fault (Option Value) → Option Outcome
  | .ok _ => some .completed
  | .error fault => fault.outcome?

/-- The outcome that a call gave the exchange. -/
def Entry.outcome? (entry : Entry) : Option Outcome := entry.result?.bind outcomeIn?

/-- What a call has come to: the client behind it knows exactly what the result says. -/
structure Accords (client : Client) (called : Called (Option Value) L) : Prop where
  mode_eq : called.client.controller.mode = client.controller.mode
  timeout_eq : called.client.timeout = client.timeout
  idle : called.client.controller.exchange? = none
  outcome_eq : called.client.controller.outcome?
    = (outcomeIn? called.result).or client.controller.outcome?
  refusal_iff : called.client.refusal?.isSome = true ↔ called.result = .error .rejected
  in_turn : called.result ≠ .error .sequence

/-- A client that is idle is so behind every call. -/
theorem accords_perform (hidle : client.controller.exchange? = none) (order : Order) (link : L) :
    Accords client (client.perform order link) := by
  have hperform := perform_of_idle hidle order link
  have hcheck := order.check_cases
  cases hchecked : order.check with
  | error fault =>
      rw [hchecked] at hperform hcheck
      rw [hperform]
      rcases hcheck with rfl | rfl | rfl <;> exact ⟨rfl, rfl, hidle, rfl, by simp, by simp⟩
  | ok request =>
      rw [hchecked] at hperform
      obtain ⟨answer, next, hconversed, hperform⟩ := hperform
      rw [hperform]
      rcases hconversed.cases with rfl | rfl | ⟨ending, hfits, rfl⟩
      · exact ⟨rfl, rfl, rfl, rfl, by simp [refusalIn?, resultOf], by simp [resultOf]⟩
      · exact ⟨rfl, rfl, rfl, rfl, by simp [refusalIn?, resultOf], by simp [resultOf]⟩
      · cases ending with
        | done completion =>
            cases completion <;>
              exact ⟨rfl, rfl, rfl, rfl, by simp [refusalIn?, resultOf], by simp [resultOf]⟩
        | refused why =>
            exact ⟨rfl, rfl, rfl, rfl, by simp [refusalIn?, resultOf], by simp [resultOf]⟩
        | broken fault =>
            -- the fault of a frame is neither that of a refusal nor that of a busy controller
            refine ⟨rfl, rfl, rfl, ?_, ?_, ?_⟩
            · rw [resultOf, outcomeIn?, Fault.outcome?_of_breaksFrame hfits]
              rfl
            · refine iff_of_false Bool.false_ne_true ?_
              rintro ⟨⟩
              cases hfits
            · rintro ⟨⟩
              cases hfits

/-- The log and the client belong together: nothing is under way, the time limit is the last that
was set, and what the client knows of the last exchange and of the last refusal is what its calls
gave. -/
structure Keeps (mode : CheckMode) (timeout : Int) (log : List Entry) (client : Client) : Prop where
  mode_eq : client.controller.mode = mode
  timeout_eq : client.timeout = timeLimit timeout log
  idle : client.controller.exchange? = none
  outcome_eq : client.controller.outcome? = (log.filterMap Entry.outcome?).getLast?
  refusal_eq : client.refusal? = ((log.filterMap Entry.reason?).getLast?).getD none
  refusal_iff : client.refusal?.isSome = true ↔
    (log.filterMap Entry.result?).getLast? = some (.error .rejected)
  in_turn : .error .sequence ∉ log.filterMap Entry.result?

namespace Keeps

variable {timeout : Int} {log : List Entry}

lemma start (mode : CheckMode) (timeout : Int) : Keeps mode timeout [] (new mode timeout) where
  mode_eq := rfl
  timeout_eq := rfl
  idle := rfl
  outcome_eq := rfl
  refusal_eq := rfl
  refusal_iff := by simp [new]
  in_turn := by simp

/-- **The tie between the log and the client is kept.** -/
lemma operate (h : Keeps mode timeout log client) (operation : Operation L) :
    Keeps mode timeout (log ++ [(client.operate operation).1]) (client.operate operation).2 := by
  cases operation with
  | setTimeout limit =>
      refine ⟨h.mode_eq, ?_, h.idle, ?_, ?_, ?_, ?_⟩
      · rw [timeLimit, History.getLast?_filterMap_concat]
        rfl
      · rw [History.getLast?_filterMap_concat, ← h.outcome_eq]
        rfl
      · rw [History.getLast?_filterMap_concat]
        exact h.refusal_eq
      · rw [History.getLast?_filterMap_concat]
        exact h.refusal_iff
      · rw [List.filterMap_append, List.mem_append]
        rintro (hmem | hmem)
        · exact h.in_turn hmem
        · cases hmem
  | order order link =>
      have haccords := accords_perform h.idle order link
      refine ⟨haccords.mode_eq.trans h.mode_eq, ?_, haccords.idle, ?_, ?_, ?_, ?_⟩
      · rw [timeLimit, History.getLast?_filterMap_concat]
        exact haccords.timeout_eq.trans h.timeout_eq
      · rw [History.getLast?_filterMap_concat, ← h.outcome_eq]
        exact haccords.outcome_eq
      · rw [History.getLast?_filterMap_concat]
        rfl
      · rw [History.getLast?_filterMap_concat]
        refine haccords.refusal_iff.trans ?_
        exact Option.some_inj.symm
      · rw [List.filterMap_append, List.mem_append]
        rintro (hmem | hmem)
        · exact h.in_turn hmem
        · exact haccords.in_turn (List.mem_singleton.mp hmem).symm

/-- What the next call gives is what its request came to over its link. -/
lemma perform (h : Keeps mode timeout log client) (order : Order) (link : L) :
    let called := client.perform order link
    match order.check with
    | .error fault =>
      called.result = .error fault ∧ called.client.refusal? = none ∧ called.link = link
    | .ok request => ∃ answer,
        Conversed request.kind mode (decide (timeLimit timeout log ≤ 0))
          ((Frame.request request).encode mode).bytes link answer called.link ∧
        called.result = resultOf answer ∧ called.client.refusal? = refusalIn? answer := by
  have hperform := perform_of_idle h.idle order link
  cases hcheck : order.check with
  | error fault =>
      rw [hcheck] at hperform
      rw [hperform]
      exact ⟨rfl, rfl, rfl⟩
  | ok request =>
      rw [hcheck, h.mode_eq, h.timeout_eq] at hperform
      obtain ⟨answer, next, hconversed, hperform⟩ := hperform
      rw [hperform]
      exact ⟨answer, hconversed, rfl, rfl⟩

end Keeps

/-- Behind every run the log and the client belong together. -/
lemma keeps_run (mode : CheckMode) (timeout : Int) (operations : List (Operation L)) :
    Keeps mode timeout (History.run operate (new mode timeout) operations).1
      (History.run operate (new mode timeout) operations).2 := by
  refine History.run_invariant operate (Keeps mode timeout) (.start mode timeout) ?_ operations
  intro log mid operation hkeeps
  exact hkeeps.operate operation

/-- **A client follows its calls.**  Whatever calls it has made, it has nothing under way, and no
call has found it busy.  A refusal is known exactly if the last call was refused, with the reason
that was known behind that call, and the outcome is the last that a call gave an exchange.  If a
number of the next order is out of range, its link is not touched, and no refusal is known.
Otherwise the request is carried over the link, for as long as the last time limit that was set
allows, and the result and the reason of a refusal are those of the answer.  The link has then
written as much of the request as it took, and nothing was read unless it took and sent all of
it. -/
theorem state_follows_calls (mode : CheckMode) (timeout : Int) (operations : List (Operation L)) :
    let log := (History.run operate (new mode timeout) operations).1
    let client := (History.run operate (new mode timeout) operations).2
    client.controller.stage = .idle ∧
      .error .sequence ∉ log.filterMap Entry.result? ∧
      (client.refusal?.isSome = true ↔
        (log.filterMap Entry.result?).getLast? = some (.error .rejected)) ∧
      client.refusal? = ((log.filterMap Entry.reason?).getLast?).getD none ∧
      client.controller.outcome? = (log.filterMap Entry.outcome?).getLast? ∧
      (∀ order (link : L),
        let called := client.perform order link
        match order.check with
        | .error fault =>
          called.result = .error fault ∧ called.client.refusal? = none ∧ called.link = link
        | .ok request => ∃ answer,
            Conversed request.kind mode (decide (timeLimit timeout log ≤ 0))
              ((Frame.request request).encode mode).bytes link answer called.link ∧
            called.result = resultOf answer ∧ called.client.refusal? = refusalIn? answer) ∧
      ∀ order request (tapped : Tapped L), order.check = .ok request →
        let message := ((Frame.request request).encode mode).bytes
        let tap := (client.perform order tapped).link.tap
        tap.written
            = tapped.tap.written ++ message.take ((Link.write tapped.link message).1.getD 0) ∧
          ((Link.send tapped.link message).1 = false → tap.taken = tapped.tap.taken) := by
  intro log client
  have hkeeps : Keeps mode timeout log client := keeps_run mode timeout operations
  refine ⟨Controller.stage_eq_idle_iff.mpr hkeeps.idle, hkeeps.in_turn, hkeeps.refusal_iff,
    hkeeps.refusal_eq, hkeeps.outcome_eq, fun order link => hkeeps.perform order link, ?_⟩
  intro order request tapped hcheck
  have hperform := hkeeps.perform order tapped
  rw [hcheck] at hperform
  obtain ⟨answer, hconversed, -, -⟩ := hperform
  exact hconversed.tapped

end Client

end FieldBus
