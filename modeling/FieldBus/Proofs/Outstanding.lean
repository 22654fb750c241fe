import FieldBus.Controller
import FieldBus.Proofs.History

/-!
# What a controller has outstanding

A controller is asked for exchanges, fed bytes, told that time is over, and reset, in any order.
Whatever is done with it, it waits for an answer exactly while the last request that it took is
outstanding: no event, no end of the waiting and no reset has come behind it.  Everything that a
controller tells follows this (**`Controller.exchange_follows_log`**).  It completes only what is
outstanding and ends nothing twice, and the outcome that it remembers is that of the last exchange
that had one, which a reset does not.

* `Kind.closing` — how an exchange ends with the first report of its answer.
* `Errand`, `Controller.take` — asking for an exchange, with a request or with plain integers.
* `Controller.operate`, `Controller.Entry` — one call to a controller, and what the log has of it.
* `Controller.Outstanding` — the request that a log leaves outstanding.
* `Controller.Tracks` — the invariant: the exchange of the controller is of the kind of that
  request.
-/

namespace FieldBus

/-! ## How an answer ends an exchange -/

/-- How an exchange of this kind ends with the first report of its answer.  A refusal ends any
exchange.  Apart from this a value completes a read and an acknowledgement the other two, and a
frame that is none of these is as wrong as a broken one. -/
def Kind.closing : Kind → Report → Ending
  | _, .frame (.reply (.refused why)) => .refused why
  | .read, .frame (.reply (.value value)) => .done (.value value)
  | .write, .frame (.reply .ack) => .done .written
  | .select, .frame (.reply .ack) => .done .selected
  | _, .frame _ => .broken .framing
  | _, .defect defect => .broken defect.fault

lemma Kind.ending_judge (kind : Kind) (report : Report) :
    kind.ending (kind.judge report) = kind.closing report := by
  cases report with
  | defect defect => cases kind <;> rfl
  | frame frame =>
      cases frame with
      | request request => cases kind <;> rfl
      | reply reply => cases reply <;> cases kind <;> rfl

/-- The kind of request that this completes. -/
def Completion.kind : Completion → Kind
  | value _ => .read
  | written => .write
  | selected => .select

lemma Kind.kind_of_closing {kind : Kind} {report : Report} {completion : Completion}
    (h : kind.closing report = .done completion) : completion.kind = kind := by
  cases report with
  | defect defect => cases kind <;> cases h
  | frame frame =>
      cases frame with
      | request request => cases kind <;> cases h
      | reply reply => cases reply <;> cases kind <;> cases h <;> rfl

/-- What a controller waits for behind a request of this kind. -/
def Kind.stage : Kind → Controller.Stage
  | read => .awaitingAnswer
  | write => .awaitingAnswer
  | select => .awaitingSelect

/-! ## Asking for an exchange -/

/-- What a host wants done: a request, or an order with numbers that nobody has checked. -/
inductive Errand where
  | request (request : Request)
  | order (order : Order)
  deriving DecidableEq

/-- The request that an errand comes to. -/
def Errand.check : Errand → Except Fault Request
  | .request r => .ok r
  | .order o => o.check

namespace Controller

variable {controller : Controller} {bytes : Bytes}

/-- Begins an exchange for an errand. -/
def take (controller : Controller) : Errand → Except Fault Block × Controller
  | .request request => controller.start request
  | .order order => controller.order order

lemma isIdle_iff : controller.isIdle = true ↔ controller.exchange? = none := by
  rw [isIdle, Option.isNone_iff_eq_none]

lemma start_of_idle (hidle : controller.exchange? = none) (request : Request) :
    controller.start request
      = (.ok ((Frame.request request).encode controller.mode),
        { controller with exchange? := some (.start request.kind controller.mode) }) := by
  rw [start, if_pos (by rw [isIdle, hidle]; rfl)]

lemma order_of_idle (hidle : controller.exchange? = none) (order : Order) :
    controller.order order =
      match order.check with
      | .ok request =>
        (.ok ((Frame.request request).encode controller.mode),
          { controller with exchange? := some (.start request.kind controller.mode) })
      | .error fault => (.error fault, controller) := by
  rw [Controller.order, if_pos (by rw [isIdle, hidle]; rfl)]
  cases order.check with
  | error fault => rfl
  | ok request => exact start_of_idle hidle request

/-- A controller that has nothing under way takes every errand whose numbers are in range. -/
lemma take_of_idle (hidle : controller.exchange? = none) (errand : Errand) :
    controller.take errand =
      match errand.check with
      | .ok request =>
        (.ok ((Frame.request request).encode controller.mode),
          { controller with exchange? := some (.start request.kind controller.mode) })
      | .error fault => (.error fault, controller) := by
  cases errand with
  | request request => exact start_of_idle hidle request
  | order order => exact order_of_idle hidle order

lemma take_of_busy (hbusy : controller.isIdle = false) (errand : Errand) :
    controller.take errand = (.error .sequence, controller) := by
  cases errand with
  | request request => simp [take, start, hbusy]
  | order order => simp [take, Controller.order, hbusy]

/-! ## Waiting for the end -/

lemma feed_of_idle (hidle : controller.exchange? = none) (bytes : Bytes) :
    controller.feed bytes = (.error .sequence, controller) := by
  rw [feed, hidle]

/-- The first report of the answer ends the exchange. -/
lemma feed_of_exchange {exchange : Exchange} (hexchange : controller.exchange? = some exchange)
    (bytes : Bytes) :
    controller.feed bytes =
      match (exchange.replies.feed bytes).report? with
      | none =>
        (.ok none, { controller with
          exchange? := some { exchange with replies := (exchange.replies.feed bytes).receiver } })
      | some report =>
        (.ok (some (exchange.kind.closing report)), { controller with
          exchange? := none
          outcome? := some (exchange.kind.closing report).outcome }) := by
  simp only [feed, hexchange, Exchange.feed]
  cases (exchange.replies.feed bytes).report? with
  | none => rfl
  | some report => simp [Kind.ending_judge]

lemma feed_eq_error_iff :
    (controller.feed bytes).1 = .error .sequence ↔ controller.exchange? = none := by
  cases hexchange : controller.exchange? with
  | none => simp [feed_of_idle hexchange]
  | some exchange =>
      rw [feed_of_exchange hexchange]
      cases (exchange.replies.feed bytes).report? <;> simp

/-- Only an exchange of its kind is completed. -/
lemma exists_of_done {completion : Completion}
    (h : (controller.feed bytes).1 = .ok (some (.done completion))) :
    ∃ exchange, controller.exchange? = some exchange ∧ completion.kind = exchange.kind := by
  cases hexchange : controller.exchange? with
  | none =>
      rw [feed_of_idle hexchange] at h
      cases h
  | some exchange =>
      refine ⟨exchange, rfl, ?_⟩
      rw [feed_of_exchange hexchange] at h
      cases hreport : (exchange.replies.feed bytes).report? with
      | none =>
          rw [hreport] at h
          cases h
      | some report =>
          rw [hreport] at h
          exact Kind.kind_of_closing (Option.some.inj (Except.ok.inj h))

lemma expire_eq_true_iff : controller.expire.1 = true ↔ ¬ controller.exchange? = none := by
  rw [expire, ← isIdle_iff]
  cases controller.isIdle <;> simp

/-- The stage of a controller is a matter of the kind of its exchange. -/
lemma stage_eq (controller : Controller) :
    controller.stage = ((controller.exchange?.map Exchange.kind).map Kind.stage).getD .idle := by
  rw [stage]
  cases controller.exchange? with
  | none => rfl
  | some exchange => obtain ⟨kind, replies⟩ := exchange; cases kind <;> rfl

lemma stage_eq_idle_iff : controller.stage = .idle ↔ controller.exchange? = none := by
  rw [stage_eq]
  cases controller.exchange? with
  | none => simp
  | some exchange => obtain ⟨kind, replies⟩ := exchange; cases kind <;> simp [Kind.stage]

/-! ## The log -/

/-- What can be done with a controller. -/
inductive Operation where
  | take (errand : Errand)
  | feed (bytes : Bytes)
  | expire
  | reset
  deriving DecidableEq

/-- What a log has of an operation: the operation with its result. -/
inductive Entry where
  | taken (errand : Errand) (result : Except Fault Block)
  | fed (bytes : Bytes) (result : Except Fault (Option Ending))
  | expired (result : Bool)
  | reset

/-- Does something with a controller. -/
def operate (controller : Controller) : Operation → Entry × Controller
  | .take errand => (.taken errand (controller.take errand).1, (controller.take errand).2)
  | .feed bytes => (.fed bytes (controller.feed bytes).1, (controller.feed bytes).2)
  | .expire => (.expired controller.expire.1, controller.expire.2)
  | .reset => (.reset, controller.reset)

namespace Entry

/-- The request with which this began an exchange. -/
def begun? : Entry → Option Request
  | taken errand (.ok _) => errand.check.toOption
  | _ => none

/-- Whether this ends what is under way: an event, the end of the waiting, or a reset. -/
def isEnd : Entry → Bool
  | fed _ (.ok (some _)) => true
  | expired _ => true
  | reset => true
  | _ => false

/-- The outcome that this gives an exchange.  A reset gives none. -/
def outcome? : Entry → Option Outcome
  | fed _ (.ok (some (.done _))) => some .completed
  | fed _ (.ok (some (.refused _))) => some .refused
  | fed _ (.ok (some (.broken _))) => some .broken
  | expired true => some .timedOut
  | _ => none

lemma outcome?_fed (bytes : Bytes) (ending : Ending) :
    (fed bytes (.ok (some ending))).outcome? = some ending.outcome := by
  cases ending <;> rfl

end Entry

/-! ## One operation -/

/-- What an operation can do: it changes nothing that a log could tell, it begins an exchange, or it
ends what is under way.  An end that gives an outcome finds something under way. -/
inductive Turns (controller : Controller) (entry : Entry) (next : Controller) : Prop
  | stays (hbegun : entry.begun? = none) (hend : entry.isEnd = false)
      (houtcome : entry.outcome? = none)
      (hkind : next.exchange?.map Exchange.kind = controller.exchange?.map Exchange.kind)
      (hnext : next.outcome? = controller.outcome?)
  | begins (request : Request) (hbegun : entry.begun? = some request)
      (houtcome : entry.outcome? = none)
      (hkind : next.exchange?.map Exchange.kind = some request.kind)
      (hnext : next.outcome? = controller.outcome?)
  | ends (hbegun : entry.begun? = none) (hend : entry.isEnd = true)
      (hbusy : entry.outcome?.isSome = true → controller.exchange? ≠ none)
      (hover : next.exchange? = none)
      (hnext : next.outcome? = entry.outcome?.or controller.outcome?)

/-- **Every operation does one of these.** -/
theorem turns_operate (controller : Controller) (operation : Operation) :
    Turns controller (controller.operate operation).1 (controller.operate operation).2 := by
  cases operation with
  | take errand =>
      rw [operate]
      by_cases hidle : controller.exchange? = none
      · rw [take_of_idle hidle]
        cases hcheck : errand.check with
        | error fault => exact .stays rfl rfl rfl rfl rfl
        | ok request =>
            have hbegun : Entry.begun? (.taken errand (.ok
                ((Frame.request request).encode controller.mode))) = some request := by
              rw [Entry.begun?, hcheck]
              rfl
            exact .begins request hbegun rfl rfl rfl
      · rw [take_of_busy (Bool.eq_false_iff.mpr (mt isIdle_iff.mp hidle))]
        exact .stays rfl rfl rfl rfl rfl
  | feed bytes =>
      rw [operate]
      cases hexchange : controller.exchange? with
      | none =>
          rw [feed_of_idle hexchange]
          exact .stays rfl rfl rfl rfl rfl
      | some exchange =>
          rw [feed_of_exchange hexchange]
          cases (exchange.replies.feed bytes).report? with
          | none => exact .stays rfl rfl rfl (by rw [hexchange]; rfl) rfl
          | some report =>
              exact .ends rfl rfl (by simp [hexchange]) rfl (by rw [Entry.outcome?_fed]; rfl)
  | expire =>
      rw [operate, expire]
      by_cases hidle : controller.exchange? = none
      · rw [if_pos (isIdle_iff.mpr hidle)]
        exact .ends rfl rfl nofun hidle rfl
      · rw [if_neg (mt isIdle_iff.mp hidle)]
        exact .ends rfl rfl (fun _ => hidle) rfl rfl
  | reset => exact .ends rfl rfl nofun rfl rfl

/-! ## The log and the controller -/

/-- The request is the last one that was taken, and nothing has ended it since. -/
def Outstanding (log : List Entry) (request : Request) : Prop :=
  History.Since (fun entry => entry.begun? = some request)
    (fun entry => entry.begun? = none ∧ entry.isEnd = false) log

/-- Nothing is ended twice: behind an end, whatever tells of another was taken in between. -/
def EndsOnce (log : List Entry) : Prop :=
  ∀ before first between second after, log = before ++ first :: between ++ second :: after →
    first.isEnd = true → second.outcome?.isSome = true →
      ∃ entry ∈ between, entry.begun?.isSome = true

variable {log : List Entry} {entry : Entry} {open? : Option Request} {next : Controller}

/-- What is ended was taken behind the end before. -/
lemma EndsOnce.concat (h : EndsOnce log)
    (hlast : entry.outcome?.isSome = true → ∃ request, Outstanding log request) :
    EndsOnce (log ++ [entry]) := by
  intro before first between second after hlog hfirst hsecond
  rcases List.eq_nil_or_concat after with rfl | ⟨front, last, rfl⟩
  · obtain ⟨rfl, hentry⟩ := List.append_inj' hlog rfl
    obtain rfl := List.singleton_inj.mp hentry
    obtain ⟨request, hrequest⟩ := hlast hsecond
    have hbegun : ¬ first.begun? = some request := by
      cases first <;> simp [Entry.isEnd] at hfirst <;> simp [Entry.begun?]
    obtain ⟨begun, hmem, hbegun⟩ := hrequest.exists_mem_between hbegun (by simp [hfirst])
    exact ⟨begun, hmem, by rw [hbegun]; rfl⟩
  · rw [List.concat_eq_append, ← List.cons_append, ← List.append_assoc] at hlog
    obtain ⟨rfl, -⟩ := List.append_inj' hlog rfl
    exact h before first between second front rfl hfirst hsecond

/-- The log leaves this outstanding, and the controller has an exchange of that kind under way. -/
structure Tracks (log : List Entry) (open? : Option Request) (controller : Controller) : Prop where
  outstanding_iff : ∀ request, Outstanding log request ↔ open? = some request
  kind_eq : controller.exchange?.map Exchange.kind = open?.map Request.kind
  outcome_eq : controller.outcome? = (log.filterMap Entry.outcome?).getLast?
  endsOnce : EndsOnce log

namespace Tracks

lemma start (mode : CheckMode) : Tracks [] none (new mode) where
  outstanding_iff request := by simpa [Outstanding] using History.not_since_nil
  kind_eq := rfl
  outcome_eq := rfl
  endsOnce := by
    intro before first between second after hlog
    simp at hlog

lemma exchange?_eq_none_iff (h : Tracks log open? controller) :
    controller.exchange? = none ↔ open? = none := by
  have hkind := h.kind_eq
  constructor
  · intro hnone
    rw [hnone] at hkind
    exact Option.map_eq_none_iff.mp hkind.symm
  · intro hnone
    rw [hnone] at hkind
    exact Option.map_eq_none_iff.mp hkind

/-- **The tie between the log and the controller is kept.** -/
lemma concat (h : Tracks log open? controller) (hturns : Turns controller entry next) :
    ∃ next?, Tracks (log ++ [entry]) next? next := by
  have houtcomes : ((log ++ [entry]).filterMap Entry.outcome?).getLast?
      = entry.outcome?.or controller.outcome? := by
    rw [History.getLast?_filterMap_concat, h.outcome_eq]
  have hconcat : ∀ request, Outstanding (log ++ [entry]) request ↔
      entry.begun? = some request ∨
        open? = some request ∧ entry.begun? = none ∧ entry.isEnd = false := by
    intro request
    rw [Outstanding, History.since_concat, ← Outstanding, h.outstanding_iff]
  cases hturns with
  | stays hbegun hend houtcome hkind hnext =>
      refine ⟨open?, ?_, hkind.trans h.kind_eq, ?_, h.endsOnce.concat (by simp [houtcome])⟩
      · intro request
        simp [hconcat, hbegun, hend]
      · rw [houtcomes, houtcome, hnext, Option.none_or]
  | begins request hbegun houtcome hkind hnext =>
      refine ⟨some request, ?_, hkind, ?_, h.endsOnce.concat (by simp [houtcome])⟩
      · intro other
        simp [hconcat, hbegun]
      · rw [houtcomes, houtcome, hnext, Option.none_or]
  | ends hbegun hend hbusy hover hnext =>
      -- an end with an outcome needs something under way, which was taken behind the end before
      refine ⟨none, ?_, by rw [hover]; rfl, hnext.trans houtcomes.symm, h.endsOnce.concat ?_⟩
      · intro request
        simp [hconcat, hbegun, hend]
      · intro houtcome
        obtain ⟨request, hopen⟩ := Option.ne_none_iff_exists'.mp
          (mt h.exchange?_eq_none_iff.mpr (hbusy houtcome))
        exact ⟨request, (h.outstanding_iff request).mpr hopen⟩

end Tracks

/-- Behind every run the log and the controller are tied. -/
lemma tracks_run (mode : CheckMode) (operations : List Operation) :
    ∃ open?, Tracks (History.run operate (new mode) operations).1 open?
      (History.run operate (new mode) operations).2 := by
  refine History.run_invariant operate (fun log mid => ∃ open?, Tracks log open? mid)
    ⟨none, .start mode⟩ ?_ operations
  rintro log mid operation ⟨open?, htracks⟩
  exact htracks.concat (turns_operate mid operation)

/-- **A controller follows its log.**  Whatever was done with it, it is idle exactly if nothing is
outstanding, and otherwise waits as a request of that kind has it wait.  Nothing is ended twice.  It
completes only a request of the kind that is outstanding; it refuses bytes exactly if it is idle,
and otherwise there is something to give up.  The outcome that it remembers is the last in the log.
-/
theorem exchange_follows_log (mode : CheckMode) (operations : List Operation) :
    let log := (History.run operate (new mode) operations).1
    let controller := (History.run operate (new mode) operations).2
    (controller.stage ≠ .idle ↔ ∃ request, Outstanding log request) ∧
      (∀ request, Outstanding log request → controller.stage = request.kind.stage) ∧
      EndsOnce log ∧
      (∀ bytes completion, (controller.feed bytes).1 = .ok (some (.done completion)) →
        ∃ request, Outstanding log request ∧ completion.kind = request.kind) ∧
      (∀ bytes, (controller.feed bytes).1 = .error .sequence ↔ controller.stage = .idle) ∧
      (controller.expire.1 = true ↔ controller.stage ≠ .idle) ∧
      controller.outcome? = (log.filterMap Entry.outcome?).getLast? := by
  intro log controller
  obtain ⟨open?, htracks⟩ := tracks_run mode operations
  have hopen : ∀ request, Outstanding log request ↔ open? = some request := htracks.outstanding_iff
  have hidle : controller.stage = .idle ↔ open? = none :=
    stage_eq_idle_iff.trans htracks.exchange?_eq_none_iff
  refine ⟨?_, ?_, htracks.endsOnce, ?_, ?_, ?_, htracks.outcome_eq⟩
  · rw [Ne, hidle, ← Ne, Option.ne_none_iff_exists']
    simp only [hopen]
  · intro request hrequest
    rw [stage_eq, htracks.kind_eq, (hopen request).mp hrequest]
    rfl
  · intro bytes completion hdone
    obtain ⟨exchange, hexchange, hkind⟩ := exists_of_done hdone
    obtain ⟨request, hrequest, hsame⟩ := Option.map_eq_some_iff.mp
      (htracks.kind_eq.symm.trans (congrArg (Option.map Exchange.kind) hexchange))
    exact ⟨request, (hopen request).mpr hrequest, hkind.trans hsame.symm⟩
  · intro bytes
    rw [stage_eq_idle_iff, feed_eq_error_iff]
  · rw [Ne, stage_eq_idle_iff, expire_eq_true_iff]

end Controller

end FieldBus
