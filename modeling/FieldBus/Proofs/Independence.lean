import FieldBus.Proofs.Agreement
import FieldBus.Proofs.Outstanding

/-!
# An exchange depends on its own bytes alone

Two controllers have come to be idle in different ways.  Much of an answer may have been fed to the
one when its owner gave up, and the other may have found an answer broken; nothing of this is left.
If both are asked for the same exchange and hear the same bytes, then both come to the same end of
it, and even where the bytes are cut does not matter: the end comes with the chunk that has the byte
which decides it (**`Controller.ending_of_own_bytes`**).

* `Receiver.Decides` — the byte at a place of a stream brings the first report.
* `Controller.EndsAt` — fed in chunks, a controller tells of the end with the chunk that has the
  byte at this place.
-/

namespace FieldBus

/-! ## The byte that decides -/

namespace Receiver

variable {receiver : Receiver} {stream front bytes : Bytes} {place : Nat} {report : Report}

/-- The byte at this place of the stream brings the first report: without it there is none, and with
it there is this one. -/
def Decides (receiver : Receiver) (stream : Bytes) (place : Nat) (report : Report) : Prop :=
  place < stream.length ∧ (receiver.feed (stream.take place)).report? = none ∧
    (receiver.feed (stream.take (place + 1))).report? = some report

/-- A beginning of bytes without a report has none. -/
lemma report?_of_prefix_of_none (hbegin : front <+: bytes)
    (h : (receiver.feed bytes).report? = none) : (receiver.feed front).report? = none := by
  obtain ⟨more, rfl⟩ := hbegin
  by_contra hsome
  obtain ⟨report, hreport⟩ := Option.ne_none_iff_exists'.mp hsome
  rw [feed_append_of_report hreport, hreport] at h
  cases h

/-- Bytes that begin with what has a report have the same. -/
lemma report?_of_prefix_of_some (hbegin : front <+: bytes)
    (h : (receiver.feed front).report? = some report) :
    (receiver.feed bytes).report? = some report := by
  obtain ⟨more, rfl⟩ := hbegin
  rw [feed_append_of_report h, h]

lemma exists_decides (h : (receiver.feed stream).report? = some report) :
    ∃ place, receiver.Decides stream place report := by
  obtain ⟨front, b, rest, phase, rfl, hpasses, hlast⟩ := exists_step_of_report h
  refine ⟨front.length, by simp, ?_, ?_⟩
  · rw [Passes] at hpasses
    rw [List.take_left, hpasses]
  · rw [List.take_length_add_append, List.take_succ_cons, List.take_zero, hpasses.feed_append]
    rcases hlast with ⟨next, hstep, -⟩ | ⟨defect, rfl, hstep, -⟩
    · rw [feed_cons_of_report hstep]
    · rw [feed_cons_of_leave hstep]

namespace Decides

/-- Bytes without a report end in front of the byte that decides. -/
lemma length_le (h : receiver.Decides stream place report) (hbegin : front <+: stream)
    (hnone : (receiver.feed front).report? = none) : front.length ≤ place := by
  by_contra hle
  have hshort : stream.take (place + 1) <+: front :=
    List.prefix_of_prefix_length_le (List.take_prefix _ _) hbegin (by simp; omega)
  have hreport := report?_of_prefix_of_some hshort h.2.2
  rw [hnone] at hreport
  cases hreport

/-- Bytes with a report have the byte that decides, and the report is the one that it brings. -/
lemma lt_length (h : receiver.Decides stream place report) (hbegin : front <+: stream)
    {other : Report} (hsome : (receiver.feed front).report? = some other) :
    place < front.length ∧ other = report := by
  constructor
  · by_contra hlt
    have hlong : front <+: stream.take place :=
      List.prefix_of_prefix_length_le hbegin (List.take_prefix _ _)
        (by rw [List.length_take]; have := h.1; omega)
    have hreport := report?_of_prefix_of_some hlong hsome
    rw [h.2.1] at hreport
    cases hreport
  · have hother := report?_of_prefix_of_some hbegin hsome
    have hreport := report?_of_prefix_of_some (List.take_prefix _ stream) h.2.2
    exact Option.some.inj (hother.symm.trans hreport)

end Decides

end Receiver

/-! ## One controller -/

namespace Controller

variable {controller : Controller} {exchange : Exchange} {kind : Kind} {mode : CheckMode}
  {past : Bytes} {chunks : List Bytes} {place : Nat} {report : Report}

/-- Fed in these chunks, a controller wants more up to the chunk that has the byte at this place.
With that chunk it tells of this ending, and it takes no chunk behind it. -/
def EndsAt (results : List (Except Fault (Option Ending))) (chunks : List Bytes) (place : Nat)
    (ending : Ending) : Prop :=
  ∃ before chunk after later, chunks = before ++ chunk :: after ∧
    before.flatten.length ≤ place ∧ place < (before.flatten ++ chunk).length ∧
    results = before.map (fun _ => .ok none) ++ .ok (some ending) :: later ∧
    ∀ result ∈ later, result = .error .sequence

/-- Without a report in all of the bytes, the controller wants more with every chunk. -/
lemma feedEach_of_report_none (hexchange : controller.exchange? = some exchange)
    (htaken : exchange.HasTaken kind mode past)
    (hnone : ((Receiver.start .replies mode).feed (past ++ chunks.flatten)).report? = none) :
    (controller.feedEach chunks).1 = chunks.map fun _ => .ok none := by
  induction chunks generalizing controller exchange past with
  | nil => rfl
  | cons chunk rest ih =>
      rw [List.flatten_cons, ← List.append_assoc] at hnone
      have hchunk := Receiver.report?_of_prefix_of_none (List.prefix_append _ _) hnone
      rcases feed_of_hasTaken hexchange htaken chunk with
        ⟨report, hreport, -⟩ | ⟨-, next, hnext, hfeed⟩
      · cases hchunk.symm.trans hreport
      · have hlater := ih (congrArg (fun fed => fed.2.exchange?) hfeed) hnext hnone
        rw [feedEach, List.map_cons]
        dsimp only
        rw [hlater, hfeed]

/-- With a report, the controller ends the exchange with the chunk that has the byte which decides.
-/
lemma feedEach_of_decides (hexchange : controller.exchange? = some exchange)
    (htaken : exchange.HasTaken kind mode past)
    (hdecides : (Receiver.start .replies mode).Decides (past ++ chunks.flatten) place report) :
    ∃ before chunk after later, chunks = before ++ chunk :: after ∧
      (past ++ before.flatten).length ≤ place ∧ place < (past ++ before.flatten ++ chunk).length ∧
      (controller.feedEach chunks).1
        = before.map (fun _ => .ok none) ++ .ok (some (kind.closing report)) :: later ∧
      ∀ result ∈ later, result = .error .sequence := by
  have hpast := hdecides.length_le (List.prefix_append _ _) htaken.replies.report?_eq_none
  induction chunks generalizing controller exchange past with
  | nil =>
      have hlt := hdecides.1
      rw [List.flatten_nil, List.append_nil] at hlt
      omega
  | cons chunk rest ih =>
      rw [List.flatten_cons, ← List.append_assoc] at hdecides
      rw [feedEach]
      -- the chunk has the byte that decides if it brings a report, and ends in front of it if not
      rcases feed_of_hasTaken hexchange htaken chunk with
        ⟨other, hreport, hfeed⟩ | ⟨hnone, next, hnext, hfeed⟩
      · obtain ⟨hlt, rfl⟩ := hdecides.lt_length (List.prefix_append _ _) hreport
        refine ⟨[], chunk, rest, _, rfl, ?_, ?_, ?_,
          feedEach_of_none (congrArg (fun fed => fed.2.exchange?) hfeed) rest⟩
        · rwa [List.flatten_nil, List.append_nil]
        · rwa [List.flatten_nil, List.append_nil]
        · dsimp only
          rw [hfeed]
          rfl
      · have hlonger := hdecides.length_le (List.prefix_append _ _) hnone
        obtain ⟨before, last, after, later, hchunks, hbefore, hlast, hresults, hlater⟩ :=
          ih (congrArg (fun fed => fed.2.exchange?) hfeed) hnext hdecides hlonger
        refine ⟨chunk :: before, last, after, later, by rw [hchunks]; rfl, ?_, ?_, ?_, hlater⟩
        · rwa [List.flatten_cons, ← List.append_assoc]
        · rwa [List.flatten_cons, ← List.append_assoc]
        · dsimp only
          rw [hresults, hfeed]
          rfl

/-! ## Two controllers -/

/-- A new controller, with which all this was done. -/
def after (mode : CheckMode) (history : List Operation) : Controller :=
  (History.run operate (new mode) history).2

lemma mode_operate (controller : Controller) (operation : Operation) :
    (controller.operate operation).2.mode = controller.mode := by
  cases operation with
  | take errand =>
      rw [operate]
      cases hbusy : controller.isIdle with
      | false => rw [take_of_busy hbusy]
      | true =>
          rw [take_of_idle (isIdle_iff.mp hbusy)]
          cases errand.check <;> rfl
  | feed bytes =>
      rw [operate]
      cases hexchange : controller.exchange? with
      | none => rw [feed_of_idle hexchange]
      | some exchange =>
          rw [feed_of_exchange hexchange]
          cases (exchange.replies.feed bytes).report? <;> rfl
  | expire =>
      rw [operate, expire]
      cases controller.isIdle <;> rfl
  | reset => rfl

lemma mode_after (mode : CheckMode) (history : List Operation) :
    (after mode history).mode = mode := by
  rw [after]
  refine History.run_invariant operate (fun _ mid => mid.mode = mode) ?_ ?_ history
  · rfl
  · intro log mid operation hmid
    exact (mode_operate mid operation).trans hmid

/-- Asked for an exchange while idle, a controller sends the request and has heard nothing of the
answer, whatever was done with it before. -/
lemma take_after {history : List Operation} (hidle : (after mode history).stage = .idle)
    (errand : Errand) :
    ((after mode history).take errand).1
        = errand.check.map (fun request => (Frame.request request).encode mode) ∧
      ∀ request, errand.check = .ok request → ((after mode history).take errand).2.exchange?
        = some (.start request.kind mode) := by
  rw [take_of_idle (stage_eq_idle_iff.mp hidle), mode_after]
  cases errand.check with
  | error fault =>
      refine ⟨rfl, fun request hrequest => ?_⟩
      cases hrequest
  | ok request =>
      refine ⟨rfl, fun other hother => ?_⟩
      obtain rfl := Except.ok.inj hother
      rfl

/-- **An exchange depends on its own bytes alone.**  Two controllers of the same check mode are
idle, with any histories behind them.  Asked for the same, both refuse it with the same fault or
send the same request.  If then both are fed the same bytes, each in its own chunks, and these bytes
hold nothing that a fresh receiver reports, both want more with every chunk.  Otherwise both tell of
the same ending, which is what the first report means for this kind of request, with the chunk that
has the byte that brings it. -/
theorem ending_of_own_bytes {history other : List Operation} (errand : Errand)
    {chunks others : List Bytes} (hidle : (after mode history).stage = .idle)
    (hother : (after mode other).stage = .idle) (hbytes : others.flatten = chunks.flatten) :
    let first := (after mode history).take errand
    let second := (after mode other).take errand
    first.1 = second.1 ∧
      (∀ fault, errand.check = .error fault → first.1 = .error fault) ∧
      ∀ request, errand.check = .ok request →
        first.1 = .ok ((Frame.request request).encode mode) ∧
        match ((Receiver.start .replies mode).feed chunks.flatten).report? with
        | none => (first.2.feedEach chunks).1 = chunks.map (fun _ => .ok none) ∧
            (second.2.feedEach others).1 = others.map fun _ => .ok none
        | some report => ∃ place,
            (Receiver.start .replies mode).Decides chunks.flatten place report ∧
            EndsAt (first.2.feedEach chunks).1 chunks place (request.kind.closing report) ∧
            EndsAt (second.2.feedEach others).1 others place (request.kind.closing report) := by
  intro first second
  obtain ⟨hfirst, hfirstNext⟩ := take_after hidle errand
  obtain ⟨hsecond, hsecondNext⟩ := take_after hother errand
  refine ⟨hfirst.trans hsecond.symm, ?_, fun request hrequest => ⟨?_, ?_⟩⟩
  · intro fault hfault
    rw [hfirst, hfault]
    rfl
  · rw [hfirst, hrequest]
    rfl
  have hstart := Exchange.hasTaken_start request.kind mode
  cases hreport : ((Receiver.start .replies mode).feed chunks.flatten).report? with
  | none =>
      exact ⟨feedEach_of_report_none (hfirstNext request hrequest) hstart hreport,
        feedEach_of_report_none (hsecondNext request hrequest) hstart
          (by rwa [List.nil_append, hbytes])⟩
  | some report =>
      obtain ⟨place, hdecides⟩ := Receiver.exists_decides hreport
      exact ⟨place, hdecides, feedEach_of_decides (hfirstNext request hrequest) hstart hdecides,
        feedEach_of_decides (hsecondNext request hrequest) hstart
          (by rwa [List.nil_append, hbytes])⟩

/-- One controller gave up a read in the middle of its answer, and one heard an answer that does not
fit a select.  The next read finds the same value in both, whose answer comes in other chunks. -/
theorem ending_of_own_bytes_behind_abandoned_answers :
    let history : List Operation :=
      [.take (.order (.read 12 5)), .feed [0x02, 0x2D, 0x31], .expire]
    let other : List Operation := [.take (.order (.select 3)), .feed [0x02, 0x2B, 0x31, 0x03, 0x19]]
    let chunks : List Bytes := [[0x02, 0x2B, 0x37], [0x03, 0x1F, 0x06]]
    let others : List Bytes := [[0x02, 0x2B], [], [0x37, 0x03], [0x1F], [0x06]]
    let ending : Ending := .done (.value ⟨7, by decide, by decide⟩)
    ((after .plain history).stage = .idle ∧ (after .plain other).stage = .idle ∧
        others.flatten = chunks.flatten) ∧
      ∃ place,
        EndsAt (((after .plain history).take (.order (.read 12 5))).2.feedEach chunks).1 chunks
          place ending ∧
        EndsAt (((after .plain other).take (.order (.read 12 5))).2.feedEach others).1 others
          place ending := by
  intro history other chunks others ending
  have hidle : (after .plain history).stage = .idle := by decide +kernel
  have hother : (after .plain other).stage = .idle := by decide +kernel
  have hreport : ((Receiver.start .replies .plain).feed chunks.flatten).report?
      = some (.frame (.reply (.value ⟨7, by decide, by decide⟩))) := by decide +kernel
  obtain ⟨-, hends⟩ := (ending_of_own_bytes (.order (.read 12 5)) hidle hother
    (show others.flatten = chunks.flatten from rfl)).2.2
      (.read ⟨12, by decide⟩ ⟨5, by decide⟩) rfl
  rw [hreport] at hends
  obtain ⟨place, -, hfirst, hsecond⟩ := hends
  exact ⟨⟨hidle, hother, rfl⟩, place, hfirst, hsecond⟩

end Controller

end FieldBus
