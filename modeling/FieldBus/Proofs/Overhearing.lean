import FieldBus.Monitor
import FieldBus.Proofs.Reports

/-!
# What a listener makes of what it hears

A monitor hears bytes of either side in any order.  What it makes of them depends on one thing first
of all, whether an answer is due, and the lemmas here say for both cases and both sides what comes
of a call.  Everything about longer listening is derived from them.

* `Monitor.hearController_of_quiet`, `Monitor.hearController_of_awaited` — the controller's side.
* `Monitor.hearNodes_of_quiet`, `Monitor.hearNodes_of_awaited` — the stations' side.
* `Monitor.Input`, `Monitor.Event`, `Monitor.hearEach` — listening to both sides, one call after
  the other.
* `Monitor.after` — a listener behind any calls, resets among them.  **`Monitor.reset_after`** says
  that one more reset makes it a new one.
-/

namespace FieldBus

namespace Monitor

variable {monitor : Monitor} {awaited : Awaited} {bytes : Bytes}

/-! ## One call -/

lemma hearController_nil (monitor : Monitor) : monitor.hearController [] = ⟨none, 0, monitor⟩ := rfl

/-- Silence is no report of the controller's side: it is the lack of an answer. -/
lemma sent?_ne_silence {report : Report} {station : Station} :
    sent? report ≠ some (.silence station) := by
  rcases report with (request | reply) | defect <;> nofun

/-- While no answer is due, the controller's side is looked through for what is worth telling. -/
lemma hearController_of_quiet (hquiet : monitor.awaited? = none) (bytes : Bytes) :
    monitor.hearController bytes =
      ⟨(monitor.commands.seek sent? bytes).found?, (monitor.commands.seek sent? bytes).taken,
        { monitor with commands := (monitor.commands.seek sent? bytes).receiver }.behind
          (monitor.commands.seek sent? bytes).found?⟩ := by
  obtain ⟨commands, replies, _⟩ := monitor
  obtain rfl := hquiet
  cases bytes with
  | nil => simp [hearController, Receiver.seek, behind]
  | cons b rest => rfl

/-- An answer becomes due with a request, and with nothing else. -/
lemma exists_request_of_behind {event? : Option Sent} (hquiet : monitor.awaited? = none)
    (hdue : (monitor.behind event?).awaited?.isSome = true) :
    ∃ request, event? = some (.request request) := by
  rcases event? with _ | (request | station | defect)
  case some.request => exact ⟨request, rfl⟩
  all_goals
    change monitor.awaited?.isSome = true at hdue
    rw [hquiet] at hdue
    cases hdue

/-- While an answer is due, bytes of the controller are a silence of the station. -/
lemma hearController_of_awaited (hawaited : monitor.awaited? = some awaited) (hne : bytes ≠ []) :
    monitor.hearController bytes = ⟨some (.silence awaited.station), 0, monitor.giveUp⟩ := by
  rw [hearController, if_neg hne, hawaited]

lemma hearNodes_nil (monitor : Monitor) : monitor.hearNodes [] = ⟨none, 0, monitor⟩ := rfl

/-- While no answer is due, bytes of the stations are unasked for. -/
lemma hearNodes_of_quiet (hquiet : monitor.awaited? = none) (hne : bytes ≠ []) :
    monitor.hearNodes bytes = ⟨some .unasked, bytes.length, monitor⟩ := by
  rw [hearNodes, if_neg hne, hquiet]

/-- While an answer is due, bytes of the stations belong to it. -/
lemma hearNodes_of_awaited (hawaited : monitor.awaited? = some awaited) (bytes : Bytes) :
    monitor.hearNodes bytes =
      ⟨(monitor.replies.feed bytes).report?.map awaited.tells, (monitor.replies.feed bytes).taken,
        { monitor with
          replies := (monitor.replies.feed bytes).receiver
          awaited? :=
            if (monitor.replies.feed bytes).report? = none then some awaited else none }⟩ := by
  obtain ⟨commands, replies, _⟩ := monitor
  obtain rfl := hawaited
  cases bytes with
  | nil => rfl
  | cons b rest =>
      rw [hearNodes, if_neg (List.cons_ne_nil b rest)]
      dsimp only
      cases hreport : (replies.feed (b :: rest)).report? <;> rfl

/-! ## One call after the other -/

/-- What a listener hears in one call: bytes of one side. -/
inductive Input where
  | controller (bytes : Bytes)
  | nodes (bytes : Bytes)
  deriving DecidableEq

/-- What a listener tells of, on either side. -/
inductive Event where
  | sent (event : Sent)
  | answered (event : Answered)
  deriving DecidableEq

/-- Hears bytes of one side, up to the first event. -/
def hear (monitor : Monitor) : Input → Overheard Event
  | .controller bytes =>
    let heard := monitor.hearController bytes
    ⟨heard.event?.map .sent, heard.taken, heard.monitor⟩
  | .nodes bytes =>
    let heard := monitor.hearNodes bytes
    ⟨heard.event?.map .answered, heard.taken, heard.monitor⟩

/-- Hears bytes of the one and the other side.  There is one entry for each call: the event, if
there was one, and the number of bytes taken. -/
def hearEach (monitor : Monitor) : List Input → List (Option Event × Nat) × Monitor
  | [] => ([], monitor)
  | input :: rest =>
    let heard := monitor.hear input
    let later := heard.monitor.hearEach rest
    ((heard.event?, heard.taken) :: later.1, later.2)

/-! ## Starting afresh -/

/-- What can be done with a listener. -/
inductive Operation where
  | hear (input : Input)
  | reset
  deriving DecidableEq

/-- Does something with a listener. -/
def operate (monitor : Monitor) : Operation → Monitor
  | .hear input => (monitor.hear input).monitor
  | .reset => monitor.reset

/-- A new listener, with which all this was done. -/
def after (mode : CheckMode) (operations : List Operation) : Monitor :=
  operations.foldl operate (new mode)

lemma reset_hearController (monitor : Monitor) (bytes : Bytes) :
    (monitor.hearController bytes).monitor.reset = monitor.reset := by
  by_cases hne : bytes = []
  · rw [hne, hearController_nil]
  cases hawaited : monitor.awaited? with
  | some awaited =>
      rw [hearController_of_awaited hawaited hne]
      rfl
  | none =>
      have hreset : ∀ (other : Monitor) (event? : Option Sent),
          (other.behind event?).reset = other.reset := by
        rintro other (_ | _ | _ | _) <;> rfl
      rw [hearController_of_quiet hawaited, hreset, reset, Receiver.reset_seek]
      rfl

lemma reset_hearNodes (monitor : Monitor) (bytes : Bytes) :
    (monitor.hearNodes bytes).monitor.reset = monitor.reset := by
  by_cases hne : bytes = []
  · rw [hne, hearNodes_nil]
  cases hawaited : monitor.awaited? with
  | none => rw [hearNodes_of_quiet hawaited hne]
  | some awaited =>
      rw [hearNodes_of_awaited hawaited, reset, Receiver.reset_feed]
      rfl

/-- A reset drops whatever was done before it. -/
lemma reset_operate (monitor : Monitor) (operation : Operation) :
    (monitor.operate operation).reset = monitor.reset := by
  rcases operation with (bytes | bytes) | _
  · exact reset_hearController monitor bytes
  · exact reset_hearNodes monitor bytes
  · rfl

lemma reset_foldl_operate (monitor : Monitor) (operations : List Operation) :
    (operations.foldl operate monitor).reset = monitor.reset := by
  induction operations generalizing monitor with
  | nil => rfl
  | cons operation rest ih => exact (ih _).trans (reset_operate monitor operation)

/-- **A listener that is reset is as a new one**, whatever it has heard, and wherever that has left
it on either side. -/
theorem reset_after (mode : CheckMode) (operations : List Operation) :
    (after mode operations).reset = new mode :=
  reset_foldl_operate (new mode) operations

end Monitor

end FieldBus
