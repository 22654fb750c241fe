import FieldBus.Proofs.Answering
import FieldBus.Proofs.Delivery
import FieldBus.Proofs.Outstanding
import Mathlib.Data.Finset.Basic

/-!
# Many stations on one wire

All stations of a bus hear all that the controller sends, and all that the other stations answer.
The stations answer only what was meant for them, and nothing that they hear in between keeps them
from understanding the next request (**`Bus.run_fresh`**).

What they hear leaves its trace: behind an answer that is a lone EOT every other station is half way
into a select sequence.  So the invariant is not that all are between frames, but that each is
*resting* (`Receiver.Resting`), which is enough to understand the first byte of any word as such.

* `Round` — a request, the reply of its station, and how the bytes of both are cut on their way to
  everybody.
* `Bus.exchange` — a round on the bus, and `Round.proceedings` — what is to come of it.
* `Bus.IsQuiet` — the invariant, and `Bus.IsQuiet.exchange`, which keeps it.
-/

namespace FieldBus

/-- A request, the reply that its station gives if it is there, and the cuts in which each node
hears the request, each other node hears the reply, and the controller hears the reply. -/
structure Round where
  request : Request
  reply : Reply
  admits : request.kind.admits reply = true
  toNode : Station → Cutting
  pastNode : Station → Cutting
  toController : Cutting

/-- What came of a round: what each node that is there made of the chunks of the request, and each
that is not meant of the chunks of the reply; what the controller made of the reply; and whether
it was told that none came. -/
@[ext]
structure Proceedings where
  onRequest : Station → Option (List (Except Fault Node.Heard))
  onReply : Station → Option (List (Except Fault Node.Heard))
  onAnswer : List (Except Fault (Option Ending))
  expired : Bool

/-- Gives a reply as the answer to what is due. -/
def Node.give (node : Node) : Reply → Except Fault Block × Node
  | .value value => node.giveValue value
  | .ack => node.acknowledge
  | .refused why => node.refuse why

/-- A controller and, for each station number, the node that has it, if there is one. -/
structure Bus where
  controller : Controller
  node? : Station → Option Node

namespace Bus

/-- A bus with nodes for these stations, on which nothing has happened. -/
def fresh (mode : CheckMode) (stations : Finset Station) : Bus :=
  ⟨.new mode, fun station => if station ∈ stations then some (.new station mode) else none⟩

/-- One round.  The controller sends the request and all nodes hear it; the node that it names gives
the reply, and the other nodes and the controller hear that.  If there is no such node the
controller is told that no reply came. -/
def exchange (bus : Bus) (round : Round) : Except Fault (Proceedings × Bus) :=
  match bus.controller.start round.request with
  | (.error fault, _) => .error fault
  | (.ok sent, waiting) =>
    let heard := fun station =>
      (bus.node? station).map fun node => node.feedEach ((round.toNode station).cut sent.bytes)
    let onRequest := fun station => (heard station).map Prod.fst
    match heard round.request.station with
    | none =>
      let given := waiting.expire
      .ok (⟨onRequest, fun _ => none, [], given.1⟩,
        ⟨given.2, fun station => (heard station).map Prod.snd⟩)
    | some (_, called) =>
      match called.give round.reply with
      | (.error fault, _) => .error fault
      | (.ok answer, answered) =>
        let overheard := fun station =>
          if station = round.request.station then
            none
          else
            (heard station).map fun listener =>
              listener.2.feedEach ((round.pastNode station).cut answer.bytes)
        let concluded := waiting.feedEach (round.toController.cut answer.bytes)
        .ok (⟨onRequest, fun station => (overheard station).map Prod.fst, concluded.1, false⟩,
          ⟨concluded.2, fun station =>
            if station = round.request.station then
              some answered
            else
              (overheard station).map Prod.snd⟩)

/-- One round after the other. -/
def run (bus : Bus) : List Round → Except Fault (List Proceedings × Bus)
  | [] => .ok ([], bus)
  | round :: rest => do
    let (first, next) ← bus.exchange round
    let (later, last) ← next.run rest
    return (first :: later, last)

end Bus

/-- **What is to come of a round** on a bus with these stations.  The node that the request names
is called to it with its last chunk.  All others take all chunks in silence, those of the request
and those of the reply.  The exchange of the controller ends with the last chunk of the reply, as
that reply ends it; if there is no such node, it expires. -/
def Round.proceedings (mode : CheckMode) (stations : Finset Station) (round : Round) :
    Proceedings where
  onRequest station :=
    let chunks := (round.toNode station).cut ((Frame.request round.request).encode mode).bytes
    if station ∈ stations then
      some (match round.request.asks? station with
        | some call => atLast Node.silently (Node.calledBy call) chunks
        | none => chunks.map Node.silently)
    else
      none
  onReply station :=
    let chunks := (round.pastNode station).cut ((Frame.reply round.reply).encode mode).bytes
    if round.request.station ∈ stations ∧ station ∈ stations ∧ station ≠ round.request.station then
      some (chunks.map Node.silently)
    else
      none
  onAnswer :=
    let chunks := round.toController.cut ((Frame.reply round.reply).encode mode).bytes
    if round.request.station ∈ stations then
      atLast (fun _ => .ok none)
        (fun _ => .ok (some (round.request.kind.closing (.frame (.reply round.reply))))) chunks
    else
      []
  expired := decide (round.request.station ∉ stations)

/-! ## One listener -/

/-- Where a frame that came by leaves a receiver of commands.  A lone EOT might begin a select
sequence. -/
def Phase.behind : Frame → Phase
  | .reply (.refused .invalidParameter) => .selectAddress .empty
  | _ => .idle

lemma Phase.resting_behind (frame : Frame) : Receiver.Resting (Phase.behind frame) := by
  unfold Phase.behind
  split
  · exact .inr rfl
  · exact .inl rfl

/-- Whatever frame comes by, a receiver of commands that rests then rests again, and reports that
frame or nothing. -/
lemma Receiver.reports_of_resting {receiver : Receiver} (hcommands : receiver.traffic = .commands)
    (hphase : Receiver.Resting receiver.phase) (frame : Frame) :
    receiver.after (frame.encode receiver.mode).bytes = receiver.inPhase (Phase.behind frame) ∧
      ∀ report ∈ receiver.reports (frame.encode receiver.mode).bytes,
        report = .frame frame := by
  have hstep : ∀ b, Byte.isDigit b = false → receiver.step b = Phase.begin receiver.traffic b := by
    intro b hb
    exact Receiver.step_of_resting receiver hphase fun _ => hb
  by_cases heot : frame = .reply (.refused .invalidParameter)
  · have hsilent := hstep Byte.eot rfl
    rw [hcommands] at hsilent
    have hpasses : receiver.Passes [Byte.eot] (.selectAddress .empty) := .singleton hsilent
    have hbytes : (frame.encode receiver.mode).bytes = [Byte.eot] := by
      rw [heot]
      exact Block.bytes_opened Byte.eot
    rw [hbytes, hpasses.reports, hpasses.after, heot]
    exact ⟨rfl, List.forall_mem_nil _⟩
  · have hlegible : frame.IsLegible receiver.traffic := by
      rw [hcommands]
      unfold Frame.IsLegible
      split
      · rfl
      · exact absurd rfl heot
      · trivial
    have hidle : Phase.behind frame = .idle := by
      unfold Phase.behind
      split
      · exact absurd rfl heot
      · rfl
    have hword := Frame.wireWord_encode receiver.mode hlegible
    have hfeed := Receiver.feed_wireWord receiver hword fun b hb =>
      hstep b (Receiver.isDigit_head_wireWord hword b hb)
    rw [Receiver.after_eq_feed, Receiver.reports_eq_feed, hfeed, List.drop_length,
      Receiver.after_nil, Receiver.reports_nil, hidle]
    exact ⟨rfl, by simp⟩

namespace Node

variable {station : Station} {mode : CheckMode} {phase : Phase} {chunks : List Bytes}

/-- A node that owes nothing, with its receiver in this phase. -/
def listening (station : Station) (mode : CheckMode) (phase : Phase) : Node :=
  ⟨station, mode, (Receiver.start .commands mode).inPhase phase, .nothing⟩

/-- A node that was called to a request. -/
def called (station : Station) (mode : CheckMode) (request : Request) : Node :=
  ⟨station, mode, .start .commands mode, request.call.due⟩

/-- A node takes in silence what is not for its station, and then rests again. -/
lemma feedEach_of_overheard (hphase : Receiver.Resting phase) {frame : Frame}
    (hframe : frame.station? ≠ some station)
    (hchunks : chunks.flatten = (frame.encode mode).bytes) :
    (listening station mode phase).feedEach chunks
      = (chunks.map silently, listening station mode (Phase.behind frame)) := by
  obtain ⟨hafter, hreports⟩ := @Receiver.reports_of_resting
    ((Receiver.start .commands mode).inPhase phase) rfl hphase frame
  have hunwanted : ((listening station mode phase).receiver.reports chunks.flatten).filterMap
      (Report.call? station) = [] := by
    rw [hchunks, List.filterMap_eq_nil_iff]
    intro report hreport
    rw [hreports report hreport]
    cases frame with
    | request request => exact if_neg fun h => hframe (congrArg some h)
    | reply reply => rfl
  rw [feedEach_of_unwanted rfl hunwanted, hchunks]
  exact congrArg (Prod.mk _) (congrArg (Node.mk station mode · .nothing) hafter)

/-- A node is called to a request for its station with its last chunk. -/
lemma feedEach_of_request (hphase : Receiver.Resting phase) {request : Request}
    (hstation : request.station = station) (hne : ∀ chunk ∈ chunks, chunk ≠ [])
    (hchunks : chunks.flatten = ((Frame.request request).encode mode).bytes) :
    (listening station mode phase).feedEach chunks
      = (atLast silently (calledBy request.call) chunks, called station mode request) := by
  have hword := Frame.wireWord_request mode request
  have hfeed := Receiver.feed_wireWord ((Receiver.start .commands mode).inPhase phase) hword
    fun b hb => Receiver.step_of_resting _ hphase fun _ =>
      Receiver.isDigit_head_wireWord hword b hb
  rw [← hchunks] at hfeed
  exact feedEach_of_call rfl hne hfeed (if_pos hstation)

/-- A reply that the request admits can be given. -/
lemma give_of_admits {request : Request} {reply : Reply}
    (hadmits : request.kind.admits reply = true) :
    (called station mode request).give reply
      = (.ok ((Frame.reply reply).encode mode), listening station mode .idle) := by
  cases reply with
  | refused why => cases request <;> rfl
  | value value =>
      cases request with
      | read station parameter => rfl
      | write station parameter new => cases hadmits
      | select station => cases hadmits
  | ack =>
      cases request with
      | read station parameter => cases hadmits
      | write station parameter value => rfl
      | select station => rfl

end Node

/-- A controller that awaits a reply hears it to its end. -/
lemma Controller.feedEach_of_reply {request : Request} {reply : Reply} {chunks : List Bytes}
    (mode : CheckMode) (outcome? : Option Outcome) (hne : ∀ chunk ∈ chunks, chunk ≠ [])
    (hchunks : chunks.flatten = ((Frame.reply reply).encode mode).bytes) :
    (Controller.mk mode (some (.start request.kind mode)) outcome?).feedEach chunks
      = (atLast (fun _ => .ok none)
          (fun _ => .ok (some (request.kind.closing (.frame (.reply reply))))) chunks,
        ⟨mode, none, some (request.kind.closing (.frame (.reply reply))).outcome⟩) := by
  have hfeed := Receiver.feed_wireWord (.start .replies mode) (Frame.wireWord_reply mode reply)
    fun _ _ => rfl
  rw [← hchunks] at hfeed
  rw [Controller.feedEach_of_report rfl hne hfeed]
  dsimp only [Exchange.start]
  rw [Kind.ending_judge]

/-! ## All listeners -/

/-- What the nodes make of a request is what is to come of it, whatever they are afterwards. -/
lemma Round.onRequest_eq (round : Round) {mode : CheckMode} {stations : Finset Station}
    {called other : Node} (station : Station) :
    let chunks := (round.toNode station).cut ((Frame.request round.request).encode mode).bytes
    (if station ∈ stations then
        some (if station = round.request.station then
            (atLast Node.silently (Node.calledBy round.request.call) chunks, called)
          else
            (chunks.map Node.silently, other))
      else
        none).map Prod.fst = (round.proceedings mode stations).onRequest station := by
  dsimp only [Round.proceedings]
  rw [Request.asks?_eq]
  by_cases hstation : station = round.request.station
  · rw [if_pos hstation, if_pos hstation.symm]
    split_ifs <;> rfl
  · rw [if_neg hstation, if_neg (Ne.symm hstation)]
    split_ifs <;> rfl

namespace Bus

variable {mode : CheckMode} {stations : Finset Station} {bus : Bus}

/-- Between rounds: the controller has no exchange under way, and all nodes rest. -/
structure IsQuiet (mode : CheckMode) (stations : Finset Station) (bus : Bus) : Prop where
  controller_eq : ∃ outcome?, bus.controller = ⟨mode, none, outcome?⟩
  node?_eq : ∃ phase : Station → Phase, (∀ station, Receiver.Resting (phase station)) ∧
    ∀ station, bus.node? station
      = if station ∈ stations then some (.listening station mode (phase station)) else none

lemma isQuiet_fresh (mode : CheckMode) (stations : Finset Station) :
    (fresh mode stations).IsQuiet mode stations where
  controller_eq := ⟨none, rfl⟩
  node?_eq := ⟨fun _ => .idle, fun _ => .inl rfl, fun _ => rfl⟩

/-- What the nodes make of a request. -/
lemma IsQuiet.hear_request (h : bus.IsQuiet mode stations) (round : Round) (station : Station) :
    let chunks := (round.toNode station).cut ((Frame.request round.request).encode mode).bytes
    ((bus.node? station).map fun node => node.feedEach chunks) =
      if station ∈ stations then
        some (if station = round.request.station then
            (atLast Node.silently (Node.calledBy round.request.call) chunks,
              .called station mode round.request)
          else
            (chunks.map Node.silently, .listening station mode .idle))
      else
        none := by
  obtain ⟨phase, hphase, hnode⟩ := h.node?_eq
  have hchunks := (round.toNode station).flatten_cut
    ((Frame.request round.request).encode mode).bytes
  dsimp only
  rw [hnode station]
  split_ifs with hmem hstation
  · exact congrArg some (Node.feedEach_of_request (hphase station) hstation.symm
      ((round.toNode station).ne_nil_of_mem _) hchunks)
  · have hother : (Frame.request round.request).station? ≠ some station :=
      fun heq => hstation (Option.some.inj heq).symm
    exact congrArg some (Node.feedEach_of_overheard (hphase station) hother hchunks)
  · rfl

/-- **A round comes to what it is to come to**, and leaves the bus quiet. -/
theorem IsQuiet.exchange (h : bus.IsQuiet mode stations) (round : Round) :
    ∃ next, bus.exchange round = .ok (round.proceedings mode stations, next) ∧
      next.IsQuiet mode stations := by
  obtain ⟨outcome?, hcontroller⟩ := h.controller_eq
  have hstart : bus.controller.start round.request
      = (.ok ((Frame.request round.request).encode mode),
        ⟨mode, some (.start round.request.kind mode), outcome?⟩) := by
    rw [hcontroller]
    rfl
  rw [Bus.exchange, hstart]
  simp only [h.hear_request round]
  by_cases hpresent : round.request.station ∈ stations
  · have hanswer := @Controller.feedEach_of_reply round.request round.reply _ mode outcome?
      (round.toController.ne_nil_of_mem _) (round.toController.flatten_cut _)
    simp only [if_pos hpresent, if_true, Node.give_of_admits round.admits, hanswer]
    have hoverheard : ∀ station, (Node.listening station mode .idle).feedEach
        ((round.pastNode station).cut ((Frame.reply round.reply).encode mode).bytes)
        = (((round.pastNode station).cut ((Frame.reply round.reply).encode mode).bytes).map
            Node.silently, .listening station mode (Phase.behind (.reply round.reply))) := by
      intro station
      exact Node.feedEach_of_overheard (.inl rfl) nofun ((round.pastNode station).flatten_cut _)
    refine ⟨_, congrArg Except.ok (congrArg₂ Prod.mk (Proceedings.ext ?_ ?_ ?_ ?_) rfl), ?_, ?_⟩
    · funext station
      exact round.onRequest_eq station
    · funext station
      dsimp only [Round.proceedings]
      split_ifs with hstation hall hmem hall hall
      · exact absurd hstation hall.2.2
      · rfl
      · rw [Option.map_some, hoverheard]
        rfl
      · exact absurd ⟨hpresent, hmem, hstation⟩ hall
      · exact absurd hall.2.1 hmem
      · rfl
    · exact (if_pos hpresent).symm
    · exact (decide_eq_false (not_not_intro hpresent)).symm
    · exact ⟨_, rfl⟩
    · refine ⟨fun station => if station = round.request.station then .idle
        else Phase.behind (.reply round.reply), ?_, ?_⟩
      · intro station
        dsimp only
        split_ifs
        · exact .inl rfl
        · exact Phase.resting_behind _
      · intro station
        dsimp only
        split_ifs with hstation hmem hmem
        · rw [hstation]
        · exact absurd (hstation ▸ hpresent) hmem
        · rw [Option.map_some, hoverheard]
          rfl
        · rfl
  · simp only [if_neg hpresent]
    refine ⟨_, congrArg Except.ok (congrArg₂ Prod.mk (Proceedings.ext ?_ ?_ ?_ ?_) rfl), ?_, ?_⟩
    · funext station
      exact round.onRequest_eq station
    · funext station
      exact (if_neg fun hall => hpresent hall.1).symm
    · exact (if_neg hpresent).symm
    · exact (decide_eq_true hpresent).symm
    · exact ⟨_, rfl⟩
    · refine ⟨fun _ => .idle, fun _ => .inl rfl, ?_⟩
      intro station
      dsimp only
      split_ifs with hmem hstation
      · exact absurd (hstation ▸ hmem) hpresent
      · rfl
      · rfl

/-- **Only who is meant is called.**  On a bus that starts with new nodes, every round comes to what
it is to come to, whatever the rounds before it were. -/
theorem run_fresh (mode : CheckMode) (stations : Finset Station) (rounds : List Round) :
    ∃ last, (fresh mode stations).run rounds
      = .ok (rounds.map (Round.proceedings mode stations), last) := by
  have hrun : ∀ rounds (bus : Bus), bus.IsQuiet mode stations →
      ∃ last, bus.run rounds = .ok (rounds.map (Round.proceedings mode stations), last) := by
    intro rounds
    induction rounds with
    | nil =>
        intro bus _
        exact ⟨bus, rfl⟩
    | cons round rest ih =>
        intro bus hquiet
        obtain ⟨next, hexchange, hnext⟩ := hquiet.exchange round
        obtain ⟨last, hlast⟩ := ih next hnext
        refine ⟨last, ?_⟩
        rw [run, hexchange]
        simp only [bind, Except.bind, hlast]
        rfl
  exact hrun rounds _ (isQuiet_fresh mode stations)

/-- Station 7 refuses a read with a lone EOT, and then station 3, which heard that, is selected. -/
theorem run_fresh_behind_lone_eot :
    let first : Round := ⟨.read ⟨7, by decide⟩ ⟨5, by decide⟩, .refused .invalidParameter, rfl,
      fun _ => .bytewise, fun _ => .bytewise, .bytewise⟩
    let second : Round := ⟨.select ⟨3, by decide⟩, .ack, rfl,
      fun _ => .bytewise, fun _ => .bytewise, .bytewise⟩
    ∃ records last, (fresh .plain {⟨3, by decide⟩, ⟨7, by decide⟩}).run [first, second]
        = .ok (records, last) ∧
      (records.map fun record => record.onReply ⟨3, by decide⟩)
        = [some [.ok ⟨none, 1⟩], none] ∧
      (records.map fun record => record.onRequest ⟨3, by decide⟩)[1]?
        = some (some [.ok ⟨none, 1⟩, .ok ⟨none, 1⟩, .ok ⟨none, 1⟩, .ok ⟨some .select, 1⟩]) ∧
      records.map Proceedings.onAnswer = [[.ok (some (.refused .invalidParameter))],
        [.ok (some (.done .selected))]] := by
  intro first second
  obtain ⟨last, hrun⟩ := run_fresh .plain {⟨3, by decide⟩, ⟨7, by decide⟩} [first, second]
  exact ⟨_, last, hrun, by decide +kernel, by decide +kernel, by decide +kernel⟩

end Bus

end FieldBus
