import FieldBus.Proofs.CutShort
import FieldBus.Proofs.Loopback

/-!
# A write behind requests that were cut short

A link fails while the controller writes a request, the controller forgets the request, and later
places another one, a write.  The line still has the beginning of the first request in front of the
write.

* The server carries out the write exactly as if nothing were in front of it
  (**`Loop.place_write`**).
* If the controller is told that the write was carried out, then it was.
* If the controller is told that the write was refused, then it was, unless a request in front of it
  came through so far that it names the station.  The server answers that one first, with a
  refusal.  Answers name nobody, so the controller takes the refusal for that of its write.

That last case is real (`Loop.place_write_behind_named_cut`).  What tells it from the others is
`Incident.unanswered`, the cuts that the server has not done with.  `Loop.Awaits` ties them to the
bytes that the receiver holds and to those that wait on the line, and `Loop.Awaits.place_own` says
what any request for the station comes to behind them.
-/

namespace FieldBus

/-- What can happen on a loop before a request is placed. -/
inductive Incident (mode : CheckMode) where
  /-- The link fails while a request is written, and the controller forgets it. -/
  | cutShort (cut : Cut mode)
  /-- The server is polled while the controller waits for nothing. -/
  | poll
  /-- A request goes through. -/
  | place (request : Request)

/-- The cuts that the server has not done with, after one incident more.  A poll takes all of them
off the line, but with the last one the server is done only when something comes behind it. -/
def Incident.leave {mode : CheckMode} (cuts : List (Cut mode)) : Incident mode → List (Cut mode)
  | .cutShort cut => if cut.length = 0 then cuts else cuts ++ [cut]
  | .poll => cuts.getLast?.toList
  | .place _ => []

/-- The cuts that the server has not done with. -/
def Incident.unanswered {mode : CheckMode} (incidents : List (Incident mode)) : List (Cut mode) :=
  incidents.foldl Incident.leave []

namespace Loop

/-- Puts a request behind what waits on the line, polls the server, and gives the controller all
that the server has written. -/
def place (loop : Loop) (request : Request) : Settlement × Loop :=
  match loop.controller.start request with
  | (.error fault, controller) => (.declined fault, { loop with controller := controller })
  | (.ok block, controller) =>
    let polled := loop.server.poll loop.store (loop.line.clearWritten.queue block.bytes)
    match polled.result with
    | .error fault => (.failed fault, ⟨controller, polled.server, polled.device, polled.link⟩)
    | .ok _ =>
      let concluded := conclude controller polled.link.outbox.written
      (concluded.1, ⟨concluded.2, polled.server, polled.device, polled.link⟩)

/-- The loop after an incident. -/
def undergo {mode : CheckMode} (loop : Loop) : Incident mode → Loop
  | .cutShort cut =>
    match loop.controller.start cut.request with
    | (.error _, controller) => { loop with controller := controller }
    | (.ok block, controller) =>
      { loop with
        controller := controller.reset
        line := loop.line.queue (block.bytes.take cut.length) }
  | .poll =>
    let polled := loop.server.poll loop.store loop.line.clearWritten
    { loop with server := polled.server, store := polled.device, line := polled.link }
  | .place request => (loop.place request).2

end Loop

/-- Broken frames are refused, and the device is not asked. -/
lemma Call.replies_malformed {D : Type} [Device D] (device : D) (faults : List Fault) :
    Call.replies device (faults.map .malformed)
      = (List.replicate faults.length (.refused .commandFailed), device) := by
  induction faults with
  | nil => rfl
  | cons fault rest ih =>
      rw [List.map_cons, Call.replies_cons]
      change (_ :: (Call.replies device (rest.map .malformed)).1,
        (Call.replies device (rest.map .malformed)).2) = _
      rw [ih]
      rfl

namespace Loop

variable {mode : CheckMode} {station : Station} {loop : Loop} {cuts : List (Cut mode)}

/-! ## Between incidents -/

/-- Where the poll goes well, the controller concludes from what was written. -/
lemma place_of_poll {request : Request} {block : Block} {controller : Controller}
    {polled : Server.Polled ParameterStore Line} {count : Nat}
    (hstart : loop.controller.start request = (.ok block, controller))
    (hpoll : loop.server.poll loop.store (loop.line.clearWritten.queue block.bytes) = polled)
    (hresult : polled.result = .ok count) :
    loop.place request = ((conclude controller polled.link.outbox.written).1,
      ⟨(conclude controller polled.link.outbox.written).2, polled.server, polled.device,
        polled.link⟩) := by
  rw [place, hstart]
  dsimp only
  rw [hpoll, hresult]

/-- The controller waits for nothing, and of what came to the server it has still to do with these
cuts: it holds some of them, which give no report, and the others wait on the line. -/
structure Awaits (mode : CheckMode) (station : Station) (cuts : List (Cut mode)) (loop : Loop) :
    Prop where
  mode_eq : loop.controller.mode = mode
  exchange_eq : loop.controller.exchange? = none
  limit_eq : loop.line.outbox.limit? = none
  length_pos : ∀ cut ∈ cuts, 0 < cut.length
  server_eq : ∃ held waiting, cuts = held ++ waiting ∧
    (Receiver.start .commands mode).reports (held.map Cut.bytes).flatten = [] ∧
    loop.server = ⟨⟨station, mode, (Receiver.start .commands mode).after
      (held.map Cut.bytes).flatten, .nothing⟩, []⟩ ∧
    loop.line.unread = (waiting.map Cut.bytes).flatten

namespace Awaits

lemma new (mode : CheckMode) (station : Station) (store : ParameterStore) :
    Awaits mode station [] ⟨.new mode, .new station mode, store, .empty⟩ where
  mode_eq := rfl
  exchange_eq := rfl
  limit_eq := rfl
  length_pos := List.forall_mem_nil _
  server_eq := ⟨[], [], rfl, by simp, by simp [Server.new, Node.new], rfl⟩

/-- A poll finds the cuts and what was put behind them, as if it had never been polled before. -/
lemma poll (h : loop.Awaits mode station cuts) {line : Line} {more : Bytes}
    (hlimit : line.outbox.limit? = none) (hunread : line.unread = loop.line.unread ++ more) :
    let bytes := (cuts.map Cut.bytes).flatten ++ more
    let calls := ((Receiver.start .commands mode).reports bytes).filterMap (Report.call? station)
    loop.server.poll loop.store line =
      ⟨.ok calls.length,
        ⟨⟨station, mode, (Receiver.start .commands mode).after bytes, .nothing⟩, []⟩,
        (Call.replies loop.store calls).2,
        line.drained.wrote
          (Reply.messages mode (Call.replies loop.store calls).1).flatten⟩ := by
  obtain ⟨held, waiting, rfl, hheld, hserver, hwaiting⟩ := h.server_eq
  have hpoll := @Server.poll_line ParameterStore _ loop.server (by rw [hserver]) loop.store line
    hlimit
  have hreports : ((Receiver.start .commands mode).after (held.map Cut.bytes).flatten).reports
      (line.unread) = (Receiver.start .commands mode).reports
        (((held ++ waiting).map Cut.bytes).flatten ++ more) := by
    rw [hunread, hwaiting, List.map_append, List.flatten_append, List.append_assoc,
      Receiver.reports_append (.start .commands mode), hheld, List.nil_append]
  have hafter : ((Receiver.start .commands mode).after (held.map Cut.bytes).flatten).after
      (line.unread) = (Receiver.start .commands mode).after
        (((held ++ waiting).map Cut.bytes).flatten ++ more) := by
    rw [hunread, hwaiting, List.map_append, List.flatten_append, List.append_assoc,
      Receiver.after_append (.start .commands mode)]
  rw [hserver] at hpoll ⊢
  dsimp only at hpoll ⊢
  rw [hpoll, List.nil_append, hreports, hafter]

lemma start_eq (h : loop.Awaits mode station cuts) (request : Request) :
    loop.controller.start request = (.ok ((Frame.request request).encode mode),
      ⟨mode, some (.start request.kind mode), loop.controller.outcome?⟩) := by
  rw [Controller.start_of_idle h.exchange_eq, h.mode_eq]

/-- A request that is placed behind cuts is served behind refusals of those that name the
station, and the controller concludes from all that was written. -/
lemma place (h : loop.Awaits mode station cuts) (request : Request) :
    ∃ (faults : List Fault) (calls : List Call) (next : Loop),
      (faults ≠ [] ↔ ∃ cut ∈ cuts, cut.Names station) ∧
      calls = faults.map .malformed ++ (if request.station = station then [request.call] else []) ∧
      next.Awaits mode station [] ∧
      next.store = (Call.replies loop.store calls).2 ∧
      loop.place request = ((conclude
        ⟨mode, some (.start request.kind mode), loop.controller.outcome?⟩
        (Reply.messages mode (Call.replies loop.store calls).1).flatten).1, next) := by
  obtain ⟨passed, faults, hreports, hafter, hcalls, hnames⟩ := Cut.reports_flatten_append cuts
    h.length_pos (opens_request mode request) station
  obtain ⟨hrequest, hidle⟩ := Receiver.reports_request mode request
  have hcall : (passed ++ [Report.frame (.request request)]).filterMap (Report.call? station)
      = faults.map .malformed ++ (if request.station = station then [request.call] else []) := by
    rw [List.filterMap_append, hcalls, List.filterMap_cons, List.filterMap_nil, Report.call?]
    split_ifs <;> rfl
  have hpoll := @Awaits.poll mode station loop cuts h
    (loop.line.clearWritten.queue ((Frame.request request).encode mode).bytes) _ h.limit_eq rfl
  dsimp only at hpoll
  rw [hreports, hafter, hrequest, hidle, hcall] at hpoll
  refine ⟨faults, _, _, hnames, rfl, ?_, ?_, place_of_poll (h.start_eq request) hpoll rfl⟩
  · have hconclude := conclude_idle ⟨mode, some (.start request.kind mode),
      loop.controller.outcome?⟩ (Reply.messages mode (Call.replies loop.store (faults.map .malformed
        ++ if request.station = station then [request.call] else [])).1).flatten
    exact ⟨hconclude.1, hconclude.2, h.limit_eq, List.forall_mem_nil _,
      ⟨[], [], rfl, by simp, by simp, rfl⟩⟩
  · rfl

/-- An incident leaves the cuts that it is said to leave. -/
lemma undergo (h : loop.Awaits mode station cuts) (incident : Incident mode) :
    (loop.undergo incident).Awaits mode station (incident.leave cuts) := by
  cases incident with
  | cutShort cut =>
      obtain ⟨held, waiting, rfl, hheld, hserver, hwaiting⟩ := h.server_eq
      rw [Loop.undergo, h.start_eq, Incident.leave]
      dsimp only
      split_ifs with hzero
      · refine ⟨rfl, rfl, h.limit_eq, h.length_pos, held, waiting, rfl, hheld, hserver, ?_⟩
        rw [hzero, List.take_zero, Line.queue, List.append_nil]
        exact hwaiting
      · refine ⟨rfl, rfl, h.limit_eq, ?_, held, waiting ++ [cut], ?_, hheld, hserver, ?_⟩
        · rw [List.forall_mem_append]
          exact ⟨h.length_pos, by simpa using Nat.pos_of_ne_zero hzero⟩
        · rw [List.append_assoc]
        · simp [Line.queue, hwaiting, Cut.bytes]
  | poll =>
      obtain ⟨hheld, hafter⟩ := Cut.after_flatten cuts h.length_pos
      have hpoll := @Awaits.poll mode station loop cuts h loop.line.clearWritten [] h.limit_eq
        (List.append_nil _).symm
      dsimp only at hpoll
      rw [List.append_nil, hafter] at hpoll
      rw [Loop.undergo, hpoll]
      refine ⟨h.mode_eq, h.exchange_eq, h.limit_eq, ?_, _, [], (List.append_nil _).symm, hheld, rfl,
        rfl⟩
      intro cut hmem
      exact h.length_pos cut (List.mem_of_getLast? (Option.mem_toList.mp hmem))
  | place request =>
      obtain ⟨_, _, next, -, -, hnext, -, hplace⟩ := h.place request
      rw [Loop.undergo, hplace]
      exact hnext

/-- Any number of incidents on a new loop leave the cuts that they are said to leave. -/
lemma foldl_undergo (mode : CheckMode) (station : Station) (store : ParameterStore)
    (incidents : List (Incident mode)) :
    (incidents.foldl Loop.undergo ⟨.new mode, .new station mode, store, .empty⟩).Awaits mode
      station (Incident.unanswered incidents) := by
  have hrun : ∀ (incidents : List (Incident mode)) (loop : Loop) (cuts : List (Cut mode)),
      loop.Awaits mode station cuts →
      (incidents.foldl Loop.undergo loop).Awaits mode station
        (incidents.foldl Incident.leave cuts) := by
    intro incidents
    induction incidents with
    | nil =>
        intro loop cuts h
        exact h
    | cons incident rest ih =>
        intro loop cuts h
        exact ih _ _ (h.undergo incident)
  exact hrun incidents _ _ (.new mode station store)

end Awaits

/-- **What a request for the station comes to behind cuts.**  It is carried out as if they were not
there.  If one of them names the station, the controller takes the refusal of that one for the
answer; otherwise it gets the answer. -/
theorem Awaits.place_own (h : loop.Awaits mode station cuts) {request : Request}
    (hown : request.station = station) :
    (loop.place request).2.store = (loop.store.carryOut request).2 ∧
      ((∃ cut ∈ cuts, cut.Names station) →
        (loop.place request).1 = .ended (.refused .commandFailed)) ∧
      ((¬∃ cut ∈ cuts, cut.Names station) →
        (loop.place request).1 = .ended (.ofResult (loop.store.carryOut request).1)) := by
  obtain ⟨faults, calls, next, hnames, hcalls, -, hstore, hplace⟩ := h.place request
  have hreplies : Call.replies loop.store calls
      = (List.replicate faults.length (.refused .commandFailed)
          ++ [.ofResult (loop.store.carryOut request).1], (loop.store.carryOut request).2) := by
    rw [hcalls, if_pos hown, Call.replies_append, Call.replies_malformed, Call.replies_cons,
      ParameterStore.reply_call]
    rfl
  rw [hreplies] at hstore hplace
  rw [← hnames, hplace]
  refine ⟨hstore, ?_, ?_⟩
  · intro hne
    obtain ⟨fault, rest, rfl⟩ := List.exists_cons_of_ne_nil hne
    have hadmits : request.kind.admits (.refused .commandFailed) = true := by
      cases request.kind <;> rfl
    rw [List.length_cons, List.replicate_succ, List.cons_append, Reply.messages, List.map_cons,
      List.flatten_cons]
    exact conclude_reply rfl hadmits _
  · intro hnil
    obtain rfl := not_not.mp hnil
    have hconclude := @conclude_answer mode loop.store request
      ⟨mode, some (.start request.kind mode), loop.controller.outcome?⟩ rfl
    rw [← List.append_nil (loop.store.answer mode request)] at hconclude
    exact hconclude

/-! ## Writes -/

/-- A write leaves the store alone if it is refused, and otherwise the value is there. -/
lemma carryOut_write (store : ParameterStore) (station : Station) (parameter : Parameter)
    (value : Value) :
    ((store.carryOut (.write station parameter value)).1 = .ok .written ∧
      (store.carryOut (.write station parameter value)).2.get? parameter = some value) ∨
    (∃ why, (store.carryOut (.write station parameter value)).1 = .error why) ∧
      (store.carryOut (.write station parameter value)).2 = store := by
  rw [ParameterStore.carryOut]
  rcases store.cell parameter with ⟨_ | old, _ | _⟩
  · exact .inr ⟨⟨_, rfl⟩, rfl⟩
  · exact .inr ⟨⟨_, rfl⟩, rfl⟩
  · refine .inl ⟨rfl, ?_⟩
    simp [ParameterStore.get?, ParameterStore.cell_modify]
  · exact .inr ⟨⟨_, rfl⟩, rfl⟩

/-- **What a write comes to behind requests that were cut short.**  The store is changed as by the
write alone.  The controller is told how the write ended, unless a cut that the server has not done
with names the station: then it is told of a refusal in any case. -/
theorem place_write (mode : CheckMode) (station : Station) (store : ParameterStore)
    (incidents : List (Incident mode)) (parameter : Parameter) (value : Value) :
    let loop := incidents.foldl Loop.undergo ⟨.new mode, .new station mode, store, .empty⟩
    let placed := loop.place (.write station parameter value)
    let carried := loop.store.carryOut (.write station parameter value)
    let named := ∃ cut ∈ Incident.unanswered incidents, cut.Names station
    placed.2.store = carried.2 ∧
      (named → placed.1 = .ended (.refused .commandFailed)) ∧
      (¬named → placed.1 = .ended (.ofResult carried.1)) ∧
      (placed.1 = .ended (.done .written) → placed.2.store.get? parameter = some value) ∧
      (∀ why, placed.1 = .ended (.refused why) → ¬named → placed.2.store = loop.store) := by
  dsimp only
  have hloop := Awaits.foldl_undergo mode station store incidents
  generalize incidents.foldl Loop.undergo ⟨.new mode, .new station mode, store, .empty⟩ = loop
    at hloop ⊢
  obtain ⟨hstore, hnamed, hunnamed⟩ :=
    @Awaits.place_own mode station loop _ hloop (.write station parameter value) rfl
  have hcases := carryOut_write loop.store station parameter value
  refine ⟨hstore, hnamed, hunnamed, ?_, ?_⟩
  · intro hwritten
    rw [hstore]
    rcases hcases with ⟨-, hvalue⟩ | ⟨⟨why, herror⟩, -⟩
    · exact hvalue
    · by_cases h : ∃ cut ∈ Incident.unanswered incidents, cut.Names station
      · rw [hnamed h] at hwritten
        cases hwritten
      · rw [hunnamed h, herror] at hwritten
        cases hwritten
  · intro why hrefused h
    rw [hstore]
    rcases hcases with ⟨hok, -⟩ | ⟨-, hsame⟩
    · rw [hunnamed h, hok] at hrefused
      cases hrefused
    · exact hsame

/-- Two bytes of a select sequence for the station itself, then a poll, and then a write. -/
theorem place_write_behind_unnamed_cut :
    let station : Station := ⟨12, by decide⟩
    let cut : Cut .printable := ⟨.select station, 2, by decide +kernel⟩
    let loop := [Incident.cutShort cut, .poll].foldl undergo ⟨.new .printable,
      .new station .printable, ParameterStore.empty.add ⟨5, by decide⟩ 1, .empty⟩
    let placed := loop.place (.write station ⟨5, by decide⟩ ⟨7, by decide, by decide⟩)
    placed.1 = .ended (.done .written) ∧
      placed.2.store.get? ⟨5, by decide⟩ = some ⟨7, by decide, by decide⟩ := by
  intro station cut loop placed
  have hwritten : placed.1 = .ended (.done .written) := by decide +kernel
  exact ⟨hwritten, (place_write .printable station (ParameterStore.empty.add ⟨5, by decide⟩ 1)
    [.cutShort cut, .poll] ⟨5, by decide⟩ ⟨7, by decide, by decide⟩).2.2.2.1 hwritten⟩

/-- The beginning of a write gets as far as the station, and then the whole write follows.  The
controller is told that it was refused, and the value is there. -/
theorem place_write_behind_named_cut :
    let write := Request.write ⟨12, by decide⟩ ⟨5, by decide⟩ ⟨7, by decide, by decide⟩
    let start : Loop := ⟨.new .plain, .new ⟨12, by decide⟩ .plain,
      ParameterStore.empty.add ⟨5, by decide⟩ 1, .empty⟩
    let loop := start.undergo (Incident.cutShort (@Cut.mk .plain write 4 (by decide +kernel)))
    let placed := loop.place write
    placed.1 = .ended (.refused .commandFailed) ∧
      loop.store.get? ⟨5, by decide⟩ = some .zero ∧
      placed.2.store.get? ⟨5, by decide⟩ = some ⟨7, by decide, by decide⟩ := by
  decide +kernel

end Loop

end FieldBus
