import FieldBus.Link.Faulty
import FieldBus.Link.Line
import FieldBus.Proofs.Recording

/-!
# Every request served exactly once

A server is polled time and again, and its link may do as it likes: reading may fail or end
anywhere, writing may fail or stop short, and so may sending on what was written.  Whatever it does,
the requests that reach the device are those that the bytes read so far come to, each once and in
its order, and at most some of the last are still to come (**`Service.pollAll_start`**).

The reason is that a server never looks at a byte twice and never drops one: `Server.Advances` holds
between a server that has yet to look at all the bytes and the one at hand, every poll extends it at
its end (`Service.HasServed.poll`), and a failure can only stop the server between two calls.

* `Service` — a server between polls, with all that can be observed of it.
* `Service.poll_cases` — one poll: it reads bytes and advances, and either gets to the end of them
  without a failure, or fails.
-/

namespace FieldBus

/-- A server that is polled time and again: the server, its device, what passed over its link, what
the polls gave, and the number of answers that they reported. -/
structure Service (D : Type) where
  server : Server
  device : D
  tap : Tap
  results : List (Except Fault Nat)
  answered : Nat

namespace Service

variable {D L : Type} [Device D] [FiniteLink L]

def start (station : Station) (mode : CheckMode) (device : D) : Service D :=
  ⟨.new station mode, device, .start, [], 0⟩

/-- Polls the server on a link, which need not be what it was after the last poll. -/
def poll (service : Service D) (link : L) : Service D :=
  let polled := service.server.poll service.device (Tapped.mk link service.tap)
  ⟨polled.server, polled.device, polled.link.tap, service.results ++ [polled.result],
    service.answered + polled.result.toOption.getD 0⟩

/-- **What a poll does**: it reads bytes and goes through calls.  If it succeeds, then nothing
failed, no byte is left, and the replies to the calls were written. -/
lemma poll_cases {service : Service D} (hdue : service.server.node.due = .nothing) (link : L) :
    ∃ bytes calls, (service.poll link).tap.taken = service.tap.taken ++ bytes ∧
      Server.Advances (service.server.receive bytes) (service.poll link).server calls ∧
      (service.poll link).device = (Call.replies service.device calls).2 ∧
      (((service.poll link).results = service.results ++ [.ok calls.length] ∧
          (service.poll link).answered = service.answered + calls.length ∧
          (service.poll link).server.received = [] ∧
          (service.poll link).tap.failed = service.tap.failed ∧
          (service.poll link).tap.written = service.tap.written ++ (Reply.messages
            service.server.node.mode (Call.replies service.device calls).1).flatten) ∨
        ((service.poll link).results = service.results ++ [.error .transport] ∧
          (service.poll link).tap.failed = true)) := by
  obtain ⟨bytes, hreceived, hread, hunwritten, hsound⟩ :=
    Server.collect_tapped service.server.received (Tapped.mk link service.tap)
  rcases hcollect : Server.collect service.server.received (Tapped.mk link service.tap)
    with ⟨_ | _, received, next⟩
  · -- reading failed, and nothing was served
    rw [hcollect] at hreceived hread hunwritten hsound
    obtain rfl : received = service.server.received ++ bytes := hreceived
    have hpoll : service.poll link = ⟨service.server.receive bytes, service.device, next.tap,
        service.results ++ [.error .transport], service.answered⟩ := by
      rw [poll, Server.poll, hcollect]
      rfl
    rw [hpoll]
    exact ⟨bytes, [], hread, .refl hdue, rfl,
      .inr ⟨rfl, by rw [hsound, Bool.not_false, Bool.or_true]⟩⟩
  · rw [hcollect] at hreceived hread hunwritten hsound
    obtain rfl : received = service.server.received ++ bytes := hreceived
    obtain ⟨calls, hadvances, hdevice, hlink, hresult⟩ := @Server.serve_advances D (Tapped L) _ _
      (service.server.receive bytes) hdue service.device next 0
    obtain ⟨htaken, hfailed, hwritten⟩ := Link.sendEach_tapped next (Reply.messages
      (service.server.receive bytes).node.mode (Call.replies service.device calls).1)
    have hpoll : service.poll link =
        let served := Server.serve (service.server.receive bytes) service.device next 0
        ⟨served.server, served.device, served.link.tap, service.results ++ [served.result],
          service.answered + served.result.toOption.getD 0⟩ := by
      rw [poll, Server.poll, hcollect]
      rfl
    rw [hpoll]
    dsimp only
    rw [hlink]
    refine ⟨bytes, calls, htaken.trans hread, hadvances, hdevice, ?_⟩
    rcases hresult with ⟨hok, hend, hcarried⟩ | ⟨herror, hlost⟩
    · refine .inl ⟨by rw [hok, Nat.zero_add], by rw [hok, Nat.zero_add]; rfl, hend, ?_, ?_⟩
      · rw [hfailed, hsound, hcarried, Bool.not_true, Bool.or_false, Bool.or_false]
      · rw [hwritten hcarried, hunwritten]
        rfl
    · refine .inr ⟨by rw [herror], ?_⟩
      rw [hfailed, hlost, Bool.not_false, Bool.or_true]

/-! ## From poll to poll -/

/-- After any number of polls the calls so far were gone through, and put to the device; how far
that is, and what the polls gave, follows from what failed. -/
structure HasServed (station : Station) (mode : CheckMode) (device : D)
    (service : Service (Logged D)) (calls : List Call) : Prop where
  advances : Server.Advances ((Server.new station mode).receive service.tap.taken) service.server
    calls
  device_eq : service.device = (Call.replies ⟨device, []⟩ calls).2
  result_cases : ∀ result ∈ service.results, result = .error .transport ∨ ∃ n, result = .ok n
  received_eq : ∀ n, service.results.getLast? = some (.ok n) → service.server.received = []
  unfailed : service.tap.failed = false → service.server.received = [] ∧
    (∀ result ∈ service.results, ∃ n, result = .ok n) ∧
    service.answered = calls.length ∧
    service.tap.written = (Reply.messages mode (Call.replies device calls).1).flatten

namespace HasServed

variable {station : Station} {mode : CheckMode} {device : D} {service : Service (Logged D)}
  {calls : List Call}

lemma start (station : Station) (mode : CheckMode) (device : D) :
    HasServed station mode device (Service.start station mode ⟨device, []⟩) [] where
  advances := .refl rfl
  device_eq := rfl
  result_cases := nofun
  received_eq := nofun
  unfailed _ := ⟨rfl, nofun, rfl, rfl⟩

/-- A poll goes on where the last one stopped. -/
lemma poll (h : HasServed station mode device service calls) (link : L) :
    ∃ more, HasServed station mode device (service.poll link) (calls ++ more) := by
  obtain ⟨bytes, more, htaken, hadvances, hdevice, hcases⟩ :=
    poll_cases h.advances.due_eq link
  have hreceive : ((Server.new station mode).receive service.tap.taken).receive bytes
      = (Server.new station mode).receive (service.poll link).tap.taken := by
    rw [htaken, Server.receive, Server.receive, Server.receive, List.append_assoc]
  have hmode : service.server.node.mode = mode := h.advances.mode_eq
  have hlogged : service.device = ⟨(Call.replies device calls).2, service.device.log⟩ := by
    rw [h.device_eq, Call.replies_logged]
  have hreplies : (Call.replies service.device more).1
      = (Call.replies (Call.replies device calls).2 more).1 := by
    rw [Call.replies_logged, hlogged]
  refine ⟨more, ?_, ?_, ?_, ?_, ?_⟩
  · rw [← hreceive]
    exact (h.advances.append bytes).trans hadvances
  · rw [hdevice, h.device_eq, Call.replies_append]
  · rcases hcases with ⟨hresults, -⟩ | ⟨hresults, -⟩ <;> rw [hresults, List.forall_mem_append]
    · exact ⟨h.result_cases, by simp⟩
    · exact ⟨h.result_cases, by simp⟩
  · rcases hcases with ⟨-, -, hend, -⟩ | ⟨hresults, -⟩
    · exact fun _ _ => hend
    · intro n hlast
      rw [hresults, List.getLast?_concat] at hlast
      cases hlast
  · intro hunfailed
    rcases hcases with ⟨hresults, hmore, hend, hfailed, hwritten⟩ | ⟨-, hfailed⟩
    · obtain ⟨-, hok, hanswered, hbefore⟩ := h.unfailed (hfailed.symm.trans hunfailed)
      refine ⟨hend, ?_, ?_, ?_⟩
      · rw [hresults, List.forall_mem_append]
        exact ⟨hok, by simp⟩
      · rw [hmore, hanswered, List.length_append]
      · rw [hwritten, hbefore, hmode, hreplies, Call.replies_append, Reply.messages,
          Reply.messages, Reply.messages, List.map_append, List.flatten_append]
    · rw [hfailed] at hunfailed
      cases hunfailed

/-- At the end of the bytes so far, the calls are all that these come to. -/
lemma calls_eq (h : HasServed station mode device service calls)
    (hend : service.server.received = []) :
    calls = ((Receiver.start .commands mode).reports service.tap.taken).filterMap
      (Report.asks? station) := by
  rw [← Report.call?_eq_asks?]
  exact h.advances.calls_eq hend

end HasServed

end Service

end FieldBus
