import FieldBus.Link.Line
import FieldBus.Proofs.Answering

/-!
# The loops above the receiver

Two loops stand above a receiver.  A node goes on with its receiver until a report is a call for its
station, and a server goes on with its node until no byte is left.  Either may run without a byte
taken: the node when a frame for another station breaks, the server when one for its own does.  A
third loop reads from the link, and nothing but the link says when that is over.

The definitions end by construction, and their measure does not say how often they go round.  So
each loop is taken apart here into its rounds, and its end is a matter of proof
(**`Server.loops_return`**): over `n` bytes the first two go round `2 * n` times at most, whatever
the receiver was left with, and the third goes round once more than the link gives bytes.

* `Iteration`, `Iteration.Ends` — one round of a loop, and a loop that ends behind so many of them.
* **`Iteration.ends_of_falls`** — a loop ends if each round lowers a number, which bounds the
  rounds.
* `Receiver.look`, `Server.gather`, `Server.attend` — the rounds of the three loops.
* `Link.RunsOut` — reading gives bytes so many times, and then none or fails.
-/

namespace FieldBus

/-! ## Rounds -/

/-- What comes of one round of a loop in this state. -/
inductive Iteration (σ ρ : Type)
  /-- The loop is over before the body is run. -/
  | exit (result : ρ)
  /-- The body ends the loop. -/
  | last (result : ρ)
  | next (state : σ)

namespace Iteration

variable {σ ρ : Type} {loop : σ → Iteration σ ρ} {state : σ} {result other : ρ} {runs runs' : Nat}

/-- The loop ends with this result, and its body was run so many times. -/
inductive Ends (loop : σ → Iteration σ ρ) : σ → ρ → Nat → Prop
  | exit {state : σ} {result : ρ} (h : loop state = .exit result) : Ends loop state result 0
  | last {state : σ} {result : ρ} (h : loop state = .last result) : Ends loop state result 1
  | next {state later : σ} {result : ρ} {runs : Nat} (h : loop state = .next later)
      (hlater : Ends loop later result runs) : Ends loop state result (runs + 1)

/-- A loop ends in one way only. -/
lemma Ends.unique (h : Ends loop state result runs) (h' : Ends loop state other runs') :
    other = result ∧ runs' = runs := by
  induction h generalizing runs' with
  | exit h =>
      cases h' with
      | exit h' => cases h.symm.trans h'; exact ⟨rfl, rfl⟩
      | last h' => cases h.symm.trans h'
      | next h' => cases h.symm.trans h'
  | last h =>
      cases h' with
      | exit h' => cases h.symm.trans h'
      | last h' => cases h.symm.trans h'; exact ⟨rfl, rfl⟩
      | next h' => cases h.symm.trans h'
  | next h hlater ih =>
      cases h' with
      | exit h' => cases h.symm.trans h'
      | last h' => cases h.symm.trans h'
      | next h' hlater' =>
          cases h.symm.trans h'
          obtain ⟨hother, hruns⟩ := ih hlater'
          exact ⟨hother, congrArg (· + 1) hruns⟩

/-- What a round has to be if a number bounds the rounds and a function gives the result: a round in
which the body is run finds the number positive, and one that is not the last lowers it and leaves
the function as it is. -/
inductive Falls (number : σ → Nat) (f : σ → ρ) (state : σ) : Iteration σ ρ → Prop
  | exit : Falls number f state (.exit (f state))
  | last (hpos : 0 < number state) : Falls number f state (.last (f state))
  | next {later : σ} (hlt : number later < number state) (hsame : f state = f later) :
      Falls number f state (.next later)

/-- **A loop ends if a number falls**, and its body is run no more often than the number says. -/
theorem ends_of_falls {number : σ → Nat} {f : σ → ρ}
    (hfalls : ∀ state, Falls number f state (loop state)) (state : σ) :
    ∃ runs, Ends loop state (f state) runs ∧ runs ≤ number state := by
  induction hn : number state using Nat.strong_induction_on generalizing state with
  | _ n ih =>
      subst hn
      generalize hloop : loop state = outcome
      have hone := hfalls state
      rw [hloop] at hone
      cases hone with
      | exit => exact ⟨0, .exit hloop, Nat.zero_le _⟩
      | last hpos => exact ⟨1, .last hloop, hpos⟩
      | @next later hlt hsame =>
          obtain ⟨runs, hends, hle⟩ := ih (number later) hlt later rfl
          rw [hsame]
          exact ⟨runs + 1, .next hloop hends, Nat.succ_le_of_lt (Nat.lt_of_le_of_lt hle hlt)⟩

end Iteration

open Iteration (Ends Falls)

/-! ## Looking for a report -/

namespace Receiver

variable {α : Type} {bytes : Bytes}

/-- One round of looking for a report that is wanted: the receiver is called with what is left of
the bytes, of which so many have been taken. -/
def look (want : Report → Option α) (bytes : Bytes) :
    Receiver × Nat → Iteration (Receiver × Nat) (Sought α)
  | (receiver, taken) =>
    if taken < bytes.length then
      let fed := receiver.feed (bytes.drop taken)
      match fed.report? with
      | none => .last ⟨none, taken + fed.taken, fed.receiver⟩
      | some report =>
        match want report with
        | some a => .last ⟨some a, taken + fed.taken, fed.receiver⟩
        | none => .next (fed.receiver, taken + fed.taken)
    else
      .exit ⟨none, taken, receiver⟩

/-- What looking comes to when so many bytes have been taken. -/
def soughtFrom (want : Report → Option α) (bytes : Bytes) : Receiver × Nat → Sought α
  | (receiver, taken) =>
    let sought := receiver.seek want (bytes.drop taken)
    { sought with taken := taken + sought.taken }

/-- What is left to do when so many bytes have been taken, less one: where nothing is left of the
bytes, a frame that may have to be given up takes no round. -/
def looksLeft (bytes : Bytes) : Receiver × Nat → Nat
  | (receiver, taken) => receiver.work (bytes.drop taken) - 1

lemma one_lt_work (receiver : Receiver) (hne : bytes ≠ []) : 1 < receiver.work bytes := by
  have hpos := List.length_pos_iff.mpr hne
  rw [work]
  omega

lemma work_le (receiver : Receiver) (bytes : Bytes) :
    receiver.work bytes ≤ 2 * bytes.length + 1 := by
  rw [work]
  split_ifs <;> omega

lemma falls_look (want : Report → Option α) (bytes : Bytes) (state : Receiver × Nat) :
    Falls (looksLeft bytes) (soughtFrom want bytes) state (look want bytes state) := by
  obtain ⟨receiver, taken⟩ := state
  by_cases hlt : taken < bytes.length
  · obtain ⟨b, rest, hrest⟩ := List.exists_cons_of_ne_nil
      (List.drop_eq_nil_iff.not.mpr (Nat.not_le.mpr hlt))
    have hne := List.cons_ne_nil b rest
    have hwork := receiver.one_lt_work hne
    have hfalls := receiver.work_feed_lt hne
    -- both the round and the definition by recursion call the receiver with this
    rw [look, if_pos hlt, hrest]
    have hsought : soughtFrom want bytes (receiver, taken)
        = { receiver.seek want (b :: rest) with
            taken := taken + (receiver.seek want (b :: rest)).taken } := by
      rw [soughtFrom, hrest]
    have hleft : 0 < looksLeft bytes (receiver, taken) := by
      rw [looksLeft, hrest]
      omega
    rw [seek] at hsought
    generalize hfed : receiver.feed (b :: rest) = fed at *
    cases hreport : fed.report? with
    | none =>
        simp only [hreport] at hsought ⊢
        rw [← hsought]
        exact .last hleft
    | some report =>
        cases hwant : want report with
        | some a =>
            simp only [hreport, hwant] at hsought ⊢
            rw [← hsought]
            exact .last hleft
        | none =>
            simp only [hreport, hwant] at hsought ⊢
            have hdrop : bytes.drop (taken + fed.taken) = (b :: rest).drop fed.taken := by
              rw [← hrest, List.drop_drop]
            refine .next ?_ ?_
            · rw [looksLeft, looksLeft, hdrop, hrest]
              omega
            · rw [hsought, soughtFrom, hdrop]
              simp only [Nat.add_assoc]
  · have hover : bytes.drop taken = [] := List.drop_eq_nil_of_le (Nat.not_lt.mp hlt)
    have hsought : soughtFrom want bytes (receiver, taken) = ⟨none, taken, receiver⟩ := by
      rw [soughtFrom, hover, seek]
      rfl
    rw [look, if_neg hlt, ← hsought]
    exact .exit

end Receiver

/-- Looking for a call of the node ends, and the node is fed so. -/
lemma Node.look_ends {node : Node} (hcalled : node.isCalled = false) (bytes : Bytes) :
    ∃ sought runs,
      Ends (Receiver.look (Report.call? node.station) bytes) (node.receiver, 0) sought runs ∧
        runs ≤ 2 * bytes.length ∧
        node.feed bytes = (.ok ⟨sought.found?, sought.taken⟩, { node with
          receiver := sought.receiver
          due := (sought.found?.map Call.due).getD .nothing }) := by
  obtain ⟨runs, hends, hruns⟩ := Iteration.ends_of_falls
    (Receiver.falls_look (Report.call? node.station) bytes) (node.receiver, 0)
  have hwork := node.receiver.work_le bytes
  refine ⟨_, runs, hends, ?_, ?_⟩
  · rw [Receiver.looksLeft, List.drop_zero] at hruns
    omega
  · rw [feed, if_neg (by rw [hcalled]; decide), Receiver.soughtFrom, List.drop_zero]
    simp only [Nat.zero_add]

/-! ## Reading from a link -/

/-- Reading gives bytes so many times, and then it gives none or fails. -/
inductive Link.RunsOut {L : Type} [Link L] : L → Nat → Prop
  | fails {link next : L} (hread : Link.read link readLimit = (none, next)) : RunsOut link 0
  | givesNone {link next : L} (hread : Link.read link readLimit = (some [], next)) :
      RunsOut link 0
  | gives {link next : L} {b : UInt8} {bytes : Bytes} {more : Nat}
      (hread : Link.read link readLimit = (some (b :: bytes), next)) (hnext : RunsOut next more) :
      RunsOut link (more + 1)

namespace Server

/-- One round of reading what has come in. -/
def gather {L : Type} [Link L] : Bytes × L → Iteration (Bytes × L) (Bool × Bytes × L)
  | (received, link) =>
    match Link.read link Link.readLimit with
    | (none, next) => .last (false, received, next)
    | (some [], next) => .last (true, received, next)
    | (some (b :: bytes), next) => .next (received ++ b :: bytes, next)

/-- Reading goes round once for each time that it gives bytes, and once more. -/
lemma gather_ends {L : Type} [Link L] {link : L} {more : Nat} (h : Link.RunsOut link more)
    (received : Bytes) :
    ∃ good bytes next, Ends gather (received, link) (good, bytes, next) (more + 1) := by
  induction h generalizing received with
  | fails hread => exact ⟨false, received, _, .last (by rw [gather, hread])⟩
  | givesNone hread => exact ⟨true, received, _, .last (by rw [gather, hread])⟩
  | gives hread hnext ih =>
      obtain ⟨good, bytes, next, hends⟩ := ih (received ++ _)
      exact ⟨good, bytes, next, .next (by rw [gather, hread]) hends⟩

/-- A link on which bytes run out runs out, and what is read of it is what the loop reads. -/
lemma exists_gather_ends {F : Type} [FiniteLink F] (received : Bytes) (link : F) :
    ∃ more, Link.RunsOut link more ∧
      Ends gather (received, link) (collect received link) (more + 1) := by
  fun_induction collect received link with
  | case1 received link next hread => exact ⟨0, .fails hread, .last (by rw [gather, hread])⟩
  | case2 received link next hread =>
      exact ⟨0, .givesNone hread, .last (by rw [gather, hread])⟩
  | case3 received link bytes next hread hne hlt ih =>
      obtain ⟨b, rest, rfl⟩ := List.exists_cons_of_ne_nil hne
      obtain ⟨more, hrunsOut, hends⟩ := ih
      exact ⟨more + 1, .gives hread hrunsOut, .next (by rw [gather, hread]) hends⟩

/-! ## Serving -/

section Serve

variable {D L : Type} [Device D] [Link L]

/-- One round of serving; the last number counts the answers. -/
def attend : Server × D × L × Nat → Iteration (Server × D × L × Nat) (Polled D L)
  | (server, device, link, count) =>
    if server.received = [] then
      .exit ⟨.ok count, server, device, link⟩
    else
      match turn server device link with
      | .finished after => .last ⟨.ok count, after, device, link⟩
      | .stuck fault after device link => .last ⟨.error fault, after, device, link⟩
      | .answered after device link => .next (after, device, link, count + 1)

def served : Server × D × L × Nat → Polled D L
  | (server, device, link, count) => serve server device link count

def roundsLeft : Server × D × L × Nat → Nat
  | (server, _, _, _) => server.work - 1

lemma falls_attend (state : Server × D × L × Nat) :
    Falls roundsLeft served state (attend state) := by
  obtain ⟨server, device, link, count⟩ := state
  by_cases hreceived : server.received = []
  · have hturn : turn server device link = .finished server := by rw [turn, if_pos hreceived]
    have hserved : served (server, device, link, count) = ⟨.ok count, server, device, link⟩ :=
      serve_of_finished hturn count
    rw [attend, if_pos hreceived, ← hserved]
    exact .exit
  · have hwork : 1 < server.work := server.node.receiver.one_lt_work hreceived
    have hleft : 0 < roundsLeft (server, device, link, count) := Nat.sub_pos_of_lt hwork
    rw [attend, if_neg hreceived]
    cases hturn : turn server device link with
    | finished after =>
        have hserved : served (server, device, link, count) = ⟨.ok count, after, device, link⟩ :=
          serve_of_finished hturn count
        simp only [← hserved]
        exact .last hleft
    | stuck fault after device' link' =>
        have hserved : served (server, device, link, count)
            = ⟨.error fault, after, device', link'⟩ := serve_of_stuck hturn count
        simp only [← hserved]
        exact .last hleft
    | answered after device' link' =>
        have hlt := work_lt_of_answered hturn
        exact .next (by rw [roundsLeft, roundsLeft]; omega) (serve_of_answered hturn count)

/-- Serving ends. -/
lemma attend_ends (server : Server) (device : D) (link : L) (count : Nat) :
    ∃ runs, Ends attend (server, device, link, count) (serve server device link count) runs ∧
      runs ≤ 2 * server.received.length := by
  obtain ⟨runs, hends, hruns⟩ := Iteration.ends_of_falls falls_attend (server, device, link, count)
  have hwork : server.work ≤ 2 * server.received.length + 1 :=
    server.node.receiver.work_le server.received
  refine ⟨runs, hends, ?_⟩
  rw [roundsLeft] at hruns
  omega

/-- How a poll returns over a link that gives bytes so many times: it has read as often and once
more, and either that failed or serving came to an end, in two rounds at most for each byte that was
there when it began. -/
inductive Returns (server : Server) (device : D) (link : L) (more : Nat) : Polled D L → Prop
  | unread {received : Bytes} {next : L}
      (hgather : Ends gather (server.received, link) (false, received, next) (more + 1)) :
      Returns server device link more
        ⟨.error .transport, { server with received := received }, device, next⟩
  | served {received : Bytes} {next : L} {polled : Polled D L} {runs : Nat}
      (hgather : Ends gather (server.received, link) (true, received, next) (more + 1))
      (hattend : Ends attend ({ server with received := received }, device, next, 0) polled runs)
      (hruns : runs ≤ 2 * received.length) : Returns server device link more polled

/-- A poll returns from where reading ended. -/
lemma returns_of_gather {server : Server} {link next : L} {more : Nat} {good : Bool}
    {received : Bytes}
    (hgather : Ends gather (server.received, link) (good, received, next) (more + 1)) (device : D) :
    Returns server device link more
      (match good with
      | false => ⟨.error .transport, { server with received := received }, device, next⟩
      | true => serve { server with received := received } device next 0) := by
  cases good with
  | false => exact .unread hgather
  | true =>
      obtain ⟨runs, hends, hruns⟩ := attend_ends { server with received := received } device next 0
      exact .served hgather hends hruns

/-- A poll returns in one way only. -/
lemma Returns.unique {server : Server} {device : D} {link : L} {more : Nat}
    {polled other : Polled D L} (h : Returns server device link more polled)
    (h' : Returns server device link more other) : other = polled := by
  cases h with
  | unread hgather =>
      cases h' with
      | unread hgather' => cases (hgather.unique hgather').1; rfl
      | served hgather' => cases (hgather.unique hgather').1
  | served hgather hattend =>
      cases h' with
      | unread hgather' => cases (hgather.unique hgather').1
      | served hgather' hattend' =>
          cases (hgather.unique hgather').1
          exact (hattend.unique hattend').1

/-- **The loops above the receiver return.**  A node that no request keeps from it looks through `n`
bytes in `2 * n` rounds at most, and is fed by that.  A poll returns over every link that runs out,
whatever the server was left with and whatever the device says.  Bytes run out on every finite link,
and there it returns what it is defined to. -/
theorem loops_return (server : Server) (device : D) (link : L) :
    (∀ (node : Node) (bytes : Bytes), node.isCalled = false →
      ∃ sought runs,
        Ends (Receiver.look (Report.call? node.station) bytes) (node.receiver, 0) sought runs ∧
          runs ≤ 2 * bytes.length ∧
          node.feed bytes = (.ok ⟨sought.found?, sought.taken⟩, { node with
            receiver := sought.receiver
            due := (sought.found?.map Call.due).getD .nothing })) ∧
      (∀ more, Link.RunsOut link more → ∃! polled, Returns server device link more polled) ∧
      ∀ {F : Type} [FiniteLink F] (finite : F), ∃ more, Link.RunsOut finite more ∧
        Returns server device finite more (poll server device finite) := by
  refine ⟨fun node bytes hcalled => node.look_ends hcalled bytes, fun more hlink => ?_, ?_⟩
  · obtain ⟨good, received, next, hgather⟩ := gather_ends hlink server.received
    have hreturns := returns_of_gather hgather device
    exact ⟨_, hreturns, fun _ => hreturns.unique⟩
  · intro F _ finite
    obtain ⟨more, hlink, hgather⟩ := exists_gather_ends server.received finite
    refine ⟨more, hlink, ?_⟩
    rw [poll]
    rcases hcollect : collect server.received finite with ⟨good, received, next⟩
    rw [hcollect] at hgather
    have hreturns := returns_of_gather hgather device
    cases good with
    | false => exact hreturns
    | true => exact hreturns

/-- A byte that may open a frame breaks two: one for another station, which the node passes over
without taking it, and one for its own station, of which a server is told without taking it. -/
theorem loops_return_at_left_byte :
    let node : Node := { Node.new ⟨12, by decide⟩ .plain with
      receiver := ((Receiver.start .commands .plain).feed [0x02, 0x33, 0x34]).receiver }
    let server : Server := ⟨{ node with station := ⟨34, by decide⟩ }, []⟩
    let device : FixedAnswers := ⟨.error .invalidParameter, .error .invalidParameter, false⟩
    let line := Line.empty.queue [0x04]
    (node.isCalled = false ∧
        (∃ later, Receiver.look (Report.call? node.station) [0x04] (node.receiver, 0)
          = .next (later, 0)) ∧
        ∃ sought runs,
          Ends (Receiver.look (Report.call? node.station) [0x04]) (node.receiver, 0) sought runs ∧
            runs ≤ 2) ∧
      (server.node.feed [0x04]).1 = .ok ⟨some (.malformed .framing), 0⟩ ∧
        Link.RunsOut line 1 ∧ ∃! polled, Returns server device line 1 polled := by
  intro node server device line
  have hcalled : node.isCalled = false := by decide
  have hline : Link.RunsOut line 1 := .gives rfl (.givesNone rfl)
  obtain ⟨hnode, hpoll, -⟩ := loops_return server device line
  obtain ⟨sought, runs, hends, hruns, -⟩ := hnode node [0x04] hcalled
  exact ⟨⟨hcalled, ⟨_, rfl⟩, sought, runs, hends, hruns⟩, by decide +kernel, hline, hpoll 1 hline⟩

end Serve

end Server

end FieldBus
