import FieldBus.Proofs.Grammar
import FieldBus.Proofs.Provenance
import FieldBus.Proofs.Reports

/-!
# Words delivered in chunks

On a wire a word arrives in chunks, and who listens is fed one chunk after the other.  What comes of
the chunks does not depend on where the cuts are: all but the last are taken in silence, and the
last brings what the word brings.

* `Cutting` — a way of cutting bytes into chunks, none of them empty.
* `Receiver.passes_of_feed_append` — the reason: a word is complete with its last byte and not
  before.  `Receiver.first_chunk_cases` is the induction step that comes of it.
* **`Node.feedEach_of_unwanted`**, **`Node.feedEach_of_call`** — a node that is not meant, and one
  that is.
* **`Controller.feedEach_of_report`** — a controller that gets its answer.
-/

namespace FieldBus

/-- A way of cutting bytes into chunks, none of them empty. -/
structure Cutting where
  cut : Bytes → List Bytes
  flatten_cut : ∀ bytes, (cut bytes).flatten = bytes
  ne_nil_of_mem : ∀ bytes, ∀ chunk ∈ cut bytes, chunk ≠ []

/-- One byte at a time. -/
def Cutting.bytewise : Cutting where
  cut bytes := bytes.map fun b => [b]
  flatten_cut bytes := by
    induction bytes with
    | nil => rfl
    | cons b rest ih => rw [List.map_cons, List.flatten_cons, ih, List.singleton_append]
  ne_nil_of_mem bytes := by
    rintro chunk hmem
    obtain ⟨b, -, rfl⟩ := List.mem_map.mp hmem
    exact List.cons_ne_nil b []

/-- What comes of chunks of which the last completes something. -/
def atLast {α : Type} (before last : Bytes → α) : List Bytes → List α
  | [] => []
  | [chunk] => [last chunk]
  | chunk :: next :: rest => before chunk :: atLast before last (next :: rest)

lemma atLast_cons {α : Type} {before last : Bytes → α} {chunk : Bytes} {rest : List Bytes}
    (h : rest ≠ []) :
    atLast before last (chunk :: rest) = before chunk :: atLast before last rest := by
  obtain ⟨next, others, rfl⟩ := List.exists_cons_of_ne_nil h
  rfl

namespace Receiver

variable {receiver next : Receiver} {bytes more : Bytes} {report : Report}

/-- If a report comes with the last byte, then the bytes before pass. -/
lemma passes_of_feed_append
    (h : receiver.feed (bytes ++ more) = ⟨some report, (bytes ++ more).length, next⟩)
    (hmore : more ≠ []) :
    ∃ phase, receiver.Passes bytes phase ∧
      (receiver.inPhase phase).feed more = ⟨some report, more.length, next⟩ := by
  have hnone : (receiver.feed bytes).report? = none := by
    cases hreport : (receiver.feed bytes).report? with
    | none => rfl
    | some early =>
        have hle := taken_feed_le receiver bytes
        have hpos := List.length_pos_iff.mpr hmore
        rw [← feed_append_of_report hreport more, h, List.length_append] at hle
        exact absurd hle (by simp only; omega)
  have hpasses := passes_of_report_eq_none hnone
  refine ⟨_, hpasses, ?_⟩
  rw [hpasses.feed_append, List.length_append] at h
  obtain ⟨hreport, htaken, hnext⟩ := Fed.mk.inj h
  rw [← hreport, ← hnext, ← Nat.add_left_cancel htaken]

/-- If a report comes with the last of several chunks, then either there is one chunk alone, or it
passes and the report comes with the last of the others. -/
lemma first_chunk_cases {chunk : Bytes} {rest : List Bytes} (hne : ∀ other ∈ rest, other ≠ [])
    (h : receiver.feed (chunk :: rest).flatten
      = ⟨some report, (chunk :: rest).flatten.length, next⟩) :
    (rest = [] ∧ receiver.feed chunk = ⟨some report, chunk.length, next⟩) ∨
      rest ≠ [] ∧ ∃ phase, receiver.Passes chunk phase ∧
        (receiver.inPhase phase).feed rest.flatten
          = ⟨some report, rest.flatten.length, next⟩ := by
  rw [List.flatten_cons] at h
  cases rest with
  | nil =>
      rw [List.flatten_nil, List.append_nil] at h
      exact .inl ⟨rfl, h⟩
  | cons second others =>
      have hmore : (second :: others).flatten ≠ [] := by
        rw [List.flatten_cons]
        exact List.append_ne_nil_of_left_ne_nil (hne second (List.mem_cons_self ..)) _
      exact .inr ⟨List.cons_ne_nil _ _, passes_of_feed_append h hmore⟩

lemma seek_of_feed {α : Type} {want : Report → Option α} {a : α} (hne : bytes ≠ [])
    (h : receiver.feed bytes = ⟨some report, bytes.length, next⟩) (hwant : want report = some a) :
    receiver.seek want bytes = ⟨some a, bytes.length, next⟩ := by
  obtain ⟨b, rest, rfl⟩ := List.exists_cons_of_ne_nil hne
  rw [seek, h]
  dsimp only
  rw [hwant]

lemma seek_of_passes {α : Type} (want : Report → Option α) {phase : Phase}
    (h : receiver.Passes bytes phase) :
    receiver.seek want bytes = ⟨none, bytes.length, receiver.inPhase phase⟩ := by
  rw [seek_of_unwanted want (by rw [h.reports, List.filterMap_nil]), h.after]

end Receiver

/-! ## Nodes -/

namespace Node

variable {node : Node} {chunks : List Bytes}

/-- Feeds chunk after chunk, and gives what came of each. -/
def feedEach (node : Node) : List Bytes → List (Except Fault Heard) × Node
  | [] => ([], node)
  | chunk :: rest =>
    let fed := node.feed chunk
    let later := fed.2.feedEach rest
    (fed.1 :: later.1, later.2)

/-- A chunk that was taken whole without a call. -/
def silently (chunk : Bytes) : Except Fault Heard := .ok ⟨none, chunk.length⟩

/-- A chunk with the end of which the node was called. -/
def calledBy (call : Call) (chunk : Bytes) : Except Fault Heard := .ok ⟨some call, chunk.length⟩

lemma feed_of_seek {sought : Receiver.Sought Call} {chunk : Bytes} (hdue : node.due = .nothing)
    (h : node.receiver.seek (Report.call? node.station) chunk = sought) :
    node.feed chunk = (.ok ⟨sought.found?, sought.taken⟩,
      { node with
        receiver := sought.receiver
        due := (sought.found?.map Call.due).getD .nothing }) := by
  rw [Node.feed, if_neg (by simp [isCalled, hdue]), h]

/-- A chunk without a call for the node changes its receiver alone. -/
lemma feed_of_silent {chunk : Bytes} {receiver : Receiver} (hdue : node.due = .nothing)
    (h : node.receiver.seek (Report.call? node.station) chunk = ⟨none, chunk.length, receiver⟩) :
    node.feed chunk = (silently chunk, { node with receiver := receiver }) := by
  rw [feed_of_seek hdue h]
  obtain ⟨_, _, _, _⟩ := node
  obtain rfl := hdue
  rfl

/-- **A run without a call for the node** is taken in silence, however it is cut. -/
theorem feedEach_of_unwanted (hdue : node.due = .nothing)
    (h : (node.receiver.reports chunks.flatten).filterMap (Report.call? node.station) = []) :
    node.feedEach chunks = (chunks.map silently,
      { node with receiver := node.receiver.after chunks.flatten }) := by
  induction chunks generalizing node with
  | nil => rw [feedEach, List.flatten_nil, Receiver.after_nil, List.map_nil]
  | cons chunk rest ih =>
      rw [List.flatten_cons, Receiver.reports_append, List.filterMap_append,
        List.append_eq_nil_iff] at h
      have hfeed := feed_of_silent hdue (Receiver.seek_of_unwanted _ h.1)
      have hrest := @ih { node with receiver := node.receiver.after chunk } hdue h.2
      rw [feedEach, hfeed, hrest, List.flatten_cons, Receiver.after_append, List.map_cons]

/-- **A run that ends with a call for the node** calls it with the last chunk, however it is cut. -/
theorem feedEach_of_call {report : Report} {call : Call} {next : Receiver}
    (hdue : node.due = .nothing) (hne : ∀ chunk ∈ chunks, chunk ≠ [])
    (hfeed : node.receiver.feed chunks.flatten = ⟨some report, chunks.flatten.length, next⟩)
    (hcall : report.call? node.station = some call) :
    node.feedEach chunks = (atLast silently (calledBy call) chunks,
      { node with receiver := next, due := call.due }) := by
  induction chunks generalizing node with
  | nil => cases hfeed
  | cons chunk rest ih =>
      obtain ⟨hchunk, hrest⟩ := List.forall_mem_cons.mp hne
      rcases Receiver.first_chunk_cases hrest hfeed with
        ⟨rfl, hlast⟩ | ⟨hmore, phase, hpasses, hlast⟩
      · rw [feedEach, feed_of_seek hdue (Receiver.seek_of_feed hchunk hlast hcall)]
        rfl
      · have hlater := @ih { node with receiver := node.receiver.inPhase phase } hdue hrest
          hlast hcall
        rw [feedEach, feed_of_silent hdue (Receiver.seek_of_passes _ hpasses), hlater,
          atLast_cons hmore]

end Node

/-! ## Controllers -/

namespace Controller

variable {controller : Controller} {exchange : Exchange} {chunks : List Bytes}

/-- **An answer that ends with a report** ends the exchange with the last chunk, however it is
cut. -/
theorem feedEach_of_report {report : Report} {next : Receiver}
    (hexchange : controller.exchange? = some exchange) (hne : ∀ chunk ∈ chunks, chunk ≠ [])
    (hfeed : exchange.replies.feed chunks.flatten
      = ⟨some report, chunks.flatten.length, next⟩) :
    controller.feedEach chunks =
      (atLast (fun _ => .ok none)
        (fun _ => .ok (some (exchange.kind.ending (exchange.kind.judge report)))) chunks,
        { controller with
          exchange? := none
          outcome? := some (exchange.kind.ending (exchange.kind.judge report)).outcome }) := by
  induction chunks generalizing controller exchange with
  | nil => cases hfeed
  | cons chunk rest ih =>
      obtain ⟨-, hrest⟩ := List.forall_mem_cons.mp hne
      rcases Receiver.first_chunk_cases hrest hfeed with
        ⟨rfl, hlast⟩ | ⟨hmore, phase, hpasses, hlast⟩
      · simp [feedEach, Controller.feed, hexchange, Exchange.feed, hlast, atLast]
      · have hlater := @ih
          { controller with
            exchange? := some { exchange with replies := exchange.replies.inPhase phase } }
          { exchange with replies := exchange.replies.inPhase phase } rfl hrest hlast
        rw [Receiver.Passes] at hpasses
        rw [feedEach, Controller.feed, hexchange]
        simp only [Exchange.feed, hpasses, Option.map_none]
        rw [hlater, atLast_cons hmore]

end Controller

end FieldBus
