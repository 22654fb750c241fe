import FieldBus.Proofs.Reports

/-!
# Streams cut into chunks

A stream comes in chunks, and where it is cut is nobody's choice.  The host feeds every chunk until
none of it is left, which may take several calls: one for each report, and one more for a byte that
a defect leaves.  What it sees of the stream does not depend on the cuts, neither the reports nor
how many bytes of the stream were taken when each of them came, and the receiver behind it is the
same as well (**`Receiver.feedChunks_eq_of_flatten_eq`**).

A cut in front of a byte that is presented twice is the case that counts.  The byte then breaks the
frame in a call of its own, or in one that began in the same chunk; either way it is the first byte
of what is fed next.
-/

namespace FieldBus

namespace Receiver

variable {receiver : Receiver}

/-- Feeds chunk after chunk, each until none of it is left, and gives all the calls. -/
def feedChunks (receiver : Receiver) : List Bytes → List (Nat × Option Report) × Receiver
  | [] => ([], receiver)
  | chunk :: rest =>
    let fed := receiver.feedAll chunk
    let later := fed.2.feedChunks rest
    (fed.1 ++ later.1, later.2)

/-- The number of bytes that calls take. -/
def takenBy : List (Nat × Option Report) → Nat
  | [] => 0
  | (taken, _) :: later => taken + takenBy later

/-- The calls on a run take all of it. -/
lemma takenBy_feedAll (receiver : Receiver) (bytes : Bytes) :
    takenBy (receiver.feedAll bytes).1 = bytes.length := by
  induction receiver, bytes using feedAll.induct with
  | case1 receiver => rw [feedAll_nil]; rfl
  | case2 receiver b rest fed _ _ _ ih =>
      have hle : fed.taken ≤ (b :: rest).length := taken_feed_le receiver (b :: rest)
      rw [feedAll_of_feed (List.cons_ne_nil b rest) rfl, takenBy, ih, List.length_drop]
      exact Nat.add_sub_cancel' hle

lemma stamped_append (past : Nat) (calls later : List (Nat × Option Report)) :
    stamped past (calls ++ later) = stamped past calls ++ stamped (past + takenBy calls) later := by
  induction calls generalizing past with
  | nil => rfl
  | cons call rest ih =>
      rw [List.cons_append, stamped, stamped, ih, takenBy, Nat.add_assoc, List.append_assoc]

/-- What comes of chunks is what comes of the stream that they are cut from. -/
lemma feedChunks_flatten (receiver : Receiver) (past : Nat) (chunks : List Bytes) :
    stamped past (receiver.feedChunks chunks).1 = receiver.timeline past chunks.flatten ∧
      (receiver.feedChunks chunks).2 = receiver.after chunks.flatten := by
  induction chunks generalizing receiver past with
  | nil => simp [feedChunks, stamped]
  | cons chunk rest ih =>
      obtain ⟨htimeline, hafter⟩ := ih (receiver.after chunk) (past + chunk.length)
      rw [List.flatten_cons, timeline_append, after_append, ← htimeline, ← hafter]
      refine ⟨?_, rfl⟩
      rw [feedChunks, stamped_append, takenBy_feedAll]
      rfl

/-- **Cutting a stream does not change what is heard of it.**  Two ways of cutting a stream bring
the same reports, each when the same number of bytes was taken, and leave the same receiver.  A call
without a report has taken all that it was given. -/
theorem feedChunks_eq_of_flatten_eq (receiver : Receiver) {chunks others : List Bytes}
    (h : chunks.flatten = others.flatten) :
    stamped 0 (receiver.feedChunks chunks).1 = stamped 0 (receiver.feedChunks others).1 ∧
      (receiver.feedChunks chunks).2 = (receiver.feedChunks others).2 ∧
      ∀ bytes, (receiver.feed bytes).report? = none →
        (receiver.feed bytes).taken = bytes.length := by
  obtain ⟨hstamped, hafter⟩ := feedChunks_flatten receiver 0 chunks
  obtain ⟨hstamped', hafter'⟩ := feedChunks_flatten receiver 0 others
  refine ⟨?_, ?_, ?_⟩
  · rw [hstamped, hstamped', h]
  · rw [hafter, hafter', h]
  · intro bytes hreport
    exact taken_feed_of_none hreport

/-- A read request cut short by another, cut in front of the STX that interrupts it, and behind. -/
theorem feedChunks_eq_around_left_byte :
    ([[0x02, 0x31, 0x32], [], [0x02, 0x31, 0x32, 0x30, 0x30, 0x35, 0x03, 0x35]] :
        List Bytes).flatten
      = ([[0x02, 0x31, 0x32, 0x02], [0x31, 0x32, 0x30, 0x30, 0x35, 0x03, 0x35]] :
        List Bytes).flatten ∧
    stamped 0 ((start .commands .plain).feedChunks
        [[0x02, 0x31, 0x32], [], [0x02, 0x31, 0x32, 0x30, 0x30, 0x35, 0x03, 0x35]]).1
      = stamped 0 ((start .commands .plain).feedChunks
        [[0x02, 0x31, 0x32, 0x02], [0x31, 0x32, 0x30, 0x30, 0x35, 0x03, 0x35]]).1 := by
  have hflatten : ([[0x02, 0x31, 0x32], [], [0x02, 0x31, 0x32, 0x30, 0x30, 0x35, 0x03, 0x35]] :
      List Bytes).flatten
    = ([[0x02, 0x31, 0x32, 0x02], [0x31, 0x32, 0x30, 0x30, 0x35, 0x03, 0x35]] :
      List Bytes).flatten := rfl
  exact ⟨hflatten, (feedChunks_eq_of_flatten_eq _ hflatten).1⟩

end Receiver

end FieldBus
