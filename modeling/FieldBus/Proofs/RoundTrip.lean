import FieldBus.Proofs.Chunks
import FieldBus.Proofs.Grammar

/-!
# What is sent is what is heard

Frames are sent one behind the other, with filler between them that neither opens a frame nor is
one.  A receiver reports exactly these frames, each when its last byte was taken, however the stream
was cut (**`Receiver.feedChunks_sent`**).

The two directions differ in one frame.  A refusal of the parameter is a lone EOT; among the
commands that is no frame, and what comes behind it may still turn it into a select sequence.  So
the receiver is not between frames again behind every frame: it may rest behind an EOT.  As long as
no digit comes next, that makes no difference (`Receiver.Resting`), and the induction goes over the
frames with a receiver that rests either way (`Receiver.timeline_sent`).

* `Sent` — a frame in a stream, with the filler behind it.
* `Sent.bytes`, `Sent.arrivals` — the bytes of a stream, and where its frames are complete.
-/

namespace FieldBus

/-- A frame that is sent in a stream, and what lies between it and the next one. -/
structure Sent where
  frame : Frame
  filler : Bytes

namespace Sent

/-- The bytes of a stream. -/
def bytes (mode : CheckMode) : List Sent → Bytes
  | [] => []
  | item :: rest => (item.frame.encode mode).bytes ++ (item.filler ++ bytes mode rest)

/-- The frames of a stream that begins behind `past` bytes, each with the number of bytes up to its
last one. -/
def arrivals (mode : CheckMode) (past : Nat) : List Sent → List (Nat × Report)
  | [] => []
  | item :: rest =>
    let last := past + (item.frame.encode mode).bytes.length
    (last, .frame item.frame) :: arrivals mode (last + item.filler.length) rest

/-- A frame that can be sent in this direction: a select sequence is none of the replies, and among
the commands no digit may come right behind a lone EOT. -/
def Suits (item : Sent) : Traffic → Prop
  | .replies => ∀ station, item.frame ≠ .request (.select station)
  | .commands => item.frame = .reply (.refused .invalidParameter) →
    ∀ b ∈ item.filler.head?, Byte.isDigit b = false

end Sent

/-- Whether a report is one of this direction: a lone EOT is no frame among the commands. -/
def Report.isHeard : Traffic → Report → Bool
  | .replies, _ => true
  | .commands, report => report ≠ .frame (.reply (.refused .invalidParameter))

/-- What suits a direction has a word there, or is a lone EOT among the commands. -/
lemma Sent.Suits.cases {traffic : Traffic} {item : Sent} (h : item.Suits traffic) :
    (item.frame.IsLegible traffic ∧ Report.isHeard traffic (.frame item.frame) = true) ∨
      traffic = .commands ∧ item.frame = .reply (.refused .invalidParameter) ∧
        ∀ b ∈ item.filler.head?, Byte.isDigit b = false := by
  cases traffic with
  | replies =>
      refine .inl ⟨?_, rfl⟩
      unfold Frame.IsLegible
      split
      · next station hframe => exact absurd hframe (h station)
      · rfl
      · trivial
  | commands =>
      by_cases hframe : item.frame = .reply (.refused .invalidParameter)
      · exact .inr ⟨rfl, hframe, h hframe⟩
      · refine .inl ⟨?_, by simp [Report.isHeard, hframe]⟩
        unfold Frame.IsLegible
        split
        · rfl
        · next hrefused => exact absurd hrefused hframe
        · trivial

/-- What is noise among the replies is noise everywhere. -/
lemma Noise.of_replies {bytes : Bytes} (traffic : Traffic) (h : Noise .replies bytes) :
    Noise traffic bytes := by
  cases traffic with
  | replies => exact h
  | commands =>
      refine ⟨fun b hb => ⟨(h b hb).1, (h b hb).2.2⟩, ?_⟩
      induction bytes with
      | nil => exact .nil
      | cons b rest ih =>
          obtain ⟨hb, hrest⟩ := List.forall_mem_cons.mp h
          exact List.isChain_cons.mpr ⟨fun _ _ heot => absurd heot hb.2.1, ih hrest⟩

namespace Receiver

variable {receiver : Receiver} {sent : List Sent} {filler : Bytes}

/-- A word that is taken whole is reported at its last byte, and the rest is fed from there. -/
lemma timeline_of_feed {bytes : Bytes} {report : Report} {next : Receiver} (past : Nat)
    (h : receiver.feed bytes = ⟨some report, bytes.length, next⟩) (more : Bytes) :
    receiver.timeline past (bytes ++ more)
      = (past + bytes.length, report) :: next.timeline (past + bytes.length) more := by
  have hfeed := feed_append_of_report (by rw [h]) more
  rw [timeline_eq_feed, hfeed, h, List.drop_left]
  rfl

/-- A lone EOT among the commands is passed over. -/
lemma passes_eot (receiver : Receiver) {phase : Phase} (hphase : Resting phase)
    (hcommands : receiver.traffic = .commands) :
    (receiver.inPhase phase).Passes [Byte.eot] (.selectAddress .empty) := by
  refine .singleton ?_
  rw [step_of_resting receiver hphase fun _ => rfl, hcommands]
  rfl

/-- A receiver that rests reports a stream of frames, and rests again. -/
lemma timeline_sent (receiver : Receiver) {phase : Phase} (past : Nat) (hphase : Resting phase)
    (hhead : phase = .selectAddress .empty → ∀ b ∈ filler.head?, Byte.isDigit b = false)
    (hfiller : Noise .replies filler)
    (hsent : ∀ item ∈ sent, Noise .replies item.filler ∧ item.Suits receiver.traffic) :
    (receiver.inPhase phase).timeline past (filler ++ Sent.bytes receiver.mode sent)
      = (Sent.arrivals receiver.mode (past + filler.length) sent).filter
          fun arrival => Report.isHeard receiver.traffic arrival.2 := by
  induction sent generalizing phase filler past with
  | nil =>
      obtain ⟨last, -, hpasses⟩ :=
        passes_noise receiver hphase hhead (hfiller.of_replies receiver.traffic)
      rw [Sent.bytes, List.append_nil, hpasses.timeline]
      rfl
  | cons item rest ih =>
      obtain ⟨⟨hnoise, hsuits⟩, hrest⟩ := List.forall_mem_cons.mp hsent
      obtain ⟨last, hlast, hpasses⟩ :=
        passes_noise receiver hphase hhead (hfiller.of_replies receiver.traffic)
      rw [Sent.bytes, hpasses.timeline_append, inPhase_inPhase, Sent.arrivals]
      rcases hsuits.cases with ⟨hlegible, hheard⟩ | ⟨hcommands, hframe, hdigit⟩
      · have hword := Frame.wireWord_encode receiver.mode hlegible
        have hfeed := feed_wireWord (receiver.inPhase last) hword fun b hb =>
          step_of_resting receiver hlast fun _ => isDigit_head_wireWord hword b hb
        have htail := @ih item.filler .idle (past + filler.length
          + (item.frame.encode receiver.mode).bytes.length) (.inl rfl) (by simp) hnoise hrest
        rw [timeline_of_feed _ hfeed, inPhase_inPhase, htail, List.filter_cons, if_pos hheard]
      · -- the EOT is left open, and the filler behind it does not go on with it
        have heot : (item.frame.encode receiver.mode).bytes = [Byte.eot] := by
          rw [hframe]
          rfl
        have htail := @ih item.filler (.selectAddress .empty) (past + filler.length + 1) (.inr rfl)
          (fun _ => hdigit) hnoise hrest
        have hunheard : ¬ Report.isHeard receiver.traffic (.frame item.frame) = true := by
          rw [hcommands, hframe]
          exact Bool.false_ne_true
        rw [heot, (passes_eot receiver hlast hcommands).timeline_append, inPhase_inPhase,
          List.filter_cons, if_neg hunheard]
        exact htail

/-- **What is sent is what is heard.**  A receiver between frames is fed a stream of frames, cut in
any way.  Of the replies it reports all frames, each when its last byte was taken; of the commands
all but the lone EOTs; and nothing else. -/
theorem feedChunks_sent {chunks : List Bytes} (hidle : receiver.phase = .idle)
    (hfiller : Noise .replies filler) (hsent : ∀ item ∈ sent, Noise .replies item.filler)
    (hchunks : chunks.flatten = filler ++ Sent.bytes receiver.mode sent) :
    (receiver.traffic = .replies →
      (∀ item ∈ sent, ∀ station, item.frame ≠ .request (.select station)) →
      stamped 0 (receiver.feedChunks chunks).1
        = Sent.arrivals receiver.mode filler.length sent) ∧
    (receiver.traffic = .commands →
      (∀ item ∈ sent, item.frame = .reply (.refused .invalidParameter) →
        ∀ b ∈ item.filler.head?, Byte.isDigit b = false) →
      stamped 0 (receiver.feedChunks chunks).1
        = (Sent.arrivals receiver.mode filler.length sent).filter
            fun arrival => arrival.2 ≠ .frame (.reply (.refused .invalidParameter))) := by
  have hreceiver : receiver.inPhase .idle = receiver := by rw [← hidle, inPhase_phase]
  have htimeline : (∀ item ∈ sent, item.Suits receiver.traffic) →
      stamped 0 (receiver.feedChunks chunks).1
        = (Sent.arrivals receiver.mode filler.length sent).filter
            fun arrival => Report.isHeard receiver.traffic arrival.2 := by
    intro hsuits
    have h := timeline_sent receiver 0 (.inl rfl) (by simp) hfiller
      fun item hitem => ⟨hsent item hitem, hsuits item hitem⟩
    rw [hreceiver, Nat.zero_add] at h
    rw [(feedChunks_flatten receiver 0 chunks).1, hchunks, h]
  constructor
  · intro hreplies hselect
    rw [hreplies] at htimeline
    rw [htimeline hselect]
    exact List.filter_eq_self.mpr fun _ _ => rfl
  · intro hcommands heot
    rw [hcommands] at htimeline
    exact htimeline heot

/-- A lone EOT, a select sequence right behind it, and an acknowledgement behind a digit. -/
theorem feedChunks_sent_behind_lone_eot :
    stamped 0 ((start .commands .plain).feedChunks
        [[0x35, 0x04], [], [0x04, 0x30], [0x37, 0x05, 0x31, 0x06]]).1
      = [(6, .frame (.request (.select ⟨7, by decide⟩))), (8, .frame (.reply .ack))] := by
  have hsent := @feedChunks_sent (.start .commands .plain)
    [⟨.reply (.refused .invalidParameter), []⟩, ⟨.request (.select ⟨7, by decide⟩), [0x31]⟩,
      ⟨.reply .ack, []⟩] [0x35] [[0x35, 0x04], [], [0x04, 0x30], [0x37, 0x05, 0x31, 0x06]]
    rfl (by simp [Noise]; decide) (by simp [Noise]; decide) rfl
  rw [hsent.2 rfl (by simp)]
  rfl

end Receiver

end FieldBus
