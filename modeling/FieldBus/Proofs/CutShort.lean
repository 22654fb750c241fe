import FieldBus.Proofs.Delivery
import FieldBus.Proofs.Serving

/-!
# Requests cut short

When a link fails while a request is written, only its first bytes reach the line, and what comes
next stands right behind them.  The receiver finds out with the opening byte of what comes next: it
drops the frame that it holds and reports a defect, with the station of the frame if it has got that
far.  Nothing of a request that was cut short is ever mistaken for a request
(**`Cut.reports_flatten_append`**).

* `Cut` — a request with the number of its bytes that came through.
* `Cut.Names` — whether a station can know that it was meant: the opening byte and both digits of
  its number came through.
* `Phase.keeps_step`, `Receiver.passes_within` — within a frame, what it names stays what it is.
* `Cut.exists_passes` — the phase behind a cut.
-/

namespace FieldBus

namespace Phase

/-! ## A frame goes on for the same station -/

/-- As long as a byte tells of nothing, the frame names this station. -/
inductive Keeps (station : Station) : Step → Prop
  | silent {next : Phase} (h : next.station? = some station) : Keeps station (.silent next)
  | report {report : Report} {next : Phase} : Keeps station (.report report next)
  | leave {defect : Defect} : Keeps station (.leave defect)

variable {traffic : Traffic} {mode : CheckMode} {phase : Phase} {station : Station} {b : UInt8}

lemma keeps_fail (fault : Fault) : Keeps station (phase.fail fault b) := by
  rw [fail]
  split_ifs
  · exact .leave
  · exact .report
  · exact .report
  · exact .report

lemma keeps_extend {body : Bytes} {next : Bytes → Phase}
    (h : (next (body ++ [b])).station? = some station) :
    Keeps station (phase.extend body b next) := by
  rw [extend]
  split_ifs
  · exact .silent h
  · exact keeps_fail _

lemma keeps_complete {α : Type} {number : Except Fault α} {next : α → Step}
    (h : ∀ a, Keeps station (next a)) : Keeps station (phase.complete b number next) := by
  cases number with
  | ok a => exact h a
  | error fault => exact keeps_fail fault

lemma keeps_step (hstation : phase.station? = some station) :
    Keeps station (phase.step traffic mode b) := by
  cases phase with
  | parameter body target field =>
      rw [step]
      cases Byte.digit b with
      | error fault => exact keeps_fail _
      | ok d =>
          dsimp only
          split_ifs
          · exact keeps_complete fun _ => keeps_extend hstation
          · exact keeps_extend hstation
  | terminator body target parameter =>
      rw [step]
      split_ifs
      · exact keeps_extend hstation
      · exact keeps_extend hstation
      · exact keeps_fail _
  | value body target negative field =>
      cases target with
      | none => cases hstation
      | some pair =>
          by_cases hetx : b = Byte.etx
          · rw [step, if_pos hetx]
            by_cases hempty : field.count = 0
            · rw [if_pos hempty]
              exact keeps_fail _
            · rw [if_neg hempty]
              exact keeps_complete fun _ => keeps_extend hstation
          · rw [step, if_neg hetx]
            cases Byte.digit b with
            | error fault => exact keeps_fail _
            | ok d =>
                dsimp only
                split_ifs
                · exact keeps_fail _
                · exact keeps_extend hstation
  | checksum body frame =>
      rw [step]
      split_ifs
      · exact .report
      · exact keeps_fail _
  | selectTerminator target =>
      rw [step]
      split_ifs
      · exact .report
      · exact keeps_fail _
  | _ => cases hstation

end Phase

namespace Receiver

variable {receiver : Receiver} {b : UInt8} {rest bytes : Bytes} {next : Phase}

/-- Bytes that pass within a frame leave the receiver within it, and leave the station that the
frame names. -/
lemma passes_within {seen : Bytes} (hopen : receiver.phase.isOpen = true)
    (hholds : receiver.phase.Holds receiver.traffic seen) (h : receiver.Passes bytes next) :
    next.isOpen = true ∧ (∃ held, next.Holds receiver.traffic held) ∧
      ∀ station, receiver.phase.station? = some station → next.station? = some station := by
  induction bytes generalizing receiver seen with
  | nil =>
      have hnext : receiver.phase = next := congrArg (fun fed => fed.receiver.phase) h
      rw [← hnext]
      exact ⟨hopen, ⟨seen, hholds⟩, fun _ hstation => hstation⟩
  | cons b rest ih =>
      obtain ⟨phase, hstep, hpasses⟩ := h.exists_step
      have hstepped := Phase.step_of_isOpen receiver.mode b hholds hopen
      rw [← step, hstep] at hstepped
      cases hstepped with
      | on hphaseOpen hphase =>
          obtain ⟨hnextOpen, hheld, hnamed⟩ :=
            @ih (receiver.inPhase phase) _ hphaseOpen hphase hpasses
          refine ⟨hnextOpen, hheld, fun station hstation => hnamed station ?_⟩
          have hkeeps := @Phase.keeps_step receiver.traffic receiver.mode _ station b hstation
          rw [← step, hstep] at hkeeps
          cases hkeeps with
          | silent hphaseStation => exact hphaseStation

/-- An opening byte behind an open frame breaks that frame and is then treated as between
frames. -/
lemma reports_of_isOpen {seen : Bytes} (hopen : receiver.phase.isOpen = true)
    (hholds : receiver.phase.Holds receiver.traffic seen) (hb : Byte.opensFrame b = true) :
    ∃ fault, receiver.reports (b :: rest)
        = .defect ⟨fault, receiver.station?⟩ :: (receiver.inPhase .idle).reports (b :: rest) ∧
      receiver.after (b :: rest) = (receiver.inPhase .idle).after (b :: rest) := by
  obtain ⟨fault, hstep⟩ := Phase.step_of_opensFrame receiver.mode hholds hopen hb
  refine ⟨fault, ?_, ?_⟩
  · rw [reports_eq_feed, feed_cons_of_leave hstep]
    rfl
  · rw [after_eq_feed, feed_cons_of_leave hstep]
    rfl

end Receiver

/-! ## Cuts -/

/-- A request of which only the first bytes come through. -/
structure Cut (mode : CheckMode) where
  request : Request
  length : Nat
  isProper : length < ((Frame.request request).encode mode).bytes.length

/-- The bytes begin with one that opens a frame. -/
def Opens (bytes : Bytes) : Prop := ∃ b rest, bytes = b :: rest ∧ Byte.opensFrame b = true

namespace Cut

variable {mode : CheckMode}

/-- What comes through. -/
def bytes (cut : Cut mode) : Bytes :=
  ((Frame.request cut.request).encode mode).bytes.take cut.length

/-- Whether so much of the request came through that it names the station. -/
def Names (cut : Cut mode) (station : Station) : Prop :=
  cut.request.station = station ∧ 3 ≤ cut.length

instance (cut : Cut mode) (station : Station) : Decidable (cut.Names station) :=
  inferInstanceAs (Decidable (_ ∧ _))

end Cut

/-- Every request begins with an opening byte and the two digits of its station, and goes on. -/
lemma Request.exists_encode (mode : CheckMode) (request : Request) :
    ∃ b x y rest, ((Frame.request request).encode mode).bytes = b :: x :: y :: rest ∧
      Byte.opensFrame b = true ∧ request.station.field = [x, y] := by
  obtain ⟨x, y, hfield⟩ := List.length_eq_two.mp request.station.spelling_field.length_eq
  cases request with
  | read station parameter =>
      rw [Request.station] at hfield
      rw [Frame.bytes_encode_read, hfield]
      exact ⟨Byte.stx, x, y, _, rfl, rfl, hfield⟩
  | write station parameter value =>
      rw [Request.station] at hfield
      rw [Frame.bytes_encode_write, hfield]
      exact ⟨Byte.stx, x, y, _, rfl, rfl, hfield⟩
  | select station =>
      rw [Request.station] at hfield
      rw [Frame.bytes_encode_select, hfield]
      exact ⟨Byte.eot, x, y, _, rfl, rfl, hfield⟩

lemma opens_request (mode : CheckMode) (request : Request) :
    Opens ((Frame.request request).encode mode).bytes := by
  obtain ⟨b, x, y, rest, hbytes, hb, -⟩ := request.exists_encode mode
  exact ⟨b, x :: y :: rest, hbytes, hb⟩

namespace Cut

variable {mode : CheckMode}

lemma opens (cut : Cut mode) (hpos : 0 < cut.length) : Opens cut.bytes := by
  obtain ⟨b, rest, hbytes, hb⟩ := opens_request mode cut.request
  obtain ⟨k, hk⟩ := Nat.exists_eq_add_of_lt hpos
  refine ⟨b, rest.take k, ?_, hb⟩
  rw [bytes, hbytes, hk, Nat.zero_add, List.take_succ_cons]

/-- A cut is complete nowhere. -/
lemma passes (cut : Cut mode) :
    ∃ phase, (Receiver.start .commands mode).Passes cut.bytes phase := by
  have hfeed := Receiver.feed_wireWord (.start .commands mode)
    (Frame.wireWord_request mode cut.request) fun _ _ => rfl
  rw [← List.take_append_drop cut.length ((Frame.request cut.request).encode mode).bytes] at hfeed
  obtain ⟨phase, hpasses, -⟩ := Receiver.passes_of_feed_append hfeed
    (by simpa [List.drop_eq_nil_iff] using cut.isProper)
  exact ⟨phase, hpasses⟩

/-- **The phase behind a cut.**  The receiver is within a frame, which names the station if it has
got that far; a lone EOT could also be something else. -/
lemma exists_passes (cut : Cut mode) (hpos : 0 < cut.length) :
    ∃ phase, (Receiver.start .commands mode).Passes cut.bytes phase ∧
      phase.station? = (if 3 ≤ cut.length then some cut.request.station else none) ∧
      ((phase.isOpen = true ∧ ∃ seen, phase.Holds .commands seen) ∨
        phase = .selectAddress .empty) := by
  obtain ⟨b, x, y, rest, hword, hb, hfield⟩ := cut.request.exists_encode mode
  have hspelling := cut.request.station.spelling_field
  rw [hfield] at hspelling
  have hx : Byte.isDigit x = true := (Decimal.allDigits_cons.mp hspelling.denotes.allDigits).1
  have hpasses := cut.passes
  rw [bytes, hword] at hpasses ⊢
  match hlength : cut.length, hpos with
  | 1, _ =>
      rw [if_neg (by omega)]
      rcases Byte.opensFrame_iff.mp hb with rfl | rfl
      · exact ⟨_, .singleton rfl, rfl, .inl ⟨rfl, _, .address_nil⟩⟩
      · exact ⟨_, .singleton rfl, rfl, .inr rfl⟩
  | 2, _ =>
      rw [if_neg (by omega)]
      rcases Byte.opensFrame_iff.mp hb with rfl | rfl
      · exact ⟨_, .cons _ rfl (.singleton (Receiver.step_address_nil _ hx)), rfl,
          .inl ⟨rfl, _, .address (by simp [hx]) (by simp)⟩⟩
      · exact ⟨_, .cons _ rfl (.singleton (Receiver.step_selectAddress_nil _ hx)), rfl,
          .inl ⟨rfl, _, .selectAddress rfl (by simp [hx]) (by simp)⟩⟩
  | k + 3, _ =>
      rw [if_pos (by omega)]
      obtain ⟨middle, hfront, hopen, hholds, hstation⟩ : ∃ middle,
          (Receiver.start .commands mode).Passes [b, x, y] middle ∧ middle.isOpen = true ∧
          (∃ seen, middle.Holds .commands seen) ∧
          middle.station? = some cut.request.station := by
        rcases Byte.opensFrame_iff.mp hb with rfl | rfl
        · exact ⟨_, .cons _ rfl (Receiver.passes_station _ hspelling), rfl,
            ⟨_, .parameter_nil hspelling⟩, rfl⟩
        · exact ⟨_, .cons _ rfl (Receiver.passes_selectAddress _ hspelling), rfl,
            ⟨_, .selectTerminator rfl hspelling⟩, rfl⟩
      obtain ⟨seen, hholds⟩ := hholds
      rw [hlength] at hpasses
      obtain ⟨last, hpasses⟩ := hpasses
      have hall : (Receiver.start .commands mode).Passes ([b, x, y] ++ rest.take k) last := hpasses
      obtain ⟨hlastOpen, hheld, hnamed⟩ :=
        Receiver.passes_within hopen hholds (hfront.of_append hall)
      exact ⟨last, hpasses, hnamed _ hstation, .inl ⟨hlastOpen, hheld⟩⟩

/-- **Behind one cut** an opening byte is understood as between frames, after a defect at most.  A
station is called to that defect if the cut names it. -/
lemma reports_append (cut : Cut mode) (hpos : 0 < cut.length) {more : Bytes} (hmore : Opens more)
    (station : Station) :
    ∃ passed faults, (Receiver.start .commands mode).reports (cut.bytes ++ more)
        = passed ++ (Receiver.start .commands mode).reports more ∧
      (Receiver.start .commands mode).after (cut.bytes ++ more)
        = (Receiver.start .commands mode).after more ∧
      passed.filterMap (Report.call? station) = faults.map Call.malformed ∧
      (faults ≠ [] ↔ cut.Names station) := by
  obtain ⟨b, rest, rfl, hb⟩ := hmore
  obtain ⟨phase, hpasses, hstation, hphase⟩ := cut.exists_passes hpos
  rw [hpasses.reports_append, hpasses.after_append]
  rcases hphase with ⟨hopen, seen, hholds⟩ | rfl
  · obtain ⟨fault, hreports, hafter⟩ := @Receiver.reports_of_isOpen
      ((Receiver.start .commands mode).inPhase phase) b rest seen hopen hholds hb
    by_cases hnames : cut.Names station
    · have hnamed : phase.station? = some station := by
        rw [hstation, if_pos hnames.2, hnames.1]
      exact ⟨[.defect ⟨fault, phase.station?⟩], [fault], hreports, hafter,
        by simp [Report.call?, hnamed], by simp [hnames]⟩
    · have hunnamed : phase.station? ≠ some station := by
        rw [hstation]
        split_ifs with hlength
        · exact fun h => hnames ⟨Option.some.inj h, hlength⟩
        · exact (Option.some_ne_none station).symm
      exact ⟨[.defect ⟨fault, phase.station?⟩], [], hreports, hafter,
        by simp [Report.call?, hunnamed], by simp [hnames]⟩
  · have hfeed := @Receiver.feed_of_step_eq (.start .commands mode) b rest (.selectAddress .empty)
      (Receiver.step_selectAddress_empty _ (Byte.isDigit_of_opensFrame hb))
    have hunnamed : ¬cut.Names station := by
      intro hnames
      rw [if_pos hnames.2] at hstation
      cases hstation
    refine ⟨[], [], ?_, ?_, rfl, by simp [hunnamed]⟩
    · rw [Receiver.reports_eq_feed, hfeed, ← Receiver.reports_eq_feed, List.nil_append]
    · rw [Receiver.after_eq_feed, hfeed, ← Receiver.after_eq_feed]

lemma opens_flatten_append {cuts : List (Cut mode)} (hpos : ∀ cut ∈ cuts, 0 < cut.length)
    {more : Bytes} (hmore : Opens more) : Opens ((cuts.map bytes).flatten ++ more) := by
  cases cuts with
  | nil => exact hmore
  | cons cut rest =>
      obtain ⟨b, tail, hbytes, hb⟩ := cut.opens (hpos cut (List.mem_cons_self ..))
      exact ⟨b, tail ++ ((rest.map bytes).flatten ++ more), by simp [hbytes], hb⟩

/-- **Behind several cuts** it is the same: what comes next is understood as between frames, and a
station is called to defects in front of it if one of the cuts names it. -/
theorem reports_flatten_append (cuts : List (Cut mode)) (hpos : ∀ cut ∈ cuts, 0 < cut.length)
    {more : Bytes} (hmore : Opens more) (station : Station) :
    ∃ passed faults, (Receiver.start .commands mode).reports ((cuts.map bytes).flatten ++ more)
        = passed ++ (Receiver.start .commands mode).reports more ∧
      (Receiver.start .commands mode).after ((cuts.map bytes).flatten ++ more)
        = (Receiver.start .commands mode).after more ∧
      passed.filterMap (Report.call? station) = faults.map Call.malformed ∧
      (faults ≠ [] ↔ ∃ cut ∈ cuts, cut.Names station) := by
  induction cuts with
  | nil => exact ⟨[], [], rfl, rfl, rfl, by simp⟩
  | cons cut rest ih =>
      obtain ⟨hcut, hrest⟩ := List.forall_mem_cons.mp hpos
      obtain ⟨later, laterFaults, hlater, hlaterAfter, hlaterCalls, hlaterNames⟩ := ih hrest
      obtain ⟨first, firstFaults, hfirst, hfirstAfter, hfirstCalls, hfirstNames⟩ :=
        cut.reports_append hcut (opens_flatten_append hrest hmore) station
      rw [List.map_cons, List.flatten_cons, List.append_assoc]
      refine ⟨first ++ later, firstFaults ++ laterFaults, ?_, ?_, ?_, ?_⟩
      · rw [hfirst, hlater, List.append_assoc]
      · rw [hfirstAfter, hlaterAfter]
      · rw [List.filterMap_append, hfirstCalls, hlaterCalls, List.map_append]
      · rw [List.exists_mem_cons_iff, ← hfirstNames, ← hlaterNames, ne_eq,
          List.append_eq_nil_iff, not_and_or]

/-- Of several cuts, with nothing behind them, the receiver holds the last. -/
lemma after_flatten (cuts : List (Cut mode)) (hpos : ∀ cut ∈ cuts, 0 < cut.length) :
    (Receiver.start .commands mode).reports (cuts.getLast?.toList.map bytes).flatten = [] ∧
      (Receiver.start .commands mode).after (cuts.map bytes).flatten
        = (Receiver.start .commands mode).after (cuts.getLast?.toList.map bytes).flatten := by
  rcases List.eq_nil_or_concat cuts with rfl | ⟨front, last, rfl⟩
  · exact ⟨Receiver.reports_nil, rfl⟩
  · rw [List.concat_eq_append] at hpos ⊢
    obtain ⟨hfront, hlast⟩ := List.forall_mem_append.mp hpos
    obtain ⟨phase, hpasses⟩ := last.passes
    obtain ⟨-, -, -, hafter, -⟩ := reports_flatten_append front hfront
      (last.opens (hlast last (List.mem_singleton_self last))) last.request.station
    have hsingle : ((front ++ [last]).getLast?.toList.map bytes).flatten = last.bytes := by simp
    rw [hsingle, List.map_append, List.flatten_append]
    exact ⟨hpasses.reports, by simpa using hafter⟩

end Cut

end FieldBus
