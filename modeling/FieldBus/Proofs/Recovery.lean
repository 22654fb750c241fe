import FieldBus.Proofs.Reports
import FieldBus.Proofs.Resynchronization

/-!
# One error for one broken frame

A checked frame in which one byte was replaced by one that is no control byte costs one defect, and
the next frame that opens with an STX or an EOT is reported right behind it, in either mode
(**`Receiver.reports_damaged_append`**).

What a receiver does with the damaged frame depends only on where its ETX is.

* While no ETX comes, the receiver is within the body or, once the body is broken, skips
  (`Receiver.within_body`).  If the ETX is the byte that was replaced, this is how the frame ends:
  its check byte is skipped or taken for a digit, and the next opening byte costs the defect if
  there was none so far.
* If the ETX is there, it ends the body or the skipping, and the check byte is the last of the
  frame.  A body that got so far has the wrong check byte, because the bytes of a body differ too
  little for the printable mode to hide the change (`Frame.Body.checkByte_ne`).

`Receiver.damaged_cases` puts the two together, and the next frame is then only a matter of where
the receiver is.
-/

namespace FieldBus

/-- The bytes that may stand in the body of a frame in front of its ETX, as far as a receiver that
skips can tell: they neither open a frame nor end a body. -/
def Byte.IsInner (b : UInt8) : Prop := opensFrame b = false ∧ b ≠ etx

/-! ## Steps within a body -/

namespace Phase

/-- What a byte that opens no frame can do within a body. -/
inductive BodyStep (b : UInt8) : Step → Prop
  | within {next : Phase} (hetx : b ≠ Byte.etx) (hnext : next.inBody = true) :
      BodyStep b (.silent next)
  | closed {body : Bytes} {frame : Frame} (hetx : b = Byte.etx) :
      BodyStep b (.silent (.checksum body frame))
  | broken {defect : Defect} :
      BodyStep b (.report (.defect defect) (if b = Byte.etx then .skippingCheck else .skipping))

variable {traffic : Traffic} {mode : CheckMode} {phase : Phase} {b : UInt8}

lemma bodyStep_fail (hbody : phase.inBody = true) (hb : Byte.opensFrame b = false)
    (fault : Fault) : BodyStep b (phase.fail fault b) := by
  rw [fail, if_neg (by simp [hb]), if_pos hbody]
  exact .broken

lemma bodyStep_extend (hbody : phase.inBody = true) (hb : Byte.opensFrame b = false)
    {body : Bytes} {next : Bytes → Phase}
    (hnext : BodyStep b (.silent (next (body ++ [b])))) :
    BodyStep b (phase.extend body b next) := by
  rw [extend]
  split_ifs
  · exact hnext
  · exact bodyStep_fail hbody hb _

lemma bodyStep_complete {α : Type} (hbody : phase.inBody = true)
    (hb : Byte.opensFrame b = false) {number : Except Fault α} {next : α → Step}
    (hnext : ∀ a, BodyStep b (next a)) : BodyStep b (phase.complete b number next) := by
  cases number with
  | ok a => exact hnext a
  | error fault => exact bodyStep_fail hbody hb fault

lemma ne_etx_of_isDigit (h : Byte.isDigit b = true) : b ≠ Byte.etx := by
  rintro rfl
  cases h

lemma ne_etx_of_isSign (h : Byte.isSign b = true) : b ≠ Byte.etx := by
  rintro rfl
  cases h

/-- **Within a body a byte stays within it, ends it, or breaks it.**  Where it goes then depends on
whether it is the ETX. -/
lemma bodyStep_step (hbody : phase.inBody = true) (hb : Byte.opensFrame b = false) :
    BodyStep b (phase.step traffic mode b) := by
  have hreject : BodyStep b (phase.reject b) := bodyStep_fail hbody hb _
  cases phase with
  | address body field =>
      rw [step]
      split_ifs with hsign
      · exact bodyStep_extend hbody hb (.within (ne_etx_of_isSign hsign.2) rfl)
      · by_cases hdigit : Byte.isDigit b = true
        · rw [Byte.digit_of_isDigit hdigit]
          dsimp only
          have hetx := ne_etx_of_isDigit hdigit
          split_ifs
          · exact bodyStep_complete hbody hb fun _ => bodyStep_extend hbody hb (.within hetx rfl)
          · exact bodyStep_extend hbody hb (.within hetx rfl)
        · rw [Byte.digit_of_not_isDigit (by simpa using hdigit)]
          exact hreject
  | parameter body station field =>
      rw [step]
      by_cases hdigit : Byte.isDigit b = true
      · rw [Byte.digit_of_isDigit hdigit]
        dsimp only
        have hetx := ne_etx_of_isDigit hdigit
        split_ifs
        · exact bodyStep_complete hbody hb fun _ => bodyStep_extend hbody hb (.within hetx rfl)
        · exact bodyStep_extend hbody hb (.within hetx rfl)
      · rw [Byte.digit_of_not_isDigit (by simpa using hdigit)]
        exact hreject
  | terminator body station parameter =>
      rw [step]
      split_ifs with hetx hsign
      · exact bodyStep_extend hbody hb (.closed hetx)
      · exact bodyStep_extend hbody hb (.within hetx rfl)
      · exact hreject
  | value body target negative field =>
      by_cases hetx : b = Byte.etx
      · rw [step, if_pos hetx]
        by_cases hcount : field.count = 0
        · rw [if_pos hcount]
          exact bodyStep_fail hbody hb _
        · rw [if_neg hcount]
          exact bodyStep_complete hbody hb fun _ => bodyStep_extend hbody hb (.closed hetx)
      · rw [step, if_neg hetx]
        by_cases hdigit : Byte.isDigit b = true
        · rw [Byte.digit_of_isDigit hdigit]
          dsimp only
          split_ifs
          · exact bodyStep_fail hbody hb _
          · exact bodyStep_extend hbody hb (.within hetx rfl)
        · rw [Byte.digit_of_not_isDigit (by simpa using hdigit)]
          exact hreject
  | _ => cases hbody

lemma isOpen_of_inBody (h : phase.inBody = true) : phase.isOpen = true := by
  cases phase <;> first | rfl | cases h

end Phase

/-! ## Runs within a body -/

namespace Receiver

variable {receiver : Receiver} {b : UInt8} {bytes : Bytes}

lemma passes_skipping (receiver : Receiver) (hbytes : ∀ b ∈ bytes, Byte.IsInner b) :
    (receiver.inPhase .skipping).Passes bytes .skipping := by
  induction bytes with
  | nil => exact .nil
  | cons b rest ih =>
      obtain ⟨⟨hopens, hetx⟩, hrest⟩ := List.forall_mem_cons.mp hbytes
      refine .cons .skipping ?_ (ih hrest)
      rw [step, phase_inPhase, Phase.step, if_neg (by simp [hopens]), if_neg hetx]

/-- **Without an ETX** a receiver stays within a body, or reports a defect and skips. -/
lemma within_body (receiver : Receiver) (hphase : receiver.phase.inBody = true)
    (hbytes : ∀ b ∈ bytes, Byte.IsInner b) :
    (∃ next, next.inBody = true ∧ receiver.Passes bytes next) ∨
      ∃ defect, receiver.reports bytes = [.defect defect] ∧
        receiver.after bytes = receiver.inPhase .skipping := by
  induction bytes generalizing receiver with
  | nil => exact .inl ⟨_, hphase, .nil⟩
  | cons b rest ih =>
      obtain ⟨⟨hopens, hetx⟩, hrest⟩ := List.forall_mem_cons.mp hbytes
      have hbody : Phase.BodyStep b (receiver.step b) := Phase.bodyStep_step hphase hopens
      generalize hstep : receiver.step b = step at hbody
      cases hbody with
      | @within next _ hnext =>
          have hsingle : receiver.Passes [b] next := .singleton hstep
          rcases ih (receiver.inPhase next) hnext hrest with ⟨last, hlast, hpasses⟩ | ⟨defect, h⟩
          · exact .inl ⟨last, hlast, .cons next hstep hpasses⟩
          · refine .inr ⟨defect, ?_, ?_⟩
            · exact (hsingle.reports_append rest).trans h.1
            · exact (hsingle.after_append rest).trans h.2
      | closed hclosed => exact absurd hclosed hetx
      | @broken defect =>
          rw [if_neg hetx] at hstep
          have hskip := passes_skipping receiver hrest
          refine .inr ⟨defect, ?_, ?_⟩
          · rw [reports_cons_of_report hstep, hskip.reports]
          · rw [after_cons_of_report hstep, hskip.after]
            rfl

/-- **With an ETX** behind which one byte is left, there is one defect, and the receiver is between
frames, unless a body gets so far and its check byte matches. -/
lemma closed_body (receiver : Receiver) {check : UInt8} (hphase : receiver.phase.inBody = true)
    (hbytes : ∀ b ∈ bytes, Byte.IsInner b) (hcheck : Byte.opensFrame check = false)
    (hmismatch : ∀ body frame, receiver.Passes (bytes ++ [Byte.etx]) (.checksum body frame) →
      checks receiver.mode body check = false) :
    ∃ defect, receiver.reports (bytes ++ [Byte.etx, check]) = [.defect defect] ∧
      receiver.after (bytes ++ [Byte.etx, check]) = receiver.inPhase .idle := by
  have hend : (receiver.inPhase .skippingCheck).Passes [check] .idle := .singleton rfl
  rcases within_body receiver hphase hbytes with ⟨next, hnext, hpasses⟩ | ⟨defect, hreports, hafter⟩
  · rw [hpasses.reports_append, hpasses.after_append]
    have hbody : Phase.BodyStep Byte.etx ((receiver.inPhase next).step Byte.etx) :=
      Phase.bodyStep_step hnext rfl
    generalize hstep : (receiver.inPhase next).step Byte.etx = step at hbody
    cases hbody with
    | within hetx _ => exact absurd rfl hetx
    | @closed body frame _ =>
        -- the body is complete, and its check byte is wrong
        have hclosed : (receiver.inPhase next).Passes [Byte.etx] (.checksum body frame) :=
          .singleton hstep
        have hchecks := hmismatch body frame (hpasses.append hclosed)
        have hfail : (receiver.inPhase (.checksum body frame)).step check
            = .report (.defect ⟨.checksum, frame.station?⟩) .idle := by
          rw [Receiver.step, phase_inPhase, mode_inPhase, Phase.step, if_neg (by simp [hchecks]),
            Phase.fail, if_neg (by simp [hcheck])]
          rfl
        refine ⟨⟨.checksum, frame.station?⟩, ?_, ?_⟩
        · refine (hclosed.reports_append [check]).trans ?_
          rw [inPhase_inPhase, reports_cons_of_report hfail, reports_nil]
        · refine (hclosed.after_append [check]).trans ?_
          rw [inPhase_inPhase, after_cons_of_report hfail, after_nil]
          rfl
    | @broken defect =>
        rw [if_pos rfl] at hstep
        refine ⟨defect, ?_, ?_⟩
        · rw [reports_cons_of_report hstep, inPhase_inPhase, hend.reports]
        · rw [after_cons_of_report hstep, inPhase_inPhase, hend.after]
          rfl
  · -- the ETX ends the skipping, and the check byte is skipped as well
    have hskip : (receiver.inPhase .skipping).Passes [Byte.etx, check] .idle :=
      .cons .skippingCheck rfl hend
    refine ⟨defect, ?_, ?_⟩
    · rw [Receiver.reports_append, hreports, hafter, hskip.reports, List.append_nil]
    · rw [Receiver.after_append, hafter, hskip.after]
      rfl

end Receiver

/-! ## Damaged bodies -/

namespace Frame

/-- The frames that have a body and a check byte. -/
def IsChecked : Frame → Prop
  | .request (.read ..) => True
  | .request (.write ..) => True
  | .request (.select _) => False
  | .reply (.value _) => True
  | .reply .ack => False
  | .reply (.refused _) => False

variable {mode : CheckMode} {frame : Frame} {body core : Bytes}

lemma IsChecked.exists_body (mode : CheckMode) (h : frame.IsChecked) :
    ∃ body, frame.Body body ∧ (frame.encode mode).bytes = checked mode body := by
  unfold IsChecked at h
  split at h
  · exact ⟨_, .read (Station.spelling_field _) (Parameter.spelling_field _),
      bytes_encode_read _ _⟩
  · exact ⟨_, .write (Station.spelling_field _) (Parameter.spelling_field _)
      (Value.spelling_field _), bytes_encode_write _ _ _⟩
  · cases h
  · exact ⟨_, .value (Value.spelling_field _), bytes_encode_value _⟩
  · cases h
  · cases h

namespace Body

/-- In front of the ETX a body has nothing but digits and signs. -/
lemma exists_core (h : Body frame body) : ∃ core, body = core ++ [Byte.etx] ∧
    ∀ b ∈ core, Byte.isDigit b = true ∨ Byte.isSign b = true := by
  have hsigned : ∀ (front digits : Bytes) (sign : UInt8) (value : Value),
      Decimal.AllDigits front → value.Spelling sign digits →
      ∀ b ∈ front ++ sign :: digits, Byte.isDigit b = true ∨ Byte.isSign b = true := by
    intro front digits sign value hfront hv b hb
    rcases List.mem_append.mp hb with hb | hb
    · exact .inl (hfront b hb)
    · rcases List.mem_cons.mp hb with rfl | hb
      · exact .inr hv.isSign
      · exact .inl (hv.allDigits b hb)
  cases h with
  | read ha hp => exact ⟨_, rfl, fun b hb => .inl (ha.allDigits_fields hp b hb)⟩
  | write ha hp hv => exact ⟨_, rfl, hsigned _ _ _ _ (ha.allDigits_fields hp) hv⟩
  | value hv => exact ⟨_, rfl, hsigned [] _ _ _ Decimal.allDigits_nil hv⟩

lemma mem_core (h : Body frame (core ++ [Byte.etx])) {b : UInt8} (hb : b ∈ core) :
    Byte.isDigit b = true ∨ Byte.isSign b = true := by
  obtain ⟨core', heq, hcore⟩ := h.exists_core
  obtain rfl := List.append_cancel_right heq
  exact hcore b hb

lemma high_mem_core (h : Body frame (core ++ [Byte.etx])) {b : UInt8} (hb : b ∈ core) :
    Byte.high b = 3 ∨ Byte.high b = 2 :=
  (h.mem_core hb).imp Byte.high_of_isDigit Byte.high_of_isSign

lemma isInner_of_mem_core (h : Body frame (core ++ [Byte.etx])) :
    ∀ b ∈ core, Byte.IsInner b := by
  intro b hb
  have hhigh : Byte.high b ≠ 0 := by
    rcases h.high_mem_core hb with hhigh | hhigh <;> rw [hhigh] <;> decide
  refine ⟨opensFrame_of_high hhigh, ?_⟩
  rintro rfl
  exact hhigh rfl

lemma isInner_checkByte (mode : CheckMode) (h : Body frame body) :
    Byte.IsInner (checkByte mode body) := by
  refine ⟨h.opensFrame_checkByte mode, ?_⟩
  intro hetx
  have hhigh := mode.high_finish h.high_parity
  rw [← checkByte, hetx] at hhigh
  exact hhigh rfl

/-- **Bodies that differ in exactly one byte have different check bytes**, in either mode: digits
and signs differ too little in their upper halves. -/
lemma checkByte_ne (mode : CheckMode) {other : Frame} {i : Nat} {old b : UInt8}
    (h : Body frame (core ++ [Byte.etx])) (hother : Body other (core.set i b ++ [Byte.etx]))
    (hold : core[i]? = some old) (hne : b ≠ old) :
    checkByte mode (core.set i b ++ [Byte.etx]) ≠ checkByte mode (core ++ [Byte.etx]) := by
  have hlt : i < core.length := (List.getElem?_eq_some_iff.mp hold).1
  have hhighOld := h.high_mem_core (List.mem_of_getElem? hold)
  have hhighNew := hother.high_mem_core (List.mem_set hlt b)
  rw [← List.set_append_left i b hlt]
  refine checkByte_set_ne mode ?_ hne ?_
  · rw [List.getElem?_append_left hlt, hold]
  · rcases hhighOld with hold | hold <;> rcases hhighNew with hnew | hnew <;>
      rw [hold, hnew] <;> decide

end Body

end Frame

lemma Byte.isInner_of_not_isControl {b : UInt8} (h : isControl b = false) : IsInner b := by
  simp only [isControl, Bool.or_eq_false_iff, beq_eq_false_iff_ne] at h
  refine ⟨?_, h.1.1.1.1.2⟩
  simp [opensFrame, h.1.1.1.1.1, h.1.1.1.2]

namespace Receiver

variable {receiver : Receiver} {frame good : Frame}

/-- Behind the STX, a body that was received whole is what was received. -/
lemma body_of_passes {front body : Bytes} (hfront : ∀ b ∈ front, Byte.IsInner b)
    (h : (receiver.inPhase (.address [] .empty)).Passes (front ++ [Byte.etx])
      (.checksum body frame)) : body = front ++ [Byte.etx] ∧ frame.Body body := by
  have hstart : (receiver.inPhase (.address [] .empty)).Follows receiver.traffic receiver.mode
      [Byte.stx] := ⟨rfl, rfl, _, List.suffix_refl _, .address_nil⟩
  obtain ⟨seen, hsuffix, hholds⟩ := (h.follows hstart).holds
  cases hholds with
  | checksum hbody =>
      refine ⟨?_, hbody⟩
      -- what is held begins with an STX, and there is only one
      obtain ⟨before, hbefore⟩ := hsuffix
      cases before with
      | nil => exact (List.cons.inj hbefore).2
      | cons c before =>
          have htail : before ++ Byte.stx :: body = front ++ [Byte.etx] :=
            (List.cons.inj hbefore).2
          have hmem : Byte.stx ∈ front ++ [Byte.etx] := by
            rw [← htail]
            simp
          rcases List.mem_append.mp hmem with hmem | hmem
          · cases (hfront _ hmem).1
          · cases List.mem_singleton.mp hmem

/-- **What a damaged frame leaves behind**: a defect, with the receiver between frames or skipping;
or no report, with the receiver within a body. -/
lemma damaged_cases {core : Bytes} {i : Nat} {old b : UInt8} (hidle : receiver.phase = .idle)
    (hbody : frame.Body (core ++ [Byte.etx])) (hi : 1 ≤ i)
    (hold : (Frame.checked receiver.mode (core ++ [Byte.etx]))[i]? = some old) (hne : b ≠ old)
    (hb : Byte.IsInner b) :
    (∃ defect, receiver.reports ((Frame.checked receiver.mode (core ++ [Byte.etx])).set i b)
          = [.defect defect] ∧
        ∃ next, (next = .idle ∨ next = .skipping) ∧
          receiver.after ((Frame.checked receiver.mode (core ++ [Byte.etx])).set i b)
            = receiver.inPhase next) ∨
      ∃ next, next.inBody = true ∧
        receiver.Passes ((Frame.checked receiver.mode (core ++ [Byte.etx])).set i b) next := by
  obtain ⟨j, rfl⟩ : ∃ j, i = j + 1 := ⟨i - 1, by omega⟩
  have hstx : receiver.Passes [Byte.stx] (.address [] .empty) := by
    refine .singleton ?_
    rw [step, hidle]
    rfl
  have hinner := hbody.isInner_of_mem_core
  have hcheck := hbody.isInner_checkByte receiver.mode
  rw [Frame.checked, List.cons_append, List.set_cons_succ, List.append_assoc,
    List.singleton_append]
  rw [Frame.checked, List.cons_append, List.getElem?_cons_succ, List.append_assoc,
    List.singleton_append] at hold
  -- where the frame still has its ETX, everything behind the STX is as `closed_body` has it
  have hclosed : ∀ {front : Bytes} {check : UInt8}, (∀ b ∈ front, Byte.IsInner b) →
      Byte.opensFrame check = false →
      (∀ other : Frame, other.Body (front ++ [Byte.etx]) →
        checkByte receiver.mode (front ++ [Byte.etx]) ≠ check) →
      ∃ defect, receiver.reports (Byte.stx :: (front ++ [Byte.etx, check]))
          = [.defect defect] ∧
        ∃ next, (next = .idle ∨ next = .skipping) ∧
          receiver.after (Byte.stx :: (front ++ [Byte.etx, check])) = receiver.inPhase next := by
    intro front check hfront hopens hmismatch
    have hchecks : ∀ body other, (receiver.inPhase (.address [] .empty)).Passes
        (front ++ [Byte.etx]) (.checksum body other) →
        checks receiver.mode body check = false := by
      intro body other hpasses
      obtain ⟨rfl, hother⟩ := body_of_passes hfront hpasses
      simpa [checks] using hmismatch other hother
    obtain ⟨defect, hreports, hafter⟩ :=
      closed_body (receiver.inPhase (.address [] .empty)) rfl hfront hopens hchecks
    exact ⟨defect, (hstx.reports_append _).trans hreports, .idle, .inl rfl,
      (hstx.after_append _).trans hafter⟩
  rcases Nat.lt_trichotomy j core.length with hj | rfl | hj
  · -- a byte in front of the ETX
    rw [List.set_append_left _ _ hj]
    rw [List.getElem?_append_left hj] at hold
    refine .inl (hclosed ?_ hcheck.1 ?_)
    · intro x hx
      rcases List.mem_or_eq_of_mem_set hx with hx | rfl
      · exact hinner x hx
      · exact hb
    · intro other hother
      exact hbody.checkByte_ne receiver.mode hother hold hne
  · -- the ETX
    rw [List.set_append_right _ _ (Nat.le_refl _), Nat.sub_self, List.set_cons_zero]
    have hbytes : ∀ x ∈ core ++ [b, checkByte receiver.mode (core ++ [Byte.etx])],
        Byte.IsInner x := by
      intro x hx
      simp only [List.mem_append, List.mem_cons, List.not_mem_nil, or_false] at hx
      rcases hx with hx | rfl | rfl
      · exact hinner x hx
      · exact hb
      · exact hcheck
    rcases within_body (receiver.inPhase (.address [] .empty)) rfl hbytes with
      ⟨next, hnext, hpasses⟩ | ⟨defect, hreports, hafter⟩
    · exact .inr ⟨next, hnext, hstx.append hpasses⟩
    · exact .inl ⟨defect, (hstx.reports_append _).trans hreports, .skipping, .inr rfl,
        (hstx.after_append _).trans hafter⟩
  · -- the check byte
    obtain ⟨k, rfl⟩ : ∃ k, j = core.length + (k + 1) := ⟨j - core.length - 1, by omega⟩
    rw [List.getElem?_append_right (by omega), Nat.add_sub_cancel_left,
      List.getElem?_cons_succ] at hold
    obtain ⟨rfl, rfl⟩ : k = 0 ∧ checkByte receiver.mode (core ++ [Byte.etx]) = old := by
      cases k with
      | zero => exact ⟨rfl, by simpa using hold⟩
      | succ k => simp at hold
    rw [List.set_append_right _ _ (by omega), Nat.add_sub_cancel_left, List.set_cons_succ,
      List.set_cons_zero]
    exact .inl (hclosed hinner hb.1 fun _ _ => hne.symm)

/-! ## The frame behind it -/

lemma reports_encode_of_not_isOpen (receiver : Receiver)
    (hopen : receiver.phase.isOpen = false)
    (hphase : receiver.phase ≠ .skippingCheck) (hgood : good.IsOpening receiver.traffic) :
    receiver.reports (good.encode receiver.mode).bytes = [.frame good] ∧
      receiver.after (good.encode receiver.mode).bytes = receiver.inPhase .idle := by
  have hword := Frame.wireWord_encode receiver.mode hgood.isLegible
  have hfeedAll := feedAll_wireWord receiver hword fun b hb =>
    step_opensFrame_of_not_isOpen hopen hphase (opensFrame_head_wireWord hgood hword b hb)
  rw [reports, after, hfeedAll]
  exact ⟨rfl, rfl⟩

lemma reports_encode_of_isOpen (receiver : Receiver) {seen : Bytes}
    (hopen : receiver.phase.isOpen = true)
    (hholds : receiver.phase.Holds receiver.traffic seen)
    (hgood : good.IsOpening receiver.traffic) :
    ∃ defect, receiver.reports (good.encode receiver.mode).bytes = [.defect defect, .frame good] ∧
      receiver.after (good.encode receiver.mode).bytes = receiver.inPhase .idle := by
  have hword := Frame.wireWord_encode receiver.mode hgood.isLegible
  obtain ⟨fault, hfeedAll⟩ := feedAll_wireWord_of_isOpen hgood hword hholds hopen
  refine ⟨⟨fault, receiver.station?⟩, ?_⟩
  rw [reports, after, hfeedAll]
  exact ⟨rfl, rfl⟩

/-- **One damaged frame, one defect.**  A receiver between frames that is fed a checked frame of
which one byte behind the STX became another that is no control byte, and then an opening frame,
reports a defect and then that frame, and is between frames again. -/
theorem reports_damaged_append {i : Nat} {old b : UInt8} (hidle : receiver.phase = .idle)
    (hframe : frame.IsChecked) (hgood : good.IsOpening receiver.traffic) (hi : 1 ≤ i)
    (hold : (frame.encode receiver.mode).bytes[i]? = some old) (hne : b ≠ old)
    (hb : Byte.isControl b = false) :
    (∃ defect, receiver.reports
        ((frame.encode receiver.mode).bytes.set i b ++ (good.encode receiver.mode).bytes)
      = [.defect defect, .frame good]) ∧
    receiver.after
        ((frame.encode receiver.mode).bytes.set i b ++ (good.encode receiver.mode).bytes)
      = receiver := by
  have hreceiver : receiver.inPhase .idle = receiver := by rw [← hidle, inPhase_phase]
  obtain ⟨body, hbody, hencode⟩ := hframe.exists_body receiver.mode
  obtain ⟨core, rfl, -⟩ := hbody.exists_core
  rw [hencode] at hold ⊢
  rw [reports_append, after_append]
  rcases damaged_cases hidle hbody hi hold hne (Byte.isInner_of_not_isControl hb) with
    ⟨defect, hreports, next, hnext, hafter⟩ | ⟨next, hnext, hpasses⟩
  · have hgood' := reports_encode_of_not_isOpen (receiver.inPhase next)
      (by rcases hnext with rfl | rfl <;> rfl) (by rcases hnext with rfl | rfl <;> simp) hgood
    rw [mode_inPhase, inPhase_inPhase, hreceiver] at hgood'
    rw [hreports, hafter, hgood'.1, hgood'.2]
    exact ⟨⟨defect, rfl⟩, rfl⟩
  · -- the body goes on, so it is the opening byte of the next frame that breaks it
    have hfollows : receiver.Follows receiver.traffic receiver.mode [] :=
      ⟨rfl, rfl, [], List.nil_suffix, by rw [hidle]; exact .idle⟩
    obtain ⟨seen, -, hholds⟩ := (hpasses.follows hfollows).holds
    obtain ⟨defect, hgood'⟩ := reports_encode_of_isOpen (receiver.inPhase next)
      (Phase.isOpen_of_inBody hnext) hholds hgood
    rw [mode_inPhase, inPhase_inPhase, hreceiver] at hgood'
    rw [hpasses.reports, hpasses.after, hgood'.1, hgood'.2]
    exact ⟨⟨defect, rfl⟩, rfl⟩

/-- A write of -70 whose ETX became a digit, in printable mode: its check byte is a digit as well,
and it is the STX of the next request that breaks the frame. -/
theorem reports_damaged_append_of_lost_etx :
    ((Frame.request (.write ⟨1, by decide⟩ ⟨10, by decide⟩
        ⟨-70, by decide, by decide⟩)).encode .printable).bytes.set 9 0x31
      = [0x02, 0x30, 0x31, 0x30, 0x31, 0x30, 0x2D, 0x37, 0x30, 0x31, 0x39] ∧
    ∃ defect, (Receiver.start .commands .printable).reports
        ([0x02, 0x30, 0x31, 0x30, 0x31, 0x30, 0x2D, 0x37, 0x30, 0x31, 0x39] ++
          ((Frame.request (.read ⟨3, by decide⟩ ⟨7, by decide⟩)).encode .printable).bytes)
      = [.defect defect, .frame (.request (.read ⟨3, by decide⟩ ⟨7, by decide⟩))] := by
  have hbytes : ((Frame.request (.write ⟨1, by decide⟩ ⟨10, by decide⟩
        ⟨-70, by decide, by decide⟩)).encode .printable).bytes.set 9 0x31
      = [0x02, 0x30, 0x31, 0x30, 0x31, 0x30, 0x2D, 0x37, 0x30, 0x31, 0x39] := by decide +kernel
  refine ⟨hbytes, ?_⟩
  have hreports := (@reports_damaged_append (.start .commands .printable)
    (.request (.write ⟨1, by decide⟩ ⟨10, by decide⟩ ⟨-70, by decide, by decide⟩))
    (.request (.read ⟨3, by decide⟩ ⟨7, by decide⟩)) 9 0x03 0x31
    rfl trivial trivial (by decide) (by decide +kernel) (by decide) rfl).1
  rw [← hbytes]
  exact hreports

end Receiver

end FieldBus
