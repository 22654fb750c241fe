import FieldBus.Proofs.Grammar
import FieldBus.Proofs.WireForm
import Mathlib.Data.List.TakeWhile

/-!
# The one spelling that is sent

A receiver takes every spelling of a value: with zeros in front of the other digits, as far as there
is room, and with either sign in front of zero.  A sender has one spelling for each.  So a word that
was received and is sent again comes out as it was, or it comes out in that one spelling, with a
check byte of its own; it gets no longer then, and still stands for the same frame.

* `Value.IsCanonical` — what a field must not have: a zero in front of another digit, or a minus in
  front of zero.  It has neither exactly if it is the field that is sent
  (`Value.Spelling.field_eq_iff`), because a numeral has no other spelling
  (`Decimal.IsNumeral.eq_numeral`).
* `Frame.valueField?` — the sign and the digits of the value, read off a word.
* `Frame.WireWord.encode_cases` — only in the spelling of the value can a word differ from the one
  that is sent.
* **`Receiver.encode_of_feed`** — the same for what a receiver between frames takes in.
-/

namespace FieldBus

/-! ## One spelling for each number -/

namespace Byte

/-- A digit is what it denotes, written again. -/
lemma ofDigit_of_isDigit {b : UInt8} (h : isDigit b = true) (n : Nat) :
    ofDigit (n * 10 + (b.toNat - 0x30)) = b := by
  have hb := isDigit_iff.mp h
  rw [← UInt8.toNat_inj, toNat_ofDigit]
  omega

end Byte

namespace Decimal

variable {digits : Bytes} {n : Nat}

/-- **A field of fixed width has one spelling.** -/
lemma Denotes.eq_padded (h : Denotes digits n) : digits = padded digits.length n := by
  obtain ⟨hdigits, rfl⟩ := h
  induction digits using List.reverseRecOn with
  | nil => rfl
  | append_singleton front b ih =>
      obtain ⟨hfront, hb⟩ := allDigits_append.mp hdigits
      have hdigit : Byte.isDigit b = true := hb b (List.mem_singleton_self b)
      have hquotient : (number front * 10 + (b.toNat - 0x30)) / 10 = number front := by
        have hbound := Byte.isDigit_iff.mp hdigit
        omega
      rw [number_concat, List.length_append, List.length_singleton, padded, hquotient,
        Byte.ofDigit_of_isDigit hdigit, ← ih hfront]

/-- **A numeral has one spelling.** -/
lemma IsNumeral.eq_numeral (h : IsNumeral digits n) : digits = numeral n := by
  obtain ⟨⟨hdigits, rfl⟩, hne, hzero⟩ := h
  -- the numeral has its last digit at the end, so the induction takes digits off there
  induction digits using List.reverseRecOn with
  | nil => exact absurd rfl hne
  | append_singleton front b ih =>
      obtain ⟨hfront, hb⟩ := allDigits_append.mp hdigits
      have hdigit : Byte.isDigit b = true := hb b (List.mem_singleton_self b)
      have hbound := Byte.isDigit_iff.mp hdigit
      have hquotient : (number front * 10 + (b.toNat - 0x30)) / 10 = number front := by omega
      rw [number_concat, numeral_eq, hquotient, Byte.ofDigit_of_isDigit hdigit]
      by_cases hnil : front = []
      · subst hnil
        rfl
      · have hleading : ∀ rest, front = Byte.ofDigit 0 :: rest → rest = [] := by
          intro rest hrest
          have hmore := hzero (rest ++ [b]) (by rw [hrest, List.cons_append])
          simp at hmore
        have hfrontIs : front = numeral (number front) := ih hnil hleading hfront
        have hpos : number front ≠ 0 := by
          intro hnumber
          rw [hnumber] at hfrontIs
          have hmore := hzero [b] (by rw [hfrontIs]; rfl)
          simp at hmore
        rw [if_neg hpos, ← hfrontIs]

lemma Denotes.isNumeral_trimmed (h : Denotes digits n) (hne : digits ≠ []) :
    IsNumeral (trimmed digits) n :=
  ⟨denotes_trimmed h, trimmed_ne_nil hne, fun _ => eq_nil_of_trimmed_eq⟩

/-- No spelling is shorter than the numeral. -/
lemma Denotes.length_numeral_le (h : Denotes digits n) (hne : digits ≠ []) :
    (numeral n).length ≤ digits.length := by
  rw [← (h.isNumeral_trimmed hne).eq_numeral]
  exact length_trimmed_le digits

end Decimal

lemma Station.Spelling.eq_field {station : Station} {a : Bytes} (h : station.Spelling a) :
    a = station.field := by
  have heq := h.denotes.eq_padded
  rwa [h.length_eq] at heq

lemma Parameter.Spelling.eq_field {parameter : Parameter} {p : Bytes}
    (h : parameter.Spelling p) : p = parameter.field := by
  have heq := h.denotes.eq_padded
  rwa [h.length_eq] at heq

namespace Value

variable {value : Value} {sign : UInt8} {digits : Bytes}

/-- There is no zero in front of another digit, and no minus in front of zero. -/
structure IsCanonical (sign : UInt8) (digits : Bytes) : Prop where
  no_leading_zero : ∀ rest, digits = Byte.ofDigit 0 :: rest → rest = []
  not_minus_zero : ¬ (sign = Byte.minus ∧ Decimal.number digits = 0)

namespace Spelling

lemma natAbs_eq (h : value.Spelling sign digits) :
    value.number.natAbs = Decimal.number digits := by
  rw [← h.number_eq, signed]
  split_ifs <;> simp

/-- A value is negative if it has a minus and is not zero. -/
lemma neg_iff (h : value.Spelling sign digits) :
    value.number < 0 ↔ sign = Byte.minus ∧ Decimal.number digits ≠ 0 := by
  rw [← h.number_eq, signed]
  split_ifs with hminus
  · simp [hminus, Nat.pos_iff_ne_zero]
  · simp [hminus]

lemma length_field_le (h : value.Spelling sign digits) :
    value.field.length ≤ (sign :: digits).length := by
  have hdenotes : Decimal.Denotes digits value.number.natAbs := ⟨h.allDigits, h.natAbs_eq.symm⟩
  have hlength := hdenotes.length_numeral_le (List.length_pos_iff.mp h.length_pos)
  rw [← value.numeral_eq_field, numeral, List.length_cons, List.length_cons]
  omega

/-- **A spelling of a value is the one that is sent if it is canonical.** -/
lemma field_eq_iff (h : value.Spelling sign digits) :
    value.field = sign :: digits ↔ IsCanonical sign digits := by
  rw [← value.numeral_eq_field, numeral, List.cons_eq_cons]
  constructor
  · rintro ⟨hsign, hdigits⟩
    refine ⟨fun rest hrest => value.isNumeral_natAbs.1.eq_nil rest (hdigits.trans hrest), ?_⟩
    rintro ⟨rfl, hzero⟩
    have hneg : ¬ value.number < 0 := fun hneg => (h.neg_iff.mp hneg).2 hzero
    rw [if_neg hneg] at hsign
    exact absurd hsign (by decide)
  · rintro ⟨hleading, hminus⟩
    constructor
    · split_ifs with hneg
      · exact (h.neg_iff.mp hneg).1.symm
      · rcases Byte.isSign_iff.mp h.isSign with hplus | hsign
        · exact hplus.symm
        · exact absurd (h.neg_iff.mpr ⟨hsign, fun hzero => hminus ⟨hsign, hzero⟩⟩) hneg
    · have hnumeral : Decimal.IsNumeral digits value.number.natAbs :=
        ⟨⟨h.allDigits, h.natAbs_eq.symm⟩, List.length_pos_iff.mp h.length_pos, hleading⟩
      exact hnumeral.eq_numeral.symm

end Spelling

end Value

/-! ## One spelling for each frame -/

namespace Frame

variable {frame other : Frame} {traffic : Traffic} {mode : CheckMode} {word : Bytes}

/-- The sign and the digits of the value in a word, if there is a value in it: in front of the sign
there are the opening byte and digits only. -/
def valueField? (word : Bytes) : Option (UInt8 × Bytes) :=
  match word.tail.dropWhile Byte.isDigit with
  | [] => none
  | b :: rest => if Byte.isSign b then some (b, rest.takeWhile Byte.isDigit) else none

lemma dropWhile_of_allDigits {front : Bytes} {b : UInt8} (hfront : Decimal.AllDigits front)
    (hb : Byte.isDigit b = false) (rest : Bytes) :
    (front ++ b :: rest).dropWhile Byte.isDigit = b :: rest := by
  rw [List.dropWhile_append_of_pos hfront, List.dropWhile_cons_of_neg (by simp [hb])]

lemma valueField?_signed {front digits rest : Bytes} {sign : UInt8} (opening : UInt8)
    (hfront : Decimal.AllDigits front) (hsign : Byte.isSign sign = true)
    (hdigits : Decimal.AllDigits digits) :
    valueField? (opening :: (front ++ sign :: digits ++ Byte.etx :: rest))
      = some (sign, digits) := by
  have hdigit : Byte.isDigit sign = false := by
    rcases Byte.isSign_iff.mp hsign with rfl | rfl <;> rfl
  rw [valueField?, List.tail_cons, List.append_assoc, List.cons_append,
    dropWhile_of_allDigits hfront hdigit]
  dsimp only
  rw [if_pos hsign, List.takeWhile_append_of_pos hdigits, List.takeWhile_cons_of_neg (by decide),
    List.append_nil]

lemma valueField?_unsigned {front : Bytes} {b : UInt8} (opening : UInt8)
    (hfront : Decimal.AllDigits front) (hdigit : Byte.isDigit b = false)
    (hsign : Byte.isSign b = false) (rest : Bytes) :
    valueField? (opening :: (front ++ b :: rest)) = none := by
  rw [valueField?, List.tail_cons, dropWhile_of_allDigits hfront hdigit]
  simp [hsign]

lemma checked_inj {body body' : Bytes} (h : checked mode body = checked mode body') :
    body = body' :=
  (List.cons.inj (List.append_inj' h rfl).1).2

lemma WireWord.isLegible (h : WireWord traffic mode frame word) : frame.IsLegible traffic := by
  cases h with
  | checked hbody => cases hbody <;> trivial
  | eot hreplies => exact hreplies
  | select hcommands _ => exact hcommands
  | _ => trivial

/-- **A word can differ from the one that is sent in the spelling of its value alone.** -/
lemma WireWord.encode_cases (h : WireWord traffic mode frame word) :
    ((frame.encode mode).bytes = word ∧ valueField? word = none) ∨
      ∃ front sign digits value, Decimal.AllDigits front ∧ Value.Spelling value sign digits ∧
        word = Frame.checked mode (front ++ sign :: digits ++ [Byte.etx]) ∧
        (frame.encode mode).bytes = Frame.checked mode (front ++ value.field ++ [Byte.etx]) := by
  cases h with
  | checked hbody =>
      cases hbody with
      | read ha hp =>
          refine .inl ⟨?_, ?_⟩
          · rw [bytes_encode_read, ha.eq_field, hp.eq_field]
          · rw [Frame.checked, List.cons_append, List.append_assoc]
            exact valueField?_unsigned Byte.stx (ha.allDigits_fields hp) rfl rfl _
      | write ha hp hv =>
          refine .inr ⟨_, _, _, _, ha.allDigits_fields hp, hv, rfl, ?_⟩
          rw [bytes_encode_write, ha.eq_field, hp.eq_field]
      | value hv => exact .inr ⟨[], _, _, _, Decimal.allDigits_nil, hv, rfl, bytes_encode_value _⟩
  | ack => exact .inl ⟨rfl, rfl⟩
  | nak => exact .inl ⟨rfl, rfl⟩
  | eot _ => exact .inl ⟨rfl, rfl⟩
  | select _ ha =>
      refine .inl ⟨?_, ?_⟩
      · rw [bytes_encode_select, ha.eq_field]
      · exact valueField?_unsigned Byte.eot ha.denotes.allDigits rfl rfl []

/-- A word is the one that is sent if the field of its value is. -/
lemma WireWord.encode_eq_iff (h : WireWord traffic mode frame word) :
    (frame.encode mode).bytes = word ↔
      ∀ sign digits, valueField? word = some (sign, digits) → Value.IsCanonical sign digits := by
  rcases h.encode_cases with ⟨hsent, hnone⟩ | ⟨front, sign, digits, value, hfront, hv, rfl, hsent⟩
  · rw [hnone]
    exact iff_of_true hsent nofun
  · have hfield : valueField? (Frame.checked mode (front ++ sign :: digits ++ [Byte.etx]))
        = some (sign, digits) := by
      rw [Frame.checked, List.cons_append, List.append_assoc]
      exact valueField?_signed Byte.stx hfront hv.isSign hv.allDigits
    have hbytes : (frame.encode mode).bytes
        = Frame.checked mode (front ++ sign :: digits ++ [Byte.etx]) ↔
          value.field = sign :: digits := by
      rw [hsent]
      constructor
      · intro hchecked
        exact List.append_cancel_left (List.append_cancel_right (checked_inj hchecked))
      · intro hvalue
        rw [hvalue]
    rw [hbytes, hv.field_eq_iff, hfield]
    constructor
    · rintro hcanonical sign digits ⟨⟩
      exact hcanonical
    · intro hcanonical
      exact hcanonical sign digits rfl

lemma WireWord.length_encode_le (h : WireWord traffic mode frame word) :
    (frame.encode mode).bytes.length ≤ word.length := by
  rcases h.encode_cases with ⟨hsent, -⟩ | ⟨front, sign, digits, value, -, hv, rfl, hsent⟩
  · rw [hsent]
  · have hlength := hv.length_field_le
    rw [hsent]
    simp only [Frame.checked, List.length_append, List.length_cons, List.length_nil] at hlength ⊢
    omega

/-! ### No two frames are sent in the same way -/

/-- A word stands for one frame. -/
lemma WireWord.unique (h : WireWord traffic mode frame word)
    (h' : WireWord traffic mode other word) : frame = other := by
  have hfeed := Receiver.feed_wireWord (.start traffic mode) h fun _ _ => rfl
  rw [Receiver.feed_wireWord (.start traffic mode) h' fun _ _ => rfl] at hfeed
  cases hfeed
  rfl

/-- Among the commands only one frame has no word: the refusal that is sent as an EOT. -/
lemma isLegible_commands_or (frame : Frame) :
    frame.IsLegible .commands ∨ frame = .reply (.refused .invalidParameter) := by
  match frame with
  | .request (.select _) => exact .inl rfl
  | .request (.read ..) | .request (.write ..) => exact .inl trivial
  | .reply (.value _) | .reply .ack | .reply (.refused .commandFailed) => exact .inl trivial
  | .reply (.refused .invalidParameter) => exact .inr rfl

/-- Among the commands a lone EOT is no word. -/
lemma WireWord.ne_eot (h : WireWord .commands mode frame word) : word ≠ [Byte.eot] := by
  cases h with
  | checked hbody => exact fun heot => absurd (List.cons.inj heot).1 (by decide)
  | ack => decide
  | nak => decide
  | eot hreplies => cases hreplies
  | select _ ha => simp

/-- **No two frames are sent as the same bytes.** -/
lemma encode_injective (mode : CheckMode) :
    Function.Injective fun frame : Frame => (frame.encode mode).bytes := by
  intro frame other (hbytes : (frame.encode mode).bytes = (other.encode mode).bytes)
  rcases isLegible_commands_or frame with hframe | rfl
  · have hword := wireWord_encode mode hframe
    rcases isLegible_commands_or other with hother | rfl
    · rw [hbytes] at hword
      exact hword.unique (wireWord_encode mode hother)
    · exact absurd hbytes hword.ne_eot
  · rcases isLegible_commands_or other with hother | rfl
    · exact absurd hbytes.symm (wireWord_encode mode hother).ne_eot
    · rfl

end Frame

namespace Receiver

variable {receiver : Receiver} {frame : Frame} {word : Bytes}

/-- Somewhere in the bytes a transmission ends without a report: behind an EOT between frames, which
would open a select sequence, stands a byte that is no digit. -/
def HasSilentEnd (receiver : Receiver) (bytes : Bytes) : Prop :=
  ∃ front b back, bytes = front ++ b :: back ∧
    receiver.Passes front (.selectAddress .empty) ∧ Byte.isDigit b = false

/-- Bytes that a receiver between frames takes for a frame, from the first byte on and without a
transmission that ends in between, are one word. -/
lemma wireWord_of_feed_of_head (hidle : receiver.phase = .idle)
    (hhead : ∃ b ∈ word.head?, b = Byte.stx ∨ b = Byte.eot ∨ b = Byte.ack ∨ b = Byte.nak)
    (hone : ¬ receiver.HasSilentEnd word)
    (hreport : (receiver.feed word).report? = some (.frame frame))
    (htaken : (receiver.feed word).taken = word.length) :
    frame.WireWord receiver.traffic receiver.mode word := by
  have hreceiver : receiver.inPhase .idle = receiver := by rw [← hidle, inPhase_phase]
  obtain ⟨noise, rest, rfl, hnoise, hrest⟩ : receiver.Splits frame word :=
    splits_of_feed (.inl rfl) (by simp) (by rwa [hreceiver]) (by rwa [hreceiver])
  cases noise with
  | nil => exact hrest
  | cons b noise =>
      -- noise that begins like a frame begins with an EOT that opens nothing
      exfalso
      obtain ⟨⟨hstx, hack, hnak, heot⟩, hnoise⟩ := noise_cons.mp hnoise
      have hb : b = Byte.eot := by
        obtain ⟨c, hc, hcases⟩ := hhead
        obtain rfl : b = c := by simpa using hc
        tauto
      obtain ⟨hcommands, hnext⟩ := heot hb
      have hstep : receiver.step Byte.eot = .silent (.selectAddress .empty) := by
        rw [step, hidle, hcommands]
        rfl
      obtain ⟨c, tail, htail⟩ : ∃ c tail, noise ++ rest = c :: tail :=
        List.exists_cons_of_ne_nil (List.append_ne_nil_of_right_ne_nil noise hrest.ne_nil)
      refine hone ⟨[Byte.eot], c, tail, ?_, .singleton hstep, ?_⟩
      · rw [hb, List.cons_append, htail]
        rfl
      · cases noise with
        | nil => exact isDigit_head_wireWord hrest c (by rw [show rest = _ from htail]; rfl)
        | cons d noise =>
            obtain ⟨rfl, -⟩ := List.cons.inj htail
            exact hnext d rfl

/-- **What is received and sent again.**  A receiver between frames takes a word, and tells of its
frame.  What is sent for this frame is the same word exactly if the field of the value in it, if
there is one, has no zero in front of another digit and is no zero with a minus.  Whether or not it
is the same, it is a word of the frame that is no longer, and the receiver takes it and tells of the
same frame.  What is sent for two different frames is never the same. -/
theorem encode_of_feed (hidle : receiver.phase = .idle)
    (hhead : ∃ b ∈ word.head?, b = Byte.stx ∨ b = Byte.eot ∨ b = Byte.ack ∨ b = Byte.nak)
    (hone : ¬ receiver.HasSilentEnd word)
    (hreport : (receiver.feed word).report? = some (.frame frame))
    (htaken : (receiver.feed word).taken = word.length) :
    let sent := (frame.encode receiver.mode).bytes
    (sent = word ↔ ∀ sign digits, Frame.valueField? word = some (sign, digits) →
        Value.IsCanonical sign digits) ∧
      frame.WireWord receiver.traffic receiver.mode sent ∧ sent.length ≤ word.length ∧
      receiver.feed sent = ⟨some (.frame frame), sent.length, receiver⟩ ∧
      Function.Injective fun frame : Frame => (frame.encode receiver.mode).bytes := by
  intro sent
  have hword := wireWord_of_feed_of_head hidle hhead hone hreport htaken
  have hsent := Frame.wireWord_encode receiver.mode hword.isLegible
  have hreceiver : receiver.inPhase .idle = receiver := by rw [← hidle, inPhase_phase]
  refine ⟨hword.encode_eq_iff, hsent, hword.length_encode_le, ?_, Frame.encode_injective _⟩
  rw [feed_wireWord receiver hsent fun b _ => by rw [step, hidle]; rfl, hreceiver]

/-- A value with a minus in front of three zeros.  It is received as zero, which is sent with a plus
and one digit, and with another check byte. -/
theorem encode_of_feed_of_minus_zero :
    let receiver := Receiver.start .replies .plain
    let word : Bytes := [0x02, 0x2D, 0x30, 0x30, 0x30, 0x03, 0x1E]
    let sent := ((Frame.reply (.value .zero)).encode .plain).bytes
    (∃ b ∈ word.head?, b = Byte.stx ∨ b = Byte.eot ∨ b = Byte.ack ∨ b = Byte.nak) ∧
      ¬ receiver.HasSilentEnd word ∧
      (receiver.feed word).report? = some (.frame (.reply (.value .zero))) ∧
      (receiver.feed word).taken = word.length ∧ sent ≠ word ∧ sent.length ≤ word.length ∧
      receiver.feed sent = ⟨some (.frame (.reply (.value .zero))), sent.length, receiver⟩ := by
  intro receiver word sent
  have hhead : ∃ b ∈ word.head?, b = Byte.stx ∨ b = Byte.eot ∨ b = Byte.ack ∨ b = Byte.nak :=
    ⟨Byte.stx, rfl, .inl rfl⟩
  have hone : ¬ receiver.HasSilentEnd word := by
    rintro ⟨front, b, back, hbytes, hpasses, -⟩
    have hfront : front = word.take front.length := by rw [hbytes, List.take_left]
    have hphases : ∀ n : Fin 8,
        (receiver.feed (word.take n)).receiver.phase ≠ .selectAddress .empty := by decide
    have hlength : front.length < 8 := by
      have hlength := congrArg List.length hbytes
      rw [List.length_append, List.length_cons] at hlength
      simp only [List.length_cons, List.length_nil] at hlength
      omega
    rw [Passes] at hpasses
    have hphase := hphases ⟨front.length, hlength⟩
    rw [← hfront, hpasses] at hphase
    exact hphase rfl
  have hreport : (receiver.feed word).report? = some (.frame (.reply (.value .zero))) := by decide
  have htaken : (receiver.feed word).taken = word.length := by decide
  obtain ⟨hiff, -, hlength, hfeed, -⟩ :=
    encode_of_feed (show receiver.phase = .idle from rfl) hhead hone hreport htaken
  refine ⟨hhead, hone, hreport, htaken, ?_, hlength, hfeed⟩
  intro heq
  have hcanonical := hiff.mp heq 0x2D [0x30, 0x30, 0x30] (by decide)
  exact hcanonical.not_minus_zero ⟨rfl, rfl⟩

end Receiver

end FieldBus
