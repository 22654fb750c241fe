import FieldBus.Proofs.Provenance

/-!
# One byte wrong

With the plain check byte, a frame of which exactly one byte arrived wrong never makes a station
write, and never ends a read with a value, whatever the wrong byte is
(**`no_data_of_oneByteOff`**).  That the check byte sees a single change is not enough for this: a
digit that became an ETX puts a later digit in the place of the check byte, and a byte that became
an STX begins a frame within the frame.

The upper halves of the bytes rule this out.  A word with a sign in it has an upper half of zero
only in its STX and its ETX, and one of one or two only in its sign and its check byte
(`Signed`).  So a word that stands in such a word with one byte wrong has nowhere to begin but
where that does, and nowhere to end (`Signed.not_infix_set`), and only then comes the check byte.
-/

namespace FieldBus

/-- What was received is what was sent, but for one byte. -/
def OneByteOff (sent received : Bytes) : Prop :=
  ∃ (i : Nat) (old b : UInt8), sent[i]? = some old ∧ b ≠ old ∧ received = sent.set i b

/-! ## Words with a sign -/

/-- The upper halves of a word with a sign in it, digits before and behind. -/
def signedHighs (m k : Nat) (check : UInt8) : Bytes :=
  0 :: (List.replicate m 3 ++ 2 :: (List.replicate k 3 ++ [0, check]))

lemma getElem?_signedHighs (m k j : Nat) (check : UInt8) :
    (signedHighs m k check)[j]? =
      if j = 0 ∨ j = m + k + 2 then some 0
      else if j = m + 1 then some 2
      else if j = m + k + 3 then some check
      else if j < m + k + 4 then some 3
      else none := by
  simp only [signedHighs, List.getElem?_cons, List.getElem?_append, List.length_replicate,
    List.getElem?_replicate, List.getElem?_nil]
  split_ifs <;> first | rfl | omega

/-- A word with `m` digits, a sign and `k` digits, and a plain check byte. -/
structure Signed (m k : Nat) (word : Bytes) : Prop where
  head : word[0]? = some Byte.stx
  highs : ∃ check, (check = 1 ∨ check = 2) ∧ word.map Byte.high = signedHighs m k check
  parity_tail : parity word.tail = 0

namespace Signed

variable {m k n i j : Nat} {word sent : Bytes} {b old : UInt8}

lemma length_eq (h : Signed m k word) : word.length = m + k + 4 := by
  obtain ⟨check, _, hmap⟩ := h.highs
  have hlength := congrArg List.length hmap
  simp only [signedHighs, List.length_map, List.length_cons, List.length_append,
    List.length_replicate, List.length_nil] at hlength
  omega

lemma high_eq (h : Signed m k word) (j : Nat) :
    ∃ check, (check = 1 ∨ check = 2) ∧
      (word[j]?).map Byte.high = (signedHighs m k check)[j]? := by
  obtain ⟨check, hcheck, hmap⟩ := h.highs
  exact ⟨check, hcheck, by rw [← List.getElem?_map, hmap]⟩

/-- An upper half of zero is that of the STX or of the ETX. -/
lemma eq_of_high_zero (h : Signed m k word) (hj : word[j]? = some b) (hb : Byte.high b = 0) :
    j = 0 ∨ j = m + k + 2 := by
  obtain ⟨check, hcheck, hhigh⟩ := h.high_eq j
  rw [hj, Option.map_some, hb, getElem?_signedHighs] at hhigh
  split_ifs at hhigh with hplace
  · exact hplace
  · simp at hhigh
  · rcases hcheck with rfl | rfl <;> simp at hhigh
  · simp at hhigh

/-- An upper half of one or two is that of the sign or of the check byte. -/
lemma eq_of_high_marked (h : Signed m k word) (hj : word[j]? = some b)
    (hb : Byte.high b = 1 ∨ Byte.high b = 2) : j = m + 1 ∨ j = m + k + 3 := by
  obtain ⟨check, _, hhigh⟩ := h.high_eq j
  rw [hj, Option.map_some, getElem?_signedHighs] at hhigh
  split_ifs at hhigh with _ hsign hcheck
  · rcases hb with hb | hb <;> simp [hb] at hhigh
  · exact .inl hsign
  · exact .inr hcheck
  · rcases hb with hb | hb <;> simp [hb] at hhigh

lemma sign (h : Signed m k word) : ∃ b, word[m + 1]? = some b ∧ Byte.high b = 2 := by
  obtain ⟨check, _, hhigh⟩ := h.high_eq (m + 1)
  rw [getElem?_signedHighs, if_neg (by omega), if_pos rfl] at hhigh
  exact Option.map_eq_some_iff.mp hhigh

lemma etx (h : Signed m k word) : ∃ b, word[m + k + 2]? = some b ∧ Byte.high b = 0 := by
  obtain ⟨check, _, hhigh⟩ := h.high_eq (m + k + 2)
  rw [getElem?_signedHighs, if_pos (.inr rfl)] at hhigh
  exact Option.map_eq_some_iff.mp hhigh

lemma check (h : Signed m k word) :
    ∃ b, word[m + k + 3]? = some b ∧ (Byte.high b = 1 ∨ Byte.high b = 2) := by
  obtain ⟨check, hcheck, hhigh⟩ := h.high_eq (m + k + 3)
  rw [getElem?_signedHighs, if_neg (by omega), if_neg (by omega), if_pos rfl] at hhigh
  obtain ⟨b, hb, rfl⟩ := Option.map_eq_some_iff.mp hhigh
  exact ⟨b, hb, hcheck⟩

/-- The STX and the check byte see a change that leaves everything in its place. -/
lemma not_signed_set (h : Signed m k word) (hold : word[i]? = some old) (hne : b ≠ old) :
    ¬ Signed m n (word.set i b) := by
  intro hset
  obtain ⟨c, rest, rfl⟩ : ∃ c rest, word = c :: rest := by
    cases word with
    | nil => cases hold
    | cons c rest => exact ⟨c, rest, rfl⟩
  rcases i with _ | i
  · have hstx := hset.head
    have hc := h.head
    simp only [List.set_cons_zero, List.getElem?_cons_zero, Option.some.injEq] at hstx hc hold
    exact hne (hstx.trans (hc.symm.trans hold))
  · have hparity := hset.parity_tail
    rw [List.set_cons_succ, List.tail_cons] at hparity
    exact parity_set_ne (List.getElem?_cons_succ ▸ hold) hne (hparity.trans h.parity_tail.symm)

/-- **A word with a sign and one byte wrong has no such word in it.**  The numbers of digits behind
the sign need not be the same. -/
theorem not_infix_set (hsent : Signed m k sent) (hword : Signed m n word)
    (hold : sent[i]? = some old) (hne : b ≠ old) : ¬ word <:+: sent.set i b := by
  rintro ⟨front, back, h⟩
  have hlength := congrArg List.length h
  rw [List.length_append, List.length_append, List.length_set, hword.length_eq,
    hsent.length_eq] at hlength
  -- a byte of the word stood in the frame as well, unless it is the wrong one
  have hkept : ∀ {j : Nat} {x : UInt8}, word[j]? = some x → front.length + j ≠ i →
      sent[front.length + j]? = some x := by
    intro j x hx hj
    have hlt := (List.getElem?_eq_some_iff.mp hx).1
    rw [← List.getElem?_set_ne (a := b) hj.symm, ← h, List.append_assoc,
      List.getElem?_append_right (by omega), Nat.add_sub_cancel_left,
      List.getElem?_append_left hlt, hx]
  -- the word begins where the frame begins, since its STX or its sign would be out of place
  have hfront : front.length = 0 := by
    by_cases hstx : front.length = i
    · obtain ⟨x, hx, hhigh⟩ := hword.sign
      rcases hsent.eq_of_high_marked (hkept hx (by omega)) (.inr hhigh) with hat | hat <;> omega
    · rcases hsent.eq_of_high_zero (hkept hword.head (by omega)) rfl with hat | hat <;> omega
  -- and it ends where the frame ends, since its ETX or its check byte would be
  have hdigits : n = k := by
    by_cases hetx : i = m + n + 2
    · obtain ⟨x, hx, hhigh⟩ := hword.check
      rcases hsent.eq_of_high_marked (hkept hx (by omega)) hhigh with hat | hat <;> omega
    · obtain ⟨x, hx, hhigh⟩ := hword.etx
      rcases hsent.eq_of_high_zero (hkept hx (by omega)) hhigh with hat | hat <;> omega
  -- so it is the whole frame
  obtain rfl : front = [] := List.length_eq_zero_iff.mp hfront
  obtain rfl : back = [] := List.length_eq_zero_iff.mp (by omega)
  rw [List.nil_append, List.append_nil] at h
  subst h
  exact hsent.not_signed_set hold hne hword

end Signed

namespace Frame

variable {traffic : Traffic} {frame : Frame} {word : Bytes}

lemma map_high_of_allDigits {digits : Bytes} (h : Decimal.AllDigits digits) :
    digits.map Byte.high = List.replicate digits.length 3 := by
  rw [List.map_eq_replicate_iff]
  intro b hb
  exact Byte.high_of_isDigit (h b hb)

lemma signed_checked {front digits : Bytes} {sign : UInt8} {value : Value}
    (hfront : Decimal.AllDigits front) (hv : value.Spelling sign digits) :
    Signed front.length digits.length
      (checked .plain (front ++ sign :: digits ++ [Byte.etx])) where
  head := rfl
  highs := by
    refine ⟨_, high_parity_of_sign hfront hv.isSign hv.allDigits, ?_⟩
    simp [checked, signedHighs, map_high_of_allDigits hfront, map_high_of_allDigits hv.allDigits,
      Byte.high_of_isSign hv.isSign, checkByte, CheckMode.finish]
    decide
  parity_tail := parity_concat_parity _

/-- The words of a write have at least ten bytes, five digits in front of the sign among them. -/
lemma signed_of_write {station : Station} {parameter : Parameter} {value : Value}
    (h : (Frame.request (.write station parameter value)).WireWord traffic .plain word) :
    10 ≤ word.length ∧ ∃ k, Signed 5 k word := by
  cases h with
  | checked hbody =>
      cases hbody with
      | write ha hp hv =>
          have hsigned := signed_checked (ha.allDigits_fields hp) hv
          rw [ha.length_fields hp] at hsigned
          have hpos := hv.length_pos
          refine ⟨?_, _, hsigned⟩
          rw [hsigned.length_eq]
          omega

lemma signed_of_value {value : Value}
    (h : (Frame.reply (.value value)).WireWord traffic .plain word) : ∃ k, Signed 0 k word := by
  cases h with
  | checked hbody =>
      cases hbody with
      | value hv => exact ⟨_, signed_checked Decimal.allDigits_nil hv⟩

/-- The words of all other frames are shorter than those of a write. -/
lemma length_lt_or_write (h : frame.WireWord traffic .plain word) :
    word.length < 10 ∨ ∃ station parameter value,
      frame = .request (.write station parameter value) := by
  cases h with
  | checked hbody =>
      cases hbody with
      | read ha hp => exact .inl (by simp [checked, ha.length_eq, hp.length_eq])
      | write ha hp hv => exact .inr ⟨_, _, _, rfl⟩
      | value hv =>
          have := hv.length_le
          exact .inl (by simp [checked]; omega)
  | ack => exact .inl (by simp)
  | nak => exact .inl (by simp)
  | eot hreplies => exact .inl (by simp)
  | select hcommands ha => exact .inl (by simp [ha.length_eq])

/-- Every frame is sent in one direction or the other. -/
lemma exists_wireWord_encode (mode : CheckMode) (frame : Frame) :
    ∃ traffic, frame.WireWord traffic mode (frame.encode mode).bytes := by
  cases frame with
  | request request => exact ⟨_, wireWord_request mode request⟩
  | reply reply => exact ⟨_, wireWord_reply mode reply⟩

end Frame

/-- No word of a write stands in a frame that arrived with one byte wrong. -/
lemma OneByteOff.not_write_infix {frame : Frame} {traffic : Traffic} {station : Station}
    {parameter : Parameter} {value : Value} {received word : Bytes}
    (h : OneByteOff (frame.encode .plain).bytes received)
    (hword : (Frame.request (.write station parameter value)).WireWord traffic .plain word) :
    ¬ word <:+: received := by
  obtain ⟨i, old, b, hold, hne, rfl⟩ := h
  obtain ⟨hlong, n, hsigned⟩ := Frame.signed_of_write hword
  obtain ⟨direction, hsent⟩ := Frame.exists_wireWord_encode .plain frame
  rcases Frame.length_lt_or_write hsent with hshort | ⟨s, p, v, rfl⟩
  · intro hinfix
    have hle := hinfix.length_le
    rw [List.length_set] at hle
    omega
  · obtain ⟨-, k, hsentSigned⟩ := Frame.signed_of_write hsent
    exact hsentSigned.not_infix_set hsigned hold hne

lemma OneByteOff.not_value_infix {sent value : Value} {traffic : Traffic} {received word : Bytes}
    (h : OneByteOff ((Frame.reply (.value sent)).encode .plain).bytes received)
    (hword : (Frame.reply (.value value)).WireWord traffic .plain word) :
    ¬ word <:+: received := by
  obtain ⟨i, old, b, hold, hne, rfl⟩ := h
  obtain ⟨n, hsigned⟩ := Frame.signed_of_value hword
  obtain ⟨k, hsent⟩ := Frame.signed_of_value (Frame.wireWord_reply .plain (.value sent))
  exact hsent.not_infix_set hsigned hold hne

/-- **One wrong byte never becomes data.**  A station gets through a frame that arrived with one
byte wrong, and no run of it on such a frame calls for a write.  No way to feed a controller that
has just asked for a value a value reply that arrived so ends the read with a value. -/
theorem no_data_of_oneByteOff :
    (∀ (frame : Frame) (received : Bytes), OneByteOff (frame.encode .plain).bytes received →
      ∀ node : Node, node.receiver = .start .commands .plain →
      (∃ calls last, node.Run received calls last []) ∧
      ∀ (calls : List Call) (last : Node) (rest : Bytes), node.Run received calls last rest →
      ∀ (parameter : Parameter) (value : Value), .write parameter value ∉ calls) ∧
    ∀ (sent : Value) (received : Bytes),
      OneByteOff ((Frame.reply (.value sent)).encode .plain).bytes received →
      ∀ controller : Controller, controller.exchange? = some (.start .read .plain) →
      ∀ chunks : List Bytes, chunks.flatten = received →
      ∀ value : Value, .ok (some (.done (.value value))) ∉ (controller.feedEach chunks).1 := by
  constructor
  · intro frame received hoff node hstart
    refine ⟨Node.Run.exists_nil .start, ?_⟩
    intro calls last rest hrun parameter value hmem
    have hstation : (Request.write node.station parameter value).station = node.station := rfl
    obtain ⟨word, hinfix, hword⟩ := hrun.word_of_call hstart hstation hmem
    exact hoff.not_write_infix hword hinfix
  · intro sent received hoff controller hexchange chunks hchunks value hmem
    have hfollows : (Exchange.start .read .plain).replies.Follows .replies .plain [] :=
      Receiver.follows_start
    obtain ⟨word, hinfix, hword⟩ := Controller.word_of_value hexchange hfollows hmem
    rw [List.nil_append, hchunks] at hinfix
    exact hoff.not_value_infix hword hinfix

/-- Writing 123 to a parameter, and reading 123: the second digit of the value became an ETX, so
that the third is in the place of the check byte. -/
theorem no_data_of_etx_for_digit :
    (∃ last, (Node.new ⟨12, by decide⟩ .plain).Run
        [0x02, 0x31, 0x32, 0x30, 0x30, 0x35, 0x2B, 0x31, 0x03, 0x33, 0x03, 0x2E]
        [.malformed .checksum] last [0x03, 0x2E] ∧
      Call.write ⟨5, by decide⟩ ⟨1, by decide, by decide⟩ ∉ [.malformed .checksum]) ∧
    .ok (some (.done (.value ⟨1, by decide, by decide⟩))) ∉
      (Controller.feedEach ⟨.plain, some (.start .read .plain), none⟩
        [[0x02, 0x2B, 0x31, 0x03], [0x33, 0x03, 0x18]]).1 := by
  constructor
  · have hoff : OneByteOff ((Frame.request (.write ⟨12, by decide⟩ ⟨5, by decide⟩
        ⟨123, by decide, by decide⟩)).encode .plain).bytes
        [0x02, 0x31, 0x32, 0x30, 0x30, 0x35, 0x2B, 0x31, 0x03, 0x33, 0x03, 0x2E] :=
      ⟨8, 0x32, 0x03, by decide, by decide, by decide⟩
    have hheard : ((Node.new ⟨12, by decide⟩ .plain).feed
        [0x02, 0x31, 0x32, 0x30, 0x30, 0x35, 0x2B, 0x31, 0x03, 0x33, 0x03, 0x2E]).1
          = .ok ⟨some (.malformed .checksum), 10⟩ := by decide +kernel
    have hrun := @Node.Run.feed _ _ _ _ _ _ [] _ .start (Prod.ext hheard rfl)
    exact ⟨_, hrun, (no_data_of_oneByteOff.1 _ _ hoff _ rfl).2 _ _ _ hrun _ _⟩
  · have hoff : OneByteOff
        ((Frame.reply (.value ⟨123, by decide, by decide⟩)).encode .plain).bytes
        [0x02, 0x2B, 0x31, 0x03, 0x33, 0x03, 0x18] :=
      ⟨3, 0x32, 0x03, by decide, by decide, by decide⟩
    exact no_data_of_oneByteOff.2 _ _ hoff _ rfl _ rfl _

end FieldBus
