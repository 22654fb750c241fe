import FieldBus.Link.Script
import FieldBus.Proofs.Calling

/-!
# How an answer is delivered

An answer comes in pieces.  A link gives what it has, which may be nothing, and never more than one
read asks for, so that a long chunk takes several reads; a client waits on through all of them.  To
what it waits for the pieces do not matter.  The result of a call is a function of the stream of
bytes that comes before reading first fails (**`Client.result_of_stream`**), and nothing is read
behind the piece that has the byte which decides it.

* `Script.stream`, `Script.behindFailure` — what a script gives before its first failure, and the
  entries behind that.
* `Script.leftBehind` — the entries that are left when a byte of the stream was in the last read.
* `Script.Serves` — what a run of successful reads does to all three.
-/

namespace FieldBus

namespace Script

/-! ## A script as a stream -/

/-- The bytes that reading gives before it first fails. -/
def stream : List (Option Bytes) → Bytes
  | [] => []
  | none :: _ => []
  | some chunk :: rest => chunk ++ stream rest

/-- The entries behind the first failure. -/
def behindFailure : List (Option Bytes) → List (Option Bytes)
  | [] => []
  | none :: rest => rest
  | some _ :: rest => behindFailure rest

/-- What so many reads leave of an entry. -/
def remainder (chunk : Bytes) (reads : Nat) : List (Option Bytes) :=
  if Link.readLimit * reads < chunk.length then
    [some (chunk.drop (Link.readLimit * reads))]
  else
    []

/-- The entries that are left when the last read was the one with the byte at this place of the
stream: what that read leaves of its own entry, and all entries behind it. -/
def leftBehind : List (Option Bytes) → Nat → List (Option Bytes)
  | [], _ => []
  | none :: rest, _ => rest
  | some chunk :: rest, place =>
    if place < chunk.length then
      remainder chunk (place / Link.readLimit + 1) ++ rest
    else
      leftBehind rest (place - chunk.length)

variable {script mid next : Script} {given more chunk : Bytes} {place : Nat}

/-- Reading gives these bytes and goes on from there as if they had never been in the script. -/
structure Serves (script : Script) (given : Bytes) (next : Script) : Prop where
  stream_eq : stream script.entries = given ++ stream next.entries
  behind_eq : behindFailure script.entries = behindFailure next.entries
  left_eq : ∀ place, given.length ≤ place →
    leftBehind script.entries place = leftBehind next.entries (place - given.length)

namespace Serves

lemma nil (script : Script) : script.Serves [] script where
  stream_eq := rfl
  behind_eq := rfl
  left_eq _ _ := rfl

lemma append (h : script.Serves given mid) (hmore : mid.Serves more next) :
    script.Serves (given ++ more) next where
  stream_eq := by rw [h.stream_eq, hmore.stream_eq, List.append_assoc]
  behind_eq := h.behind_eq.trans hmore.behind_eq
  left_eq place hplace := by
    rw [List.length_append] at hplace ⊢
    rw [h.left_eq place (by omega), hmore.left_eq _ (by omega), Nat.sub_sub]

end Serves

/-- A read that goes well gives an entry, or the front of one that is too long for it. -/
lemma read_cases (h : Link.read script Link.readLimit = (some chunk, next)) :
    (script.entries = some chunk :: next.entries ∧ chunk.length ≤ Link.readLimit) ∨
      ∃ tail rest, script.entries = some (chunk ++ tail) :: rest ∧ tail ≠ [] ∧
        chunk.length = Link.readLimit ∧ next.entries = some tail :: rest := by
  change script.read Link.readLimit = (some chunk, next) at h
  rw [read.eq_def] at h
  rcases hentries : script.entries with _ | ⟨_ | entry, rest⟩
  · rw [hentries] at h
    cases h
  · rw [hentries] at h
    cases h
  · rw [hentries] at h
    dsimp only at h
    split_ifs at h with hfits
    · cases h
      exact .inl ⟨rfl, hfits⟩
    · cases h
      refine .inr ⟨entry.drop Link.readLimit, rest, ?_, ?_, ?_, rfl⟩
      · rw [List.take_append_drop]
      · intro hnil
        exact hfits (List.drop_eq_nil_iff.mp hnil)
      · rw [List.length_take]
        omega

/-- A read that fails has come to the end of the stream. -/
lemma read_failed (h : Link.read script Link.readLimit = (none, next)) :
    stream script.entries = [] ∧ next.entries = behindFailure script.entries := by
  change script.read Link.readLimit = (none, next) at h
  rw [read.eq_def] at h
  rcases hentries : script.entries with _ | ⟨_ | entry, rest⟩
  · rw [hentries] at h
    cases h
    exact ⟨rfl, hentries⟩
  · rw [hentries] at h
    cases h
    exact ⟨rfl, rfl⟩
  · rw [hentries] at h
    dsimp only at h
    split_ifs at h <;> cases h

/-- What is left of an entry of which one read is made first. -/
lemma remainder_append (hchunk : chunk.length = Link.readLimit) (tail : Bytes) (reads : Nat) :
    remainder (chunk ++ tail) (reads + 1) = remainder tail reads := by
  have hlength : Link.readLimit * (reads + 1) = chunk.length + Link.readLimit * reads := by
    rw [hchunk, Nat.mul_add, Nat.mul_one, Nat.add_comm]
  rw [remainder, remainder, hlength, List.length_append, List.drop_length_add_append]
  exact if_congr Nat.add_lt_add_iff_left rfl rfl

/-- Reads count from the front of an entry. -/
lemma reads_of_le (hplace : Link.readLimit ≤ place) :
    place / Link.readLimit = (place - Link.readLimit) / Link.readLimit + 1 := by
  rw [← Nat.sub_add_cancel hplace, Nat.add_div_right _ (by decide), Nat.sub_add_cancel hplace]

/-- **One read** serves what it gives. -/
theorem serves_of_read (h : Link.read script Link.readLimit = (some chunk, next)) :
    script.Serves chunk next := by
  rcases read_cases h with ⟨hentries, hfits⟩ | ⟨tail, rest, hentries, htail, hchunk, hnext⟩
  · refine ⟨by rw [hentries, stream], by rw [hentries, behindFailure], fun place hplace => ?_⟩
    rw [hentries, leftBehind, if_neg (Nat.not_lt.mpr hplace)]
  · refine ⟨?_, ?_, fun place hplace => ?_⟩
    · rw [hentries, hnext, stream, stream, List.append_assoc]
    · rw [hentries, hnext, behindFailure, behindFailure]
    · have hreads := reads_of_le (hchunk ▸ hplace)
      rw [hentries, hnext, leftBehind, leftBehind, List.length_append, hreads,
        remainder_append hchunk, hchunk, ← Nat.sub_sub]
      refine if_congr ?_ rfl rfl
      omega

/-- Behind the read with a byte of the stream these entries are left. -/
lemma left_of_read (h : Link.read script Link.readLimit = (some chunk, next))
    (hplace : place < chunk.length) : next.entries = leftBehind script.entries place := by
  rcases read_cases h with ⟨hentries, hfits⟩ | ⟨tail, rest, hentries, htail, hchunk, hnext⟩
  · rw [hentries, leftBehind, if_pos hplace, remainder, if_neg, List.nil_append]
    rw [Nat.div_eq_of_lt (by omega)]
    omega
  · have hlength := List.length_pos_iff.mpr htail
    rw [hentries, hnext, leftBehind, if_pos (by rw [List.length_append]; omega),
      Nat.div_eq_of_lt (by omega), remainder_append hchunk, remainder,
      if_pos (by simpa using hlength)]
    rfl

/-! ## Many reads -/

/-- **Reads that go well** serve what they give, in front of the last read. -/
theorem exists_serves {given : List Bytes} {last : Option Bytes}
    (h : Link.Reads script (given.map some ++ [last]) next) :
    ∃ mid, script.Serves given.flatten mid ∧
      Link.read mid Link.readLimit = (last, next) := by
  induction given generalizing script with
  | nil =>
      cases h with
      | cons hread hrest =>
          cases hrest
          exact ⟨script, .nil script, hread⟩
  | cons chunk rest ih =>
      cases h with
      | cons hread hrest =>
          obtain ⟨mid, hserves, hlast⟩ := ih hrest
          exact ⟨mid, (serves_of_read hread).append hserves, hlast⟩

end Script

/-- The reason that a report gives, if it is of a refusal. -/
def Report.refusal? : Report → Option Refusal
  | frame (.reply (.refused why)) => some why
  | _ => none

namespace Client

/-- **A request over a script** that takes all of it, by a client that is not impatient.  The first
report of the stream is the answer, and reading stops with the byte that brings it; if there is
none, reading goes on until it fails. -/
theorem Conversed.of_script {kind : Kind} {mode : CheckMode} {message : Bytes}
    {script next : Script} {answer : Except Fault Ending}
    (h : Conversed kind mode false message script answer next)
    (hwhole : (Link.write script message).1 = some message.length) :
    match ((Receiver.start .replies mode).feed (Script.stream script.entries)).report? with
    | some report =>
      answer = .ok (kind.closing report) ∧ ∃ place,
        (Receiver.start .replies mode).Decides (Script.stream script.entries) place report ∧
        next.entries = Script.leftBehind script.entries place
    | none =>
      answer = .error .transport ∧ next.entries = Script.behindFailure script.entries := by
  cases h with
  | cut hwrite hcut =>
      rw [hwrite] at hwhole
      exact absurd hwhole hcut
  | stuck hwrite hflush => cases hflush
  | @sent written sent next before last answer hwrite hflush hreads hlength honce hsilent
      hsettles =>
      -- neither writing nor flushing changes what there is to read
      have hentries : sent.entries = script.entries := by
        obtain ⟨-, rfl⟩ := Prod.mk.inj hwrite
        obtain ⟨-, rfl⟩ := Prod.mk.inj hflush
        rfl
      obtain ⟨mid, hserves, hlast⟩ := Script.exists_serves hreads
      rw [← hentries, hserves.stream_eq]
      cases hsettles with
      | timedOut himpatient hnone => cases himpatient
      | failed =>
          obtain ⟨hend, hleft⟩ := Script.read_failed hlast
          rw [hend, List.append_nil, hsilent]
          exact ⟨rfl, hleft.trans hserves.behind_eq.symm⟩
      | @answered chunk report hreport =>
          rw [(Script.serves_of_read hlast).stream_eq, ← List.append_assoc]
          generalize Script.stream next.entries = more
          have hbegin : before.flatten ++ chunk <+: before.flatten ++ chunk ++ more :=
            List.prefix_append _ _
          have hsome := Receiver.report?_of_prefix_of_some hbegin hreport
          obtain ⟨place, hdecides⟩ := Receiver.exists_decides hsome
          -- the reads before the last brought no report, so the byte that decides is in the last
          have hplace : before.flatten.length ≤ place :=
            hdecides.length_le ((List.prefix_append _ _).trans hbegin) hsilent
          have hlt : place < (before.flatten ++ chunk).length :=
            (hdecides.lt_length hbegin hreport).1
          rw [List.length_append] at hlt
          rw [hsome]
          refine ⟨rfl, place, hdecides, ?_⟩
          rw [hserves.left_eq place hplace]
          exact Script.left_of_read hlast (by omega)

lemma refusalIn?_closing (kind : Kind) (report : Report) :
    refusalIn? (.ok (kind.closing report)) = report.refusal? := by
  rcases report with (request | reply) | defect
  · cases kind <;> rfl
  · cases reply <;> cases kind <;> rfl
  · cases kind <;> rfl

variable {L : Type} [EndingLink L] {mode : CheckMode} {timeout : Int}

/-- A new client, with which all this was done. -/
def after (mode : CheckMode) (timeout : Int) (operations : List (Operation L)) : Client :=
  (History.run operate (new mode timeout) operations).2

/-- **The result of a call does not depend on how the answer is delivered.**  A client has made any
calls, and its time limit does not pass.  It carries out an order over a script that takes all of
the request.  The result is what the first report means, for this kind of request, that a fresh
receiver has for the stream of all bytes in front of the first failure, and the link fails the call
if there is no such report.  A refusal is known, with its reason, exactly if that report is of one.
With the read that has the byte which decides, reading stops: what that read leaves of its entry,
and all entries behind, are still there. -/
theorem result_of_stream {operations : List (Operation L)} {order : Order} {request : Request}
    {script : Script} (hcheck : order.check = .ok request)
    (hwhole : (Link.write script ((Frame.request request).encode mode).bytes).1
      = some ((Frame.request request).encode mode).bytes.length)
    (hpatient : 0 < timeLimit timeout (History.run operate (new mode timeout) operations).1) :
    let called := (after mode timeout operations).perform order script
    let stream := Script.stream script.entries
    match ((Receiver.start .replies mode).feed stream).report? with
    | some report =>
      called.result = resultOf (.ok (request.kind.closing report)) ∧
        called.client.refusal? = report.refusal? ∧
        ∃ place, (Receiver.start .replies mode).Decides stream place report ∧
          called.link.entries = Script.leftBehind script.entries place
    | none =>
      called.result = .error .transport ∧ called.client.refusal? = none ∧
        called.link.entries = Script.behindFailure script.entries := by
  intro called stream
  have hperform := (keeps_run mode timeout operations).perform order script
  rw [hcheck] at hperform
  obtain ⟨answer, hconversed, hresult, hrefusal⟩ := hperform
  rw [decide_eq_false (Int.not_le.mpr hpatient)] at hconversed
  have hscript := hconversed.of_script hwhole
  change called.result = _ at hresult
  change called.client.refusal? = _ at hrefusal
  rw [hresult, hrefusal]
  cases hreport : ((Receiver.start .replies mode).feed stream).report? with
  | some report =>
      rw [hreport] at hscript
      obtain ⟨rfl, place, hdecides, hleft⟩ := hscript
      exact ⟨rfl, refusalIn?_closing request.kind report, place, hdecides, hleft⟩
  | none =>
      rw [hreport] at hscript
      obtain ⟨rfl, hleft⟩ := hscript
      exact ⟨rfl, rfl, hleft⟩

/-- A client had no time for an answer, of which only the beginning came, and then was given some.
The refusal of its next read stands in the middle of a chunk that takes three reads, of which it
makes two. -/
theorem result_of_stream_in_long_chunk :
    let operations : List (Operation Script) :=
      [.order (.select 3) (.ofEntries [some [0x02, 0x2B], none]), .setTimeout 500]
    let client := after .plain 0 operations
    let spaces := List.replicate 130 0x20
    let script : Script := .ofEntries [some [], some (spaces ++ [0x04] ++ spaces), some [0x15]]
    let called := client.perform (.read 12 5) script
    0 < timeLimit 0 (History.run operate (new .plain 0) operations).1 ∧
      called.result = .error .rejected ∧ called.client.refusal? = some .invalidParameter ∧
      called.link.entries = [some (List.replicate 5 0x20), some [0x15]] := by
  intro operations client spaces script called
  have hpatient : 0 < timeLimit 0 (History.run operate (new .plain 0) operations).1 := by
    decide +kernel
  have hcheck : (Order.read 12 5).check = .ok (.read ⟨12, by decide⟩ ⟨5, by decide⟩) := rfl
  have hwhole : (Link.write script ((Frame.request (.read ⟨12, by decide⟩
      ⟨5, by decide⟩)).encode .plain).bytes).1 = some 8 := rfl
  -- the lone EOT is the byte at place 130 of the stream, and the first with a report
  have hfront : ((Receiver.start .replies .plain).feed
      ((Script.stream script.entries).take 131)).report?
      = some (.frame (.reply (.refused .invalidParameter))) := by decide +kernel
  have hreport := Receiver.report?_of_prefix_of_some (List.take_prefix _ _) hfront
  have hcall := result_of_stream hcheck hwhole hpatient
  dsimp only at hcall
  rw [hreport] at hcall
  obtain ⟨hresult, hrefusal, place, hdecides, hleft⟩ := hcall
  have hbefore : 130 ≤ place :=
    hdecides.length_le (List.take_prefix 130 _) (by decide +kernel)
  have hwith : place < 131 := (hdecides.lt_length (List.take_prefix 131 _) hfront).1
  obtain rfl : place = 130 := by omega
  have hentries : Script.leftBehind script.entries 130
      = [some (List.replicate 5 0x20), some [0x15]] := by decide +kernel
  exact ⟨hpatient, hresult, hrefusal, hleft.trans hentries⟩

end Client

end FieldBus
