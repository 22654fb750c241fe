import FieldBus.Link.Line
import FieldBus.Proofs.History

/-!
# What a line carries

Between reads of any size more bytes may be queued, and the queue may be wound back or replaced.  A
device keeps all of it in one buffer with a position in it, and what is left to read is the
difference of two numbers without a sign, which is worth nothing once the position is behind the
end.  `Line` has no position: it keeps what was served apart from what was not.  So this file writes
the buffer and the position down as well, with nothing to keep the one from passing the other
(`Tape`), and finds that a line is a tape on which this never happens (`Line.tape_operate`).

What was given and what was taken is then told from the log of all calls alone
(**`Line.carries_without_loss`**).

* `Line.operate`, `Line.Entry` — one call, and what the log has of it.
* `Line.supplied`, `Line.delivered`, `Line.outstanding` — what was queued since the queue was last
  replaced, what reads gave of it since it was last begun, and what is still to come.
* `Line.allowance`, `Line.recorded` — how much one write may add, and what all of them added since
  the outbox was last emptied.
* `Tape`, `Line.tape` — a buffer with a position in it, and the one that stands for a line.
* `Line.Matches` — the invariant: the log and the line say the same.
* `Line.filter_reading`, `Line.filter_writing` — what comes of the calls on one side, if those on
  the other are left out.
-/

namespace FieldBus

namespace Line

/-! ## The log -/

/-- What can be done with a line. -/
inductive Operation where
  | load (bytes : Bytes)
  | queue (bytes : Bytes)
  /-- A read into a destination, which may be of any size and hold anything. -/
  | read (destination : Bytes)
  | rewind
  | write (message : Bytes)
  | limitWrites (n : Nat)
  | clearWritten
  deriving DecidableEq

/-- The calls on the reading side.  All others are on the writing side. -/
def Operation.isReading : Operation → Bool
  | load _ | queue _ | read _ | rewind => true
  | write _ | limitWrites _ | clearWritten => false

/-- What a log has of a call.  Of a read it has the destination before and after and the count that
was returned, of a write the count that was returned. -/
inductive Entry where
  | loaded (bytes : Bytes)
  | queued (bytes : Bytes)
  | filled (destination : Bytes) (count : Nat) (after : Bytes)
  | rewound
  | wrote (message : Bytes) (count : Nat)
  | limited (n : Nat)
  | cleared
  deriving DecidableEq

def operate (line : Line) : Operation → Entry × Line
  | .load bytes => (.loaded bytes, line.load bytes)
  | .queue bytes => (.queued bytes, line.queue bytes)
  | .read destination =>
    let (count, after, next) := line.readInto destination
    (.filled destination count after, next)
  | .rewind => (.rewound, line.rewind)
  | .write message =>
    let (count, next) := line.write message
    (.wrote message count, next)
  | .limitWrites n => (.limited n, line.limitWrites n)
  | .clearWritten => (.cleared, line.clearWritten)

namespace Entry

/-- The call that an entry is made for. -/
def operation : Entry → Operation
  | loaded bytes => .load bytes
  | queued bytes => .queue bytes
  | filled destination _ _ => .read destination
  | rewound => .rewind
  | wrote message _ => .write message
  | limited n => .limitWrites n
  | cleared => .clearWritten

/-- What the queue is replaced with. -/
def load? : Entry → Option Bytes
  | loaded bytes => some bytes
  | _ => none

/-- What comes to the end of the queue. -/
def added : Entry → Bytes
  | queued bytes => bytes
  | _ => []

/-- Whether the queue is served from its beginning afterwards. -/
def isStart : Entry → Bool
  | loaded _ | rewound => true
  | _ => false

/-- What a read gives: the part of the destination that it says it has filled. -/
def given : Entry → Bytes
  | filled _ count after => after.take count
  | _ => []

def limit? : Entry → Option Nat
  | limited n => some n
  | _ => none

def isCleared : Entry → Bool
  | cleared => true
  | _ => false

/-- What a write says it has taken. -/
def taken : Entry → Bytes
  | wrote message count => message.take count
  | _ => []

end Entry

/-- What the queue was last replaced with, and all that was queued since. -/
def supplied (log : List Entry) : Bytes :=
  (log.filterMap Entry.load?).getLast?.getD [] ++ History.gathered (·.load?.isSome) Entry.added log

/-- All that reads gave since the queue was last replaced or wound back. -/
def delivered (log : List Entry) : Bytes := History.gathered Entry.isStart Entry.given log

/-- What was supplied and is still to be delivered. -/
def outstanding (log : List Entry) : Bytes := (supplied log).drop (delivered log).length

/-- How much of a message of this size is taken: all of it, or as much as the last limit allows. -/
def allowance (log : List Entry) (size : Nat) : Nat :=
  (log.filterMap Entry.limit?).getLast?.elim size (min · size)

/-- All that writes took since the outbox was last emptied. -/
def recorded (log : List Entry) : Bytes := History.gathered Entry.isCleared Entry.taken log

/-- What a call returns is as the log before it has it.  A read gives the next bytes, as many as
there are and as the destination holds, and leaves the destination behind them as it was.  A write
takes what it is allowed to. -/
def Tells (before : List Entry) : Entry → Prop
  | .filled destination count after =>
    count = min destination.length (outstanding before).length ∧
      after.take count = (outstanding before).take count ∧
      after.drop count = destination.drop count
  | .wrote message count => count = allowance before message.length
  | _ => True

end Line

/-! ## Tapes -/

/-- A buffer of bytes with a position in it, and an outbox for what is written. -/
structure Tape where
  buffer : Bytes
  position : Nat
  outbox : Outbox
  deriving DecidableEq

namespace Tape

def empty : Tape := ⟨[], 0, .empty⟩

def hasData (tape : Tape) : Bool := tape.position < tape.buffer.length

/-- The length less the position.  There is no such number, without a sign, if the position is
behind the end. -/
def available? (tape : Tape) : Option Nat :=
  if tape.position ≤ tape.buffer.length then
    some (tape.buffer.length - tape.position)
  else
    none

/-- Copies bytes from the position on to the front of the destination and moves the position behind
them. -/
def readInto (tape : Tape) (destination : Bytes) : Nat × Bytes × Tape :=
  if tape.buffer.length ≤ tape.position then
    (0, destination, tape)
  else
    let count := min destination.length (tape.buffer.length - tape.position)
    (count, (tape.buffer.drop tape.position).take count ++ destination.drop count,
      { tape with position := tape.position + count })

def operate (tape : Tape) : Line.Operation → Line.Entry × Tape
  | .load bytes => (.loaded bytes, { tape with buffer := bytes, position := 0 })
  | .queue bytes => (.queued bytes, { tape with buffer := tape.buffer ++ bytes })
  | .read destination =>
    let (count, after, next) := tape.readInto destination
    (.filled destination count after, next)
  | .rewind => (.rewound, { tape with position := 0 })
  | .write message =>
    let (count, outbox) := tape.outbox.write message
    (.wrote message count, { tape with outbox := outbox })
  | .limitWrites n => (.limited n, { tape with outbox := tape.outbox.limit n })
  | .clearWritten => (.cleared, { tape with outbox := tape.outbox.clear })

end Tape

namespace Outbox

lemma length_accepted (outbox : Outbox) (message : Bytes) :
    (outbox.accepted message).length
      = outbox.limit?.elim message.length (min · message.length) := by
  rw [accepted]
  cases outbox.limit? with
  | none => rfl
  | some limit => exact List.length_take

/-- What is accepted of a message is its first part. -/
lemma take_accepted (outbox : Outbox) (message : Bytes) :
    message.take (outbox.accepted message).length = outbox.accepted message := by
  rw [accepted]
  cases outbox.limit? with
  | none => exact List.take_length
  | some limit => rw [List.length_take, ← List.take_eq_take_min]

end Outbox

namespace Line

variable {line : Line} {log : List Entry} {entry : Entry}

/-- The queue as one buffer, with the position behind what was served. -/
def tape (line : Line) : Tape := ⟨line.queued, line.served.length, line.outbox⟩

@[simp] lemma tape_buffer (line : Line) : line.tape.buffer = line.queued := rfl

@[simp] lemma tape_position (line : Line) : line.tape.position = line.served.length := rfl

@[simp] lemma tape_outbox (line : Line) : line.tape.outbox = line.outbox := rfl

@[simp] lemma length_queued (line : Line) :
    line.queued.length = line.served.length + line.unread.length :=
  List.length_append

@[simp] lemma drop_queued (line : Line) : line.queued.drop line.served.length = line.unread :=
  List.drop_left

lemma hasData_iff : line.hasData = true ↔ 0 < line.available := by
  rw [hasData, available, Bool.not_eq_true', List.isEmpty_eq_false_iff, List.length_pos_iff]

lemma hasData_tape (line : Line) : line.tape.hasData = line.hasData := by
  rw [Bool.eq_iff_iff, hasData_iff, Tape.hasData, decide_eq_true_iff, tape_buffer, tape_position,
    length_queued, available]
  omega

/-- The position of a line is not behind the end, and what is left there is what is not served. -/
lemma available?_tape (line : Line) : line.tape.available? = some line.available := by
  rw [Tape.available?, tape_buffer, tape_position, length_queued, if_pos (Nat.le_add_right _ _),
    Nat.add_sub_cancel_left, available]

lemma tape_read (line : Line) (limit : Nat) :
    (line.read limit).2.tape
      = { line.tape with
          position := line.served.length + min limit line.unread.length } := by
  rw [tape, queued_read, read, List.length_append, List.length_take, tape]

lemma readInto_tape (line : Line) (destination : Bytes) :
    line.tape.readInto destination
      = ((line.readInto destination).1, (line.readInto destination).2.1,
          (line.readInto destination).2.2.tape) := by
  have hcount : (line.read destination.length).1.length
      = min destination.length line.unread.length := List.length_take
  simp only [readInto, tape_read, hcount]
  simp only [Tape.readInto, tape_buffer, tape_position, length_queued, drop_queued]
  by_cases hunread : line.unread = []
  · -- nothing is left: the tape returns at once, and the line copies no byte
    rw [if_pos (by rw [hunread]; exact Nat.le_refl _), read, hunread]
    simp [tape]
  · have hpos := List.length_pos_iff.mpr hunread
    rw [if_neg (by omega), Nat.add_sub_cancel_left, ← List.take_eq_take_min, read]

/-- **A call does to the tape of a line what it does to the line.** -/
lemma tape_operate (line : Line) (operation : Operation) :
    line.tape.operate operation
      = ((line.operate operation).1, (line.operate operation).2.tape) := by
  cases operation with
  | queue bytes => simp [Tape.operate, operate, queue, tape, queued]
  | read destination => simp only [Tape.operate, operate, readInto_tape]
  | load _ | rewind | write _ | limitWrites _ | clearWritten => rfl

/-! ## One call -/

lemma operation_operate (line : Line) (operation : Operation) :
    (line.operate operation).1.operation = operation := by
  cases operation <;> rfl

lemma given_operate (line : Line) (destination : Bytes) :
    (line.operate (.read destination)).1.given = line.unread.take destination.length := by
  simp only [operate, Entry.given, readInto, read, List.take_left]

lemma queued_operate (line : Line) (operation : Operation) :
    (line.operate operation).2.queued
      = (line.operate operation).1.load?.getD
          (line.queued ++ (line.operate operation).1.added) := by
  cases operation with
  | load bytes => rfl
  | queue bytes => exact (List.append_assoc ..).symm
  | read destination => exact (line.queued_read _).trans (List.append_nil _).symm
  | _ => exact (List.append_nil _).symm

lemma served_operate (line : Line) (operation : Operation) :
    (line.operate operation).2.served
      = if (line.operate operation).1.isStart = true then []
        else line.served ++ (line.operate operation).1.given := by
  cases operation with
  | load bytes => rfl
  | rewind => rfl
  | read destination =>
      rw [given_operate]
      rfl
  | _ => exact (List.append_nil _).symm

lemma limit_operate (line : Line) (operation : Operation) :
    (line.operate operation).2.outbox.limit?
      = (line.operate operation).1.limit?.or line.outbox.limit? := by
  cases operation <;> rfl

lemma written_operate (line : Line) (operation : Operation) :
    (line.operate operation).2.outbox.written
      = if (line.operate operation).1.isCleared = true then []
        else line.outbox.written ++ (line.operate operation).1.taken := by
  cases operation with
  | write message =>
      exact congrArg (line.outbox.written ++ ·) (line.outbox.take_accepted message).symm
  | clearWritten => rfl
  | _ => exact (List.append_nil _).symm

/-! ## The log and the line -/

lemma supplied_concat : supplied (log ++ [entry])
    = entry.load?.getD (supplied log ++ entry.added) := by
  rw [supplied, History.getLast?_filterMap_concat, History.gathered_concat, supplied]
  cases hload : entry.load? with
  | none => rw [Option.none_or, if_neg (by simp), Option.getD_none, List.append_assoc]
  | some bytes =>
      rw [Option.some_or, Option.isSome_some, if_pos rfl, List.append_nil, Option.getD_some,
        Option.getD_some]

/-- The log and the line say the same. -/
structure Matches (log : List Entry) (line : Line) : Prop where
  queued_eq : line.queued = supplied log
  served_eq : line.served = delivered log
  limit_eq : line.outbox.limit? = (log.filterMap Entry.limit?).getLast?
  written_eq : line.outbox.written = recorded log
  tells : ∀ before entry, before ++ [entry] <+: log → Tells before entry

namespace Matches

lemma start : Matches [] empty where
  queued_eq := rfl
  served_eq := rfl
  limit_eq := rfl
  written_eq := rfl
  tells before entry h := by simp at h

lemma unread_eq (h : Matches log line) : line.unread = outstanding log := by
  rw [outstanding, ← h.queued_eq, ← h.served_eq, drop_queued]

lemma tells_operate (h : Matches log line) (operation : Operation) :
    Tells log (line.operate operation).1 := by
  cases operation with
  | read destination =>
      have hcount : (line.unread.take destination.length).length
          = min destination.length (outstanding log).length := by
        rw [List.length_take, h.unread_eq]
      refine ⟨hcount, ?_, List.drop_left⟩
      calc (line.unread.take destination.length ++ _).take _
          = line.unread.take destination.length := List.take_left
        _ = (outstanding log).take (min destination.length (outstanding log).length) := by
            rw [h.unread_eq, ← List.take_eq_take_min]
        _ = (outstanding log).take _ := by rw [← hcount]
  | write message =>
      change (line.outbox.accepted message).length = allowance log message.length
      rw [Outbox.length_accepted, h.limit_eq, allowance]
  | _ => trivial

/-- **What the log and the line say stays the same.** -/
lemma operate (h : Matches log line) (operation : Operation) :
    Matches (log ++ [(line.operate operation).1]) (line.operate operation).2 where
  queued_eq := by rw [queued_operate, supplied_concat, h.queued_eq]
  served_eq := by rw [served_operate, delivered, History.gathered_concat, h.served_eq, delivered]
  limit_eq := by rw [limit_operate, History.getLast?_filterMap_concat, h.limit_eq]
  written_eq := by
    rw [written_operate, recorded, History.gathered_concat, h.written_eq, recorded]
  tells := History.forall_prefix_concat h.tells (h.tells_operate operation)

end Matches

lemma matches_run (operations : List Operation) :
    Matches (History.run operate empty operations).1 (History.run operate empty operations).2 :=
  History.run_invariant operate Matches .start (fun _ _ operation h => h.operate operation)
    operations

/-! ## One side alone -/

/-- The calls on the reading side get the same and leave the same queue if the others are left
out. -/
lemma filter_reading (operations : List Operation) :
    let all := History.run operate empty operations
    let reading := History.run operate empty (operations.filter Operation.isReading)
    all.1.filter (·.operation.isReading) = reading.1 ∧
      all.2.served = reading.2.served ∧ all.2.unread = reading.2.unread := by
  refine History.run_filter operate
    (fun line other => line.served = other.served ∧ line.unread = other.unread)
    (fun line operation => by rw [operation_operate]) ?_ ?_ ⟨rfl, rfl⟩ operations
  · rintro ⟨served, unread, outbox⟩ ⟨_, _, other⟩ operation hreading ⟨rfl, rfl⟩
    cases operation with
    | load _ | queue _ | read _ | rewind => exact ⟨rfl, rfl, rfl⟩
    | write _ | limitWrites _ | clearWritten => cases hreading
  · intro line other operation hwriting h
    cases operation with
    | load _ | queue _ | read _ | rewind => cases hwriting
    | write _ | limitWrites _ | clearWritten => exact h

/-- The calls on the writing side get the same and leave the same outbox if the others are left
out. -/
lemma filter_writing (operations : List Operation) :
    let all := History.run operate empty operations
    let writing := History.run operate empty (operations.filter (!·.isReading))
    all.1.filter (!·.operation.isReading) = writing.1 ∧ all.2.outbox = writing.2.outbox := by
  refine History.run_filter operate (fun line other => line.outbox = other.outbox)
    (fun line operation => by rw [operation_operate]) ?_ ?_ rfl operations
  · rintro ⟨served, unread, outbox⟩ ⟨_, _, _⟩ operation hwriting rfl
    cases operation with
    | load _ | queue _ | read _ | rewind => cases hwriting
    | write _ | limitWrites _ | clearWritten => exact ⟨rfl, rfl⟩
  · intro line other operation hreading h
    cases operation with
    | load _ | queue _ | read _ | rewind => exact h
    | write _ | limitWrites _ | clearWritten => cases hreading

/-- **A line loses nothing and gives nothing twice**, whatever is done with it.  In memory, the
position never passes the end of the buffer, so the number of bytes behind it is always there and is
what is not served.  What reads gave since the queue was last replaced or wound back, and behind it
what is not served, is what the queue was last replaced with and all that was queued since.  A read
into a destination of any size gives the next of it and leaves the rest of the destination alone.
What was written is what each write since the last clearing took, which is the first part of its
message, as long as the limit of that time allows.  And whatever is done on one side, the other
side is as if it had not been done. -/
theorem carries_without_loss (operations : List Operation) :
    let log := (History.run operate empty operations).1
    let line := (History.run operate empty operations).2
    let tape := (History.run Tape.operate Tape.empty operations).2
    let reading := History.run operate empty (operations.filter Operation.isReading)
    let writing := History.run operate empty (operations.filter (!·.isReading))
    log.map Entry.operation = operations ∧
      (History.run Tape.operate Tape.empty operations).1 = log ∧
      tape.position ≤ tape.buffer.length ∧
      tape.available? = some line.available ∧ tape.hasData = line.hasData ∧
      (line.hasData = true ↔ 0 < line.available) ∧
      tape.buffer = supplied log ∧ tape.position = (delivered log).length ∧
      delivered log ++ line.unread = supplied log ∧
      (∀ before entry, before ++ [entry] <+: log → Tells before entry) ∧
      line.outbox.written = recorded log ∧ tape.outbox = line.outbox ∧
      log.filter (·.operation.isReading) = reading.1 ∧
      log.filter (!·.operation.isReading) = writing.1 ∧
      line = { reading.2 with outbox := writing.2.outbox } := by
  intro log line tape reading writing
  have hmatches : Matches log line := matches_run operations
  have hrun : History.run Tape.operate Tape.empty operations = (log, line.tape) :=
    History.run_carried operate Line.tape tape_operate empty operations
  have htape : tape = line.tape := congrArg Prod.snd hrun
  obtain ⟨hreading, hserved, hunread⟩ := filter_reading operations
  obtain ⟨hwriting, houtbox⟩ := filter_writing operations
  refine ⟨History.map_run operate operation_operate empty operations, congrArg Prod.fst hrun, ?_,
    ?_, ?_, hasData_iff, ?_, ?_, ?_, hmatches.tells, hmatches.written_eq, ?_, hreading, hwriting,
    ?_⟩
  · rw [htape, tape_position, tape_buffer, length_queued]
    exact Nat.le_add_right _ _
  · rw [htape, available?_tape]
  · rw [htape, hasData_tape]
  · rw [htape, tape_buffer, hmatches.queued_eq]
  · rw [htape, tape_position, hmatches.served_eq]
  · rw [← hmatches.served_eq, ← hmatches.queued_eq, queued]
  · rw [htape, tape_outbox]
  · calc line = ⟨line.served, line.unread, line.outbox⟩ := rfl
      _ = ⟨reading.2.served, reading.2.unread, writing.2.outbox⟩ := by
          rw [hserved, hunread, houtbox]

/-- Bytes that are queued between two reads come behind those that are left, and behind a rewinding
everything is given again. -/
example :
    let log := (History.run operate empty [.load [1, 2], .read [0], .write [7, 8], .queue [3],
      .read [0, 0, 0, 9], .rewind, .read [0, 0]]).1
    log[4]? = some (.filled [0, 0, 0, 9] 2 [2, 3, 0, 9]) ∧ delivered log = [1, 2] ∧
      outstanding log = [3] := by
  decide

end Line

end FieldBus
