import FieldBus.Proofs.History
import FieldBus.Proofs.Recording

/-!
# What a node owes

A node tells its owner of calls, and the owner answers, or does not, or answers wrongly.  Which
answers are allowed depends on the last call alone, as long as it is neither answered nor dropped: a
request must be answered before the node hears anything more, and the refusal of a broken frame may
be given until it does.  Everything that a node grants follows this (**`Node.answers_follow_log`**),
whatever was done with it: each answer is granted exactly if it is due, what fails changes nothing,
and there are never more answers than calls.

* `Node.Response`, `Node.respond` — answering, in any of the four ways.
* `Node.operate`, `Node.Entry` — one call to a node, and what the log has of it.
* `Node.Pending`, `Node.Refusable` — the request, or the broken frame, that a log leaves to be
  answered.
* `Node.Owes` — the invariant: what is due is what the open call allows.
-/

namespace FieldBus

namespace Node

/-! ## Answering -/

/-- An answer that the owner of a node may try to give. -/
inductive Response where
  | value (value : Value)
  | int (n : Int)
  | ack
  | refusal (why : Refusal)
  deriving DecidableEq

/-- Tries to give an answer. -/
def respond (node : Node) : Response → Except Fault Block × Node
  | .value value => node.giveValue value
  | .int n => node.giveInt n
  | .ack => node.acknowledge
  | .refusal why => node.refuse why

/-- Whether this may be given where so much is due. -/
def Response.fits : Response → Due → Bool
  | value _, .answer .read => true
  | int n, .answer .read => (Value.ofInt n).isOk
  | ack, .answer .write => true
  | ack, .answer .select => true
  | refusal _, .answer _ => true
  | refusal _, .refusal => true
  | _, _ => false

namespace Response

variable (call : Call)

lemma fits_value_iff (value : Value) :
    (Response.value value).fits call.due = true ↔ ∃ parameter, call = .read parameter := by
  cases call <;> simp [Call.due, fits]

lemma fits_int_iff (n : Int) : (int n).fits call.due = true ↔
    (-99999 ≤ n ∧ n ≤ 99999) ∧ ∃ parameter, call = .read parameter := by
  have hrange : (Value.ofInt n).isOk = true ↔ -99999 ≤ n ∧ n ≤ 99999 := by
    rw [Value.ofInt]
    split_ifs with h
    · exact iff_of_true rfl h
    · exact iff_of_false Bool.false_ne_true h
  cases call <;> simp [Call.due, fits, hrange]

lemma fits_ack_iff : ack.fits call.due = true ↔
    (∃ parameter value, call = .write parameter value) ∨ call = .select := by
  cases call <;> simp [Call.due, fits]

lemma fits_refusal (why : Refusal) : (refusal why).fits call.due = true := by
  cases call <;> rfl

end Response

section Respond

variable (node : Node) (response : Response)

/-- **What fits is sent, and then nothing is due.  What does not fit leaves the node as it was.** -/
theorem respond_cases :
    (response.fits node.due = true ∧ ∃ reply, node.respond response = node.answer reply) ∨
      response.fits node.due = false ∧ ∃ fault, node.respond response = (.error fault, node) := by
  obtain ⟨station, mode, receiver, due⟩ := node
  cases response with
  | value value =>
      rcases due with _ | _ | ⟨_ | _ | _⟩
      case answer.read => exact .inl ⟨rfl, _, rfl⟩
      all_goals exact .inr ⟨rfl, _, rfl⟩
  | int n =>
      rcases due with _ | _ | ⟨_ | _ | _⟩
      case answer.read =>
        dsimp only [respond, giveInt, Response.fits]
        cases Value.ofInt n with
        | ok value => exact .inl ⟨rfl, _, rfl⟩
        | error fault => exact .inr ⟨rfl, _, rfl⟩
      all_goals exact .inr ⟨rfl, _, rfl⟩
  | ack =>
      rcases due with _ | _ | ⟨_ | _ | _⟩
      case answer.write => exact .inl ⟨rfl, _, rfl⟩
      case answer.select => exact .inl ⟨rfl, _, rfl⟩
      all_goals exact .inr ⟨rfl, _, rfl⟩
  | refusal why =>
      rcases due with _ | _ | _
      case nothing => exact .inr ⟨rfl, _, rfl⟩
      all_goals exact .inl ⟨rfl, _, rfl⟩

lemma isOk_respond_iff : (node.respond response).1.isOk = true ↔ response.fits node.due = true := by
  rcases node.respond_cases response with ⟨hfits, reply, hrespond⟩ | ⟨hfits, fault, hrespond⟩
  · rw [hrespond]
    exact iff_of_true rfl hfits
  · rw [hrespond]
    exact iff_of_false Bool.false_ne_true (by rw [hfits]; exact Bool.false_ne_true)

end Respond

variable {node : Node} {response : Response} {bytes : Bytes}

lemma feed_of_isCalled (h : node.isCalled = true) (bytes : Bytes) :
    node.feed bytes = (.error .sequence, node) := by
  rw [feed, if_pos h]

lemma exists_feed_of_not_isCalled (h : node.isCalled = false) (bytes : Bytes) :
    ∃ heard, (node.feed bytes).1 = .ok heard ∧
      (node.feed bytes).2.due = (heard.call?.map Call.due).getD .nothing := by
  rw [feed, if_neg (by rw [h]; exact Bool.false_ne_true)]
  exact ⟨_, rfl, rfl⟩

lemma feed_eq_error_iff : (node.feed bytes).1 = .error .sequence ↔ node.isCalled = true := by
  cases hcalled : node.isCalled with
  | true => simp [feed_of_isCalled hcalled]
  | false =>
      obtain ⟨heard, hheard, -⟩ := exists_feed_of_not_isCalled hcalled bytes
      simp [hheard]

/-! ## The log -/

/-- What can be done with a node. -/
inductive Operation where
  | feed (bytes : Bytes)
  | respond (response : Response)
  | reset
  | assign (station : Station)
  deriving DecidableEq

/-- What a log has of an operation: the operation with its result. -/
inductive Entry where
  | fed (bytes : Bytes) (result : Except Fault Heard)
  | responded (response : Response) (result : Except Fault Block)
  | reset
  | assigned (station : Station)

/-- Does something with a node. -/
def operate (node : Node) : Operation → Entry × Node
  | .feed bytes => (.fed bytes (node.feed bytes).1, (node.feed bytes).2)
  | .respond response => (.responded response (node.respond response).1, (node.respond response).2)
  | .reset => (.reset, node.reset)
  | .assign station => (.assigned station, node.assign station)

namespace Entry

/-- The call that the owner was told of. -/
def call? : Entry → Option Call
  | fed _ (.ok heard) => heard.call?
  | _ => none

/-- Whether this is an answer that was given. -/
def isAnswer : Entry → Bool
  | responded _ result => result.isOk
  | _ => false

/-- Whether this is a feeding, refused or not. -/
def isFeed : Entry → Bool
  | fed .. => true
  | _ => false

/-- Whether this is a refusal, given or not. -/
def isRefusal : Entry → Bool
  | responded (.refusal _) _ => true
  | _ => false

/-- Whether this drops what is owed. -/
def isDrop : Entry → Bool
  | reset => true
  | assigned _ => true
  | _ => false

def isFailure : Entry → Bool
  | fed _ (.error _) => true
  | responded _ (.error _) => true
  | _ => false

end Entry

/-- The call is the last that came, and has been neither answered nor dropped since. -/
def Pending (log : List Entry) (call : Call) : Prop :=
  History.Since (fun entry => entry.call? = some call)
    (fun entry => entry.call? = none ∧ entry.isAnswer = false ∧ entry.isDrop = false) log

/-- The last feeding told of a broken frame, and it has been neither refused nor dropped since. -/
def Refusable (log : List Entry) (fault : Fault) : Prop :=
  History.Since (fun entry => entry.call? = some (.malformed fault))
    (fun entry => entry.isFeed = false ∧ entry.isRefusal = false ∧ entry.isDrop = false) log

/-! ## One operation -/

/-- What is due as long as this call is open. -/
def dueFor (owed? : Option Call) : Due := (owed?.map Call.due).getD .nothing

/-- What an operation can do where this call is open, and the call that it leaves open. -/
inductive Turns (owed? : Option Call) : Entry → Option Call → Prop
  | heard {bytes : Bytes} {heard : Heard}
      (hfree : ∀ call, owed? = some call → call.isAsked = false) :
      Turns owed? (.fed bytes (.ok heard)) heard.call?
  | notHeard {bytes : Bytes} {fault : Fault} {call : Call} (howed : owed? = some call)
      (hasked : call.isAsked = true) : Turns owed? (.fed bytes (.error fault)) owed?
  | answered {response : Response} {block : Block} {call : Call} (howed : owed? = some call)
      (hfits : response.fits call.due = true) : Turns owed? (.responded response (.ok block)) none
  | notAnswered {response : Response} {fault : Fault}
      (hfits : ∀ call, owed? = some call → response.fits call.due = false) :
      Turns owed? (.responded response (.error fault)) owed?
  | reset : Turns owed? .reset none
  | assigned (station : Station) : Turns owed? (.assigned station) none

variable {owed? next? : Option Call} {log : List Entry} {entry : Entry} {call : Call}

lemma isCalled_iff (hdue : node.due = dueFor owed?) :
    node.isCalled = true ↔ ∃ call, owed? = some call ∧ call.isAsked = true := by
  rw [isCalled, hdue]
  rcases owed? with _ | call
  · simp [dueFor]
  · cases call <;> simp [dueFor, Call.due, Call.isAsked]

/-- What may be given answers a call. -/
lemma exists_of_fits (h : response.fits (dueFor owed?) = true) :
    ∃ call, owed? = some call ∧ response.fits call.due = true := by
  rcases owed? with _ | call
  · cases response <;> cases h
  · exact ⟨call, rfl, h⟩

/-- **Every operation does one of these.** -/
theorem turns_operate (hdue : node.due = dueFor owed?) (operation : Operation) :
    ∃ next?, Turns owed? (node.operate operation).1 next? ∧
      (node.operate operation).2.due = dueFor next? := by
  cases operation with
  | feed bytes =>
      rw [operate]
      have hiff := isCalled_iff hdue
      cases hcalled : node.isCalled with
      | true =>
          obtain ⟨call, howed, hasked⟩ := hiff.mp hcalled
          rw [feed_of_isCalled hcalled]
          exact ⟨owed?, .notHeard howed hasked, hdue⟩
      | false =>
          obtain ⟨heard, hheard, hnext⟩ := exists_feed_of_not_isCalled hcalled bytes
          refine ⟨heard.call?, ?_, hnext⟩
          rw [hheard]
          refine .heard fun call howed => ?_
          by_contra hasked
          rw [hiff.mpr ⟨call, howed, by simpa using hasked⟩] at hcalled
          cases hcalled
  | respond response =>
      rw [operate]
      have hcases := node.respond_cases response
      rw [hdue] at hcases
      rcases hcases with ⟨hfits, reply, hrespond⟩ | ⟨hfits, fault, hrespond⟩
      · obtain ⟨call, howed, hcall⟩ := exists_of_fits hfits
        rw [hrespond]
        exact ⟨none, .answered howed hcall, rfl⟩
      · rw [hrespond]
        refine ⟨owed?, .notAnswered fun call howed => ?_, hdue⟩
        rw [← hfits, howed]
        rfl
  | reset => exact ⟨none, .reset, rfl⟩
  | assign station => exact ⟨none, .assigned station, rfl⟩

/-! ## The log and the node -/

/-- Of the answers, a broken frame allows the refusals. -/
lemma Entry.isRefusal_responded (response : Response) (result : Except Fault Block) :
    (responded response result).isRefusal = response.fits .refusal := by
  cases response <;> rfl

namespace Turns

/-- An open request is open behind an operation as well, unless that answers or drops it. -/
lemma pending_iff (h : Turns owed? entry next?) (hasked : call.isAsked = true) :
    next? = some call ↔ entry.call? = some call ∨
      owed? = some call ∧ entry.call? = none ∧ entry.isAnswer = false ∧ entry.isDrop = false := by
  cases h with
  | heard hfree =>
      -- bytes are taken in only where no request is open, so none is lost to them
      have hother : owed? ≠ some call := by
        intro howed
        rw [hfree call howed] at hasked
        cases hasked
      simp [Entry.call?, hother]
  | notHeard howed hfirst => simp [Entry.call?, Entry.isAnswer, Entry.isDrop]
  | answered howed hfits => simp [Entry.call?, Entry.isAnswer, Except.isOk, Except.toBool]
  | notAnswered hfits =>
      simp [Entry.call?, Entry.isAnswer, Entry.isDrop, Except.isOk, Except.toBool]
  | reset => simp [Entry.call?, Entry.isDrop]
  | assigned station => simp [Entry.call?, Entry.isDrop]

/-- A broken frame may still be refused behind an operation, unless that feeds, refuses or drops. -/
lemma refusable_iff (h : Turns owed? entry next?) (fault : Fault) :
    next? = some (.malformed fault) ↔ entry.call? = some (.malformed fault) ∨
      owed? = some (.malformed fault) ∧
        entry.isFeed = false ∧ entry.isRefusal = false ∧ entry.isDrop = false := by
  cases h with
  | heard hfree => simp [Entry.call?, Entry.isFeed]
  | notHeard howed hasked =>
      -- a feeding that is refused ends the refusal in the log, but then a request is open
      have hother : owed? ≠ some (.malformed fault) := by
        intro hbroken
        obtain rfl := Option.some.inj (howed.symm.trans hbroken)
        cases hasked
      simp [Entry.call?, Entry.isFeed, hother]
  | @answered response block call howed hfits =>
      -- what answers a broken frame is a refusal
      refine iff_of_false nofun ?_
      rintro (hcall | ⟨hbroken, -, hrefusal, -⟩)
      · cases hcall
      · obtain rfl := Option.some.inj (howed.symm.trans hbroken)
        rw [Entry.isRefusal_responded, ← Call.due, hfits] at hrefusal
        cases hrefusal
  | @notAnswered response fault hfits =>
      -- and a refusal is not declined while there is one to refuse
      constructor
      · intro hbroken
        exact .inr ⟨hbroken, rfl, (Entry.isRefusal_responded _ _).trans (hfits _ hbroken), rfl⟩
      · rintro (hcall | ⟨hbroken, -⟩)
        · cases hcall
        · exact hbroken
  | reset => simp [Entry.call?, Entry.isDrop]
  | assigned station => simp [Entry.call?, Entry.isDrop]

/-- An answer takes an open call away, and an open call has come. -/
lemma count_le (h : Turns owed? entry next?) :
    [entry].countP Entry.isAnswer + next?.toList.length
      ≤ owed?.toList.length + [entry].countP (·.call?.isSome) := by
  cases h with
  | @heard bytes heard hfree =>
      cases hcall : heard.call? <;> simp [Entry.call?, Entry.isAnswer, hcall]
  | notHeard howed hasked => simp [Entry.call?, Entry.isAnswer]
  | answered howed hfits => simp [Entry.call?, Entry.isAnswer, Except.isOk, Except.toBool, howed]
  | notAnswered hfits => simp [Entry.call?, Entry.isAnswer, Except.isOk, Except.toBool]
  | reset => simp [Entry.call?, Entry.isAnswer]
  | assigned station => simp [Entry.call?, Entry.isAnswer]

end Turns

/-- The log leaves this call open, and the node has due what the call allows. -/
structure Owes (log : List Entry) (owed? : Option Call) (node : Node) : Prop where
  due_eq : node.due = dueFor owed?
  pending_iff : ∀ call, call.isAsked = true → (Pending log call ↔ owed? = some call)
  refusable_iff : ∀ fault, Refusable log fault ↔ owed? = some (.malformed fault)
  answers_le : log.countP Entry.isAnswer + owed?.toList.length ≤ log.countP (·.call?.isSome)

namespace Owes

lemma start (station : Station) (mode : CheckMode) : Owes [] none (new station mode) where
  due_eq := rfl
  pending_iff call hasked := by simpa [Pending] using History.not_since_nil
  refusable_iff fault := by simpa [Refusable] using History.not_since_nil
  answers_le := Nat.le_refl _

/-- **The tie between the log and the node is kept.** -/
lemma operate (h : Owes log owed? node) (operation : Operation) :
    ∃ next?, Owes (log ++ [(node.operate operation).1]) next? (node.operate operation).2 := by
  obtain ⟨next?, hturns, hdue⟩ := turns_operate h.due_eq operation
  refine ⟨next?, hdue, ?_, ?_, ?_⟩
  · intro call hasked
    rw [hturns.pending_iff hasked, Pending, History.since_concat, ← Pending,
      h.pending_iff call hasked]
  · intro fault
    rw [hturns.refusable_iff, Refusable, History.since_concat, ← Refusable, h.refusable_iff]
  · have hlog := h.answers_le
    have hentry := hturns.count_le
    rw [List.countP_append, List.countP_append]
    omega

end Owes

/-- Behind every run the log and the node are tied. -/
lemma owes_run (station : Station) (mode : CheckMode) (operations : List Operation) :
    ∃ owed?, Owes (History.run operate (new station mode) operations).1 owed?
      (History.run operate (new station mode) operations).2 := by
  refine History.run_invariant operate (fun log mid => ∃ owed?, Owes log owed? mid)
    ⟨none, .start station mode⟩ ?_ operations
  rintro log mid operation ⟨owed?, howes⟩
  exact howes.operate operation

/-! ## What a node grants -/

/-- A failure leaves the node as it was. -/
lemma operate_of_isFailure {operation : Operation}
    (h : (node.operate operation).1.isFailure = true) : (node.operate operation).2 = node := by
  cases operation with
  | feed bytes =>
      rw [operate] at h ⊢
      cases hcalled : node.isCalled with
      | true => rw [feed_of_isCalled hcalled]
      | false =>
          obtain ⟨heard, hheard, -⟩ := exists_feed_of_not_isCalled hcalled bytes
          rw [hheard] at h
          cases h
  | respond response =>
      rw [operate] at h ⊢
      rcases node.respond_cases response with ⟨-, reply, hrespond⟩ | ⟨-, fault, hrespond⟩
      · rw [hrespond] at h
        cases h
      · rw [hrespond]
  | reset => cases h
  | assign station => cases h

/-- Behind an answer no other is granted. -/
lemma isOk_respond_respond (h : (node.respond response).1.isOk = true) (other : Response) :
    ((node.respond response).2.respond other).1.isOk = false := by
  rw [isOk_respond_iff] at h
  rcases node.respond_cases response with ⟨-, reply, hrespond⟩ | ⟨hfits, -⟩
  · rw [hrespond, ← Bool.not_eq_true, isOk_respond_iff]
    cases other <;> simp [answer, Response.fits]
  · rw [hfits] at h
    cases h

namespace Owes

variable (h : Owes log owed? node)
include h

/-- A node answers what fits the open call. -/
lemma isOk_respond_iff (response : Response) : (node.respond response).1.isOk = true ↔
    ∃ call, owed? = some call ∧ response.fits call.due = true := by
  rw [Node.isOk_respond_iff, h.due_eq]
  refine ⟨exists_of_fits, ?_⟩
  rintro ⟨call, rfl, hfits⟩
  exact hfits

lemma exists_pending_iff : (∃ call, call.isAsked = true ∧ Pending log call) ↔
    ∃ call, owed? = some call ∧ call.isAsked = true := by
  constructor
  · rintro ⟨call, hasked, hpending⟩
    exact ⟨call, (h.pending_iff call hasked).mp hpending, hasked⟩
  · rintro ⟨call, howed, hasked⟩
    exact ⟨call, hasked, (h.pending_iff call hasked).mpr howed⟩

/-- An open call is a pending request, or the report of a broken frame that may be refused. -/
lemma exists_iff : (∃ call, owed? = some call) ↔
    (∃ call, call.isAsked = true ∧ Pending log call) ∨ ∃ fault, Refusable log fault := by
  rw [h.exists_pending_iff]
  constructor
  · rintro ⟨call, howed⟩
    cases call with
    | malformed fault => exact .inr ⟨fault, (h.refusable_iff fault).mpr howed⟩
    | _ => exact .inl ⟨_, howed, rfl⟩
  · rintro (⟨call, howed, -⟩ | ⟨fault, hrefusable⟩)
    · exact ⟨call, howed⟩
    · exact ⟨_, (h.refusable_iff fault).mp hrefusable⟩

end Owes

/-- An integer that is no value does not answer a read, and the read stays pending. -/
lemma giveInt_of_out_of_range {n : Int} {parameter : Parameter} (h : ¬ (-99999 ≤ n ∧ n ≤ 99999))
    (howes : Owes log owed? node) (hpending : Pending log (.read parameter)) :
    node.giveInt n = (.error .valueOutOfRange, node) ∧
      Pending (log ++ [(node.operate (.respond (.int n))).1]) (.read parameter) := by
  have hdue : node.due = .answer .read := by
    rw [howes.due_eq, (howes.pending_iff _ rfl).mp hpending]
    rfl
  have hgive : node.giveInt n = (.error .valueOutOfRange, node) := by
    rw [giveInt, hdue, Value.ofInt, dif_neg h]
  refine ⟨hgive, History.since_concat.mpr (.inr ⟨hpending, ?_⟩)⟩
  rw [operate, respond, hgive]
  exact ⟨rfl, rfl, rfl⟩

/-- **A node follows its log.**  Whatever was done with it, a value is granted exactly if a read is
pending, an acknowledgement if a write or a select is, and a refusal if any request is or the broken
frame that the last feeding told of may still be refused.  Bytes are refused exactly if a request is
pending.  Behind an answer no other is granted, and there are never more answers than calls.  What
fails leaves the node as it was; a read is pending still if the integer given for it is no value. -/
theorem answers_follow_log (station : Station) (mode : CheckMode) (operations : List Operation) :
    let log := (History.run operate (new station mode) operations).1
    let node := (History.run operate (new station mode) operations).2
    (∀ value, (node.giveValue value).1.isOk = true ↔ ∃ parameter, Pending log (.read parameter)) ∧
      (∀ n, (node.giveInt n).1.isOk = true ↔
        (-99999 ≤ n ∧ n ≤ 99999) ∧ ∃ parameter, Pending log (.read parameter)) ∧
      (node.acknowledge.1.isOk = true ↔
        (∃ parameter value, Pending log (.write parameter value)) ∨ Pending log .select) ∧
      (∀ why, (node.refuse why).1.isOk = true ↔
        (∃ call, call.isAsked = true ∧ Pending log call) ∨ ∃ fault, Refusable log fault) ∧
      (∀ bytes, (node.feed bytes).1 = .error .sequence ↔
        ∃ call, call.isAsked = true ∧ Pending log call) ∧
      (∀ response, (node.respond response).1.isOk = true →
        ∀ other, ((node.respond response).2.respond other).1.isOk = false) ∧
      log.countP Entry.isAnswer ≤ log.countP (·.call?.isSome) ∧
      (∀ operation, (node.operate operation).1.isFailure = true →
        (node.operate operation).2 = node) ∧
      ∀ n parameter, ¬ (-99999 ≤ n ∧ n ≤ 99999) → Pending log (.read parameter) →
        node.giveInt n = (.error .valueOutOfRange, node) ∧
          Pending (log ++ [(node.operate (.respond (.int n))).1]) (.read parameter) := by
  intro log node
  obtain ⟨owed?, howes⟩ := owes_run station mode operations
  have hrespond : ∀ response, (node.respond response).1.isOk = true ↔
      ∃ call, owed? = some call ∧ response.fits call.due = true := howes.isOk_respond_iff
  have hread : ∀ parameter, Pending log (.read parameter) ↔ owed? = some (.read parameter) :=
    fun parameter => howes.pending_iff _ rfl
  refine ⟨?_, ?_, ?_, ?_, ?_, ?_, ?_, ?_, ?_⟩
  · intro value
    rw [← respond, hrespond]
    simp [Response.fits_value_iff, hread]
  · intro n
    rw [← respond, hrespond]
    simp [Response.fits_int_iff, hread, and_comm]
  · have hwrite : ∀ parameter value, Pending log (.write parameter value) ↔
        owed? = some (.write parameter value) := fun parameter value => howes.pending_iff _ rfl
    have hselect : Pending log .select ↔ owed? = some .select := howes.pending_iff _ rfl
    rw [← respond, hrespond]
    simp [Response.fits_ack_iff, hwrite, hselect, and_or_left, exists_or]
  · intro why
    rw [← respond, hrespond, ← howes.exists_iff]
    simp only [Response.fits_refusal, and_true]
  · intro bytes
    rw [feed_eq_error_iff, isCalled_iff howes.due_eq, howes.exists_pending_iff]
  · exact fun response hok other => isOk_respond_respond hok other
  · exact Nat.le_trans (Nat.le_add_right _ _) howes.answers_le
  · exact fun operation hfailure => operate_of_isFailure hfailure
  · exact fun n parameter hrange hpending => giveInt_of_out_of_range hrange howes hpending

end Node

end FieldBus
