import Mathlib.Data.List.DropRight
import Mathlib.Data.List.Induction
import Mathlib.Tactic.Common

/-!
# Histories

A machine of this library is used by one call after the other, and what its state means is best said
of the calls: something has begun, and nothing has ended it since.  This file has what such
statements share, for any machine that makes an entry in a log for each call.

* `History.run` — one operation after the other, with the log.  `History.run_struck` says which
  operations need not have been there.
* `History.run_carried`, `History.run_filter` — a run seen from another machine that does the same,
  and a run without the operations that do not matter to one side of the machine.
* **`History.run_invariant`** — what holds at the beginning and survives every operation holds
  behind every run.
* `History.Since` — the log has an entry that begins something, and all entries behind it let it
  last.  `History.since_concat` says what one more entry makes of it; with this, an invariant that
  ties the state of a machine to its log is a matter of one operation.
* `History.gathered` — what the entries give, one after the other, since the last that starts anew.
* `History.forall_prefix_concat` — for an invariant that says something of every entry and the log
  before it.
-/

namespace FieldBus

namespace History

section Run

variable {σ ο ε : Type} (step : σ → ο → ε × σ)

/-- Does one operation after the other.  There is one entry for each. -/
def run (state : σ) : List ο → List ε × σ
  | [] => ([], state)
  | operation :: rest =>
    let done := step state operation
    let later := run done.2 rest
    (done.1 :: later.1, later.2)

/-- The last operation finds the state that the others have left. -/
lemma run_concat (state : σ) (operations : List ο) (operation : ο) :
    run step state (operations ++ [operation])
      = ((run step state operations).1 ++ [(step (run step state operations).2 operation).1],
          (step (run step state operations).2 operation).2) := by
  induction operations generalizing state with
  | nil => rfl
  | cons first rest ih => simp [run, ih]

/-- More operations find the state that the others have left. -/
lemma run_append (state : σ) (operations more : List ο) :
    run step state (operations ++ more)
      = ((run step state operations).1 ++ (run step (run step state operations).2 more).1,
          (run step (run step state operations).2 more).2) := by
  induction operations generalizing state with
  | nil => rfl
  | cons first rest ih => simp [run, ih]

/-- An operation that leaves the state alone can be struck out: nothing but its own entry is missing
then. -/
lemma run_struck {state : σ} {before : List ο} {operation : ο}
    (h : (step (run step state before).2 operation).2 = (run step state before).2)
    (after : List ο) :
    ∃ later last,
      run step state (before ++ after) = ((run step state before).1 ++ later, last) ∧
        run step state (before ++ operation :: after)
          = ((run step state before).1 ++ (step (run step state before).2 operation).1 :: later,
              last) := by
  refine ⟨_, _, run_append step state before after, ?_⟩
  rw [run_append, run, h]

/-- If each entry shows its operation, the log shows all of them. -/
lemma map_run {f : ε → ο} (h : ∀ state operation, f (step state operation).1 = operation)
    (state : σ) (operations : List ο) : (run step state operations).1.map f = operations := by
  induction operations generalizing state with
  | nil => rfl
  | cons first rest ih => rw [run, List.map_cons, h, ih]

/-- A machine whose states are carried over from another one, operation for operation and with the
same entries, has the same log. -/
lemma run_carried {τ : Type} {other : τ → ο → ε × τ} (carry : σ → τ)
    (h : ∀ state operation, other (carry state) operation
      = ((step state operation).1, carry (step state operation).2))
    (state : σ) (operations : List ο) :
    run other (carry state) operations
      = ((run step state operations).1, carry (run step state operations).2) := by
  induction operations generalizing state with
  | nil => rfl
  | cons first rest ih => rw [run, run, h, ih]

/-- **Operations of one kind only.**  If these do the same to states that agree in some respect, and
all others leave states in agreement, then the others might as well not be done. -/
lemma run_filter {counts : ο → Bool} {logged : ε → Bool} (Agree : σ → σ → Prop)
    (hlogged : ∀ state operation, logged (step state operation).1 = counts operation)
    (hcounts : ∀ state other operation, counts operation = true → Agree state other →
      (step state operation).1 = (step other operation).1 ∧
        Agree (step state operation).2 (step other operation).2)
    (hskips : ∀ state other operation, counts operation = false → Agree state other →
      Agree (step state operation).2 other)
    {state other : σ} (h : Agree state other) (operations : List ο) :
    (run step state operations).1.filter logged
        = (run step other (operations.filter counts)).1 ∧
      Agree (run step state operations).2 (run step other (operations.filter counts)).2 := by
  induction operations generalizing state other with
  | nil => exact ⟨rfl, h⟩
  | cons first rest ih =>
      cases hfirst : counts first with
      | true =>
          obtain ⟨hentry, hagree⟩ := hcounts state other first hfirst h
          obtain ⟨hlog, hlast⟩ := ih hagree
          rw [List.filter_cons_of_pos hfirst, run, run,
            List.filter_cons_of_pos (by rw [hlogged, hfirst]), hlog, hentry]
          exact ⟨rfl, hlast⟩
      | false =>
          obtain ⟨hlog, hlast⟩ := ih (hskips state other first hfirst h)
          rw [List.filter_cons_of_neg (by rw [hfirst]; exact Bool.false_ne_true), run,
            List.filter_cons_of_neg (by rw [hlogged, hfirst]; exact Bool.false_ne_true), hlog]
          exact ⟨rfl, hlast⟩

/-- **What every operation keeps, every run keeps.** -/
theorem run_invariant (Keeps : List ε → σ → Prop) {state : σ} (hstart : Keeps [] state)
    (hstep : ∀ log mid operation, Keeps log mid →
      Keeps (log ++ [(step mid operation).1]) (step mid operation).2) (operations : List ο) :
    Keeps (run step state operations).1 (run step state operations).2 := by
  induction operations using List.reverseRecOn with
  | nil => exact hstart
  | append_singleton operations operation ih =>
      rw [run_concat]
      exact hstep _ _ operation ih

end Run

section Since

variable {ε : Type} {Begins Lasts : ε → Prop} {log before between : List ε} {first entry : ε}

/-- The log has an entry that begins something, and every later one lets it last. -/
def Since (Begins Lasts : ε → Prop) (log : List ε) : Prop :=
  ∃ before entry after, log = before ++ entry :: after ∧ Begins entry ∧ ∀ later ∈ after, Lasts later

lemma not_since_nil : ¬ Since Begins Lasts [] := by
  rintro ⟨before, entry, after, hlog, -⟩
  simp at hlog

/-- One more entry begins it, or lets it last if it has begun before. -/
lemma since_concat :
    Since Begins Lasts (log ++ [entry]) ↔ Begins entry ∨ Since Begins Lasts log ∧ Lasts entry := by
  constructor
  · rintro ⟨before, begun, after, hlog, hbegins, hlasts⟩
    rcases List.eq_nil_or_concat after with rfl | ⟨front, last, rfl⟩
    · obtain ⟨-, hentry⟩ := List.append_inj' hlog rfl
      obtain rfl := List.singleton_inj.mp hentry
      exact .inl hbegins
    · rw [List.concat_eq_append, ← List.cons_append, ← List.append_assoc] at hlog
      obtain ⟨rfl, hentry⟩ := List.append_inj' hlog rfl
      obtain rfl := List.singleton_inj.mp hentry
      simp only [List.concat_eq_append, List.forall_mem_append, List.forall_mem_singleton] at hlasts
      exact .inr ⟨⟨before, begun, front, rfl, hbegins, hlasts.1⟩, hlasts.2⟩
  · rintro (hbegins | ⟨⟨before, begun, after, rfl, hbegins, hlasts⟩, hlast⟩)
    · exact ⟨log, entry, [], rfl, hbegins, by simp⟩
    · refine ⟨before, begun, after ++ [entry], by simp, hbegins, ?_⟩
      simpa only [List.forall_mem_append, List.forall_mem_singleton] using ⟨hlasts, hlast⟩

/-- What has begun since some entry was neither begun by it nor outlasts it, was begun behind it. -/
lemma Since.exists_mem_between (h : Since Begins Lasts (before ++ first :: between))
    (hbegins : ¬ Begins first) (hlasts : ¬ Lasts first) : ∃ entry ∈ between, Begins entry := by
  induction between using List.reverseRecOn with
  | nil =>
      rcases since_concat.mp h with hfirst | ⟨-, hfirst⟩
      · exact absurd hfirst hbegins
      · exact absurd hfirst hlasts
  | append_singleton front last ih =>
      rw [← List.cons_append, ← List.append_assoc] at h
      rcases since_concat.mp h with hlast | ⟨hsince, -⟩
      · exact ⟨last, by simp, hlast⟩
      · obtain ⟨entry, hmem, hentry⟩ := ih hsince
        exact ⟨entry, List.mem_append_left _ hmem, hentry⟩

end Since

section Gathered

variable {α ε : Type} {starts : ε → Bool} {gives : ε → List α} {log : List ε} {entry : ε}

/-- What entries give, one after the other, behind the last that starts anew; behind the beginning
if none does. -/
def gathered (starts : ε → Bool) (gives : ε → List α) (log : List ε) : List α :=
  (log.rtakeWhile fun entry => !starts entry).flatMap gives

lemma gathered_concat : gathered starts gives (log ++ [entry])
    = if starts entry = true then [] else gathered starts gives log ++ gives entry := by
  rw [gathered, List.rtakeWhile_concat]
  cases starts entry with
  | true => rfl
  | false =>
      rw [if_pos Bool.not_false, if_neg Bool.false_ne_true, List.flatMap_append,
        List.flatMap_singleton, gathered]

end Gathered

/-- What is true of every entry and the log before it stays so if it is true of one more entry. -/
lemma forall_prefix_concat {ε : Type} {Tells : List ε → ε → Prop} {log : List ε} {last : ε}
    (hlog : ∀ before entry, before ++ [entry] <+: log → Tells before entry)
    (hlast : Tells log last) :
    ∀ before entry, before ++ [entry] <+: log ++ [last] → Tells before entry := by
  intro before entry hprefix
  rcases List.prefix_concat_iff.mp hprefix with heq | hprefix
  · obtain ⟨rfl, hentry⟩ := List.append_inj' heq rfl
    obtain rfl := List.singleton_inj.mp hentry
    exact hlast
  · exact hlog before entry hprefix

/-- The latest of what entries give is what the last entry gives, if it gives any. -/
lemma getLast?_filterMap_concat {α ε : Type} (f : ε → Option α) (log : List ε) (entry : ε) :
    ((log ++ [entry]).filterMap f).getLast? = (f entry).or (log.filterMap f).getLast? := by
  rw [List.filterMap_append, List.getLast?_append]
  cases hentry : f entry with
  | none => rw [List.filterMap_cons_none hentry]; rfl
  | some a => rw [List.filterMap_cons_some hentry]; rfl

/-- The latest of what entries give is this if the last entry gives it, or gives nothing and it was
the latest before. -/
lemma getLast?_filterMap_concat_eq_some {α ε : Type} {f : ε → Option α} {log : List ε} {entry : ε}
    {a : α} : ((log ++ [entry]).filterMap f).getLast? = some a ↔
      f entry = some a ∨ f entry = none ∧ (log.filterMap f).getLast? = some a := by
  rw [getLast?_filterMap_concat, Option.or_eq_some_iff]

end History

end FieldBus
