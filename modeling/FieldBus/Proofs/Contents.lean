import FieldBus.ParameterStore
import FieldBus.Proofs.History
import Mathlib.Data.Set.Card

/-!
# What a store holds

The runs of parameters that are added and removed may overlap, and a run that is added over another
one keeps its values.  Locks live longer than the parameters that they are put on, and also where
there never was a parameter.  So what a store says of a parameter is a matter of all that was done
with it since it was empty (**`ParameterStore.contents_follow_history`**).

* `ParameterStore.operate`, `ParameterStore.Entry` — one operation, and what the log has of it.
* `ParameterStore.Added`, `ParameterStore.Holds`, `ParameterStore.Locked` — what a log says of a
  parameter: whether it exists, with which value, and whether it is locked.
* `ParameterStore.Entry.cell`, **`ParameterStore.cell_operate`** — one operation, seen from one
  cell: no other cell matters.
* `ParameterStore.Matches` — the invariant: the log and the cells say the same.
-/

namespace FieldBus

/-! ## All parameters -/

namespace Parameter

lemma mem_all (p : Parameter) : p ∈ all := by
  refine List.mem_map.mpr ⟨p.index, List.mem_finRange _, ?_⟩
  rfl

lemma nodup_all : all.Nodup := by
  refine (List.nodup_finRange 1000).map fun i j h => ?_
  exact Fin.ext (congrArg Parameter.number h)

end Parameter

namespace ParameterStore

variable {store : ParameterStore} {p : Parameter}

lemma toList_cells (store : ParameterStore) :
    store.cells.toList = Parameter.all.map store.cell := by
  refine List.ext_getElem (by simp [Parameter.all]) fun i hi hi' => ?_
  simp [Parameter.all, cell, Parameter.index]

/-- The size is the number of parameters that exist. -/
lemma size_eq_ncard (store : ParameterStore) :
    store.size = {p | store.contains p = true}.ncard := by
  have hset : {p | store.contains p = true}
      = ((Parameter.all.filter store.contains).toFinset : Set Parameter) := by
    ext p
    simp [Parameter.mem_all]
  have hnodup : (Parameter.all.filter store.contains).Nodup := Parameter.nodup_all.filter _
  rw [hset, Set.ncard_coe_finset, List.toFinset_card_of_nodup hnodup, size, toList_cells,
    List.countP_map, List.countP_eq_length_filter]
  rfl

/-! ## The log -/

/-- What can be done with a store, by its owner or by the bus (`write`). -/
inductive Operation where
  | add (first : Parameter) (count : Nat)
  | remove (first : Parameter) (count : Nat)
  | set (parameter : Parameter) (value : Value)
  | write (parameter : Parameter) (value : Value)
  | setLocked (parameter : Parameter) (locked : Bool)
  deriving DecidableEq

/-- Does something with a store.  Nothing but a value can be refused. -/
def perform (store : ParameterStore) : Operation → Except Fault Unit × ParameterStore
  | .add first count => (.ok (), store.add first count)
  | .remove first count => (.ok (), store.remove first count)
  | .set parameter value => store.set parameter value
  | .write parameter value => Device.onWrite store parameter value
  | .setLocked parameter locked => (.ok (), store.setLocked parameter locked)

/-- What a log has of an operation: the operation with its result. -/
structure Entry where
  operation : Operation
  result : Except Fault Unit

def operate (store : ParameterStore) (operation : Operation) : Entry × ParameterStore :=
  (⟨operation, (store.perform operation).1⟩, (store.perform operation).2)

/-- The run of `count` parameters from `first` on, which ends at the last of all, has this one. -/
def Covers (first : Parameter) (count : Nat) (p : Parameter) : Prop :=
  first.number ≤ p.number ∧ p.number < min (first.number + count) 1000

instance (first : Parameter) (count : Nat) (p : Parameter) : Decidable (Covers first count p) :=
  inferInstanceAs (Decidable (_ ∧ _))

namespace Entry

/-- Whether an operation makes the parameter exist, or makes it not exist. -/
def existence? (entry : Entry) (p : Parameter) : Option Bool :=
  match entry.operation with
  | .add first count => if Covers first count p then some true else none
  | .remove first count => if Covers first count p then some false else none
  | _ => none

/-- The value that an operation has given the parameter. -/
def stored? (entry : Entry) (p : Parameter) : Option Value :=
  match entry.operation, entry.result with
  | .set q value, .ok () => if q = p then some value else none
  | .write q value, .ok () => if q = p then some value else none
  | _, _ => none

/-- Whether an operation locks the parameter, or unlocks it. -/
def lock? (entry : Entry) (p : Parameter) : Option Bool :=
  match entry.operation with
  | .setLocked q locked => if q = p then some locked else none
  | .remove first count => if Covers first count p then some false else none
  | _ => none

end Entry

/-- Of all that was added and removed, the last run with this parameter was added. -/
def Added (log : List Entry) (p : Parameter) : Prop :=
  (log.filterMap (·.existence? p)).getLast? = some true

/-- The parameter came into existence at some point and has existed since.  The value is the last
that it was given behind that point, and zero if there was none. -/
def Holds (log : List Entry) (p : Parameter) (value : Value) : Prop :=
  ∃ before creation after, log = before ++ creation :: after ∧
    creation.existence? p = some true ∧ ¬ Added before p ∧
    (∀ entry ∈ after, entry.existence? p ≠ some false) ∧
    (after.filterMap (·.stored? p)).getLast?.getD .zero = value

/-- Of all that set the lock of this parameter or removed it, whether it existed or not, the last
locked it. -/
def Locked (log : List Entry) (p : Parameter) : Prop :=
  (log.filterMap (·.lock? p)).getLast? = some true

instance (log : List Entry) (p : Parameter) : Decidable (Added log p) :=
  inferInstanceAs (Decidable (_ = _))

instance (log : List Entry) (p : Parameter) : Decidable (Locked log p) :=
  inferInstanceAs (Decidable (_ = _))

variable {log : List Entry} {entry : Entry} {value : Value}

lemma added_concat : Added (log ++ [entry]) p ↔
    entry.existence? p = some true ∨ entry.existence? p = none ∧ Added log p :=
  History.getLast?_filterMap_concat_eq_some

lemma locked_concat : Locked (log ++ [entry]) p ↔
    entry.lock? p = some true ∨ entry.lock? p = none ∧ Locked log p :=
  History.getLast?_filterMap_concat_eq_some

/-- One more entry makes the parameter, or leaves it there with a new value or with the old one. -/
lemma holds_concat : Holds (log ++ [entry]) p value ↔
    entry.existence? p = some true ∧ ¬ Added log p ∧ value = .zero ∨
      entry.existence? p ≠ some false ∧
        ∃ old, Holds log p old ∧ (entry.stored? p).getD old = value := by
  constructor
  · rintro ⟨before, creation, after, hlog, hcreation, hbefore, hafter, hvalue⟩
    rcases List.eq_nil_or_concat after with rfl | ⟨front, last, rfl⟩
    · obtain ⟨rfl, hentry⟩ := List.append_inj' hlog rfl
      obtain rfl := List.singleton_inj.mp hentry
      exact .inl ⟨hcreation, hbefore, hvalue.symm⟩
    · rw [List.concat_eq_append, ← List.cons_append, ← List.append_assoc] at hlog
      obtain ⟨rfl, hentry⟩ := List.append_inj' hlog rfl
      obtain rfl := List.singleton_inj.mp hentry
      rw [List.concat_eq_append, History.getLast?_filterMap_concat] at hvalue
      simp only [List.concat_eq_append, List.forall_mem_append, List.forall_mem_singleton]
        at hafter
      refine .inr ⟨hafter.2, _,
        ⟨before, creation, front, rfl, hcreation, hbefore, hafter.1, rfl⟩, ?_⟩
      rw [← hvalue]
      cases entry.stored? p <;> rfl
  · rintro (⟨hcreation, hbefore, rfl⟩ |
      ⟨hkept, old, ⟨before, creation, after, rfl, hcreation, hbefore, hafter, rfl⟩, hvalue⟩)
    · exact ⟨log, entry, [], rfl, hcreation, hbefore, by simp, rfl⟩
    · refine ⟨before, creation, after ++ [entry], by simp, hcreation, hbefore, ?_, ?_⟩
      · simpa only [List.forall_mem_append, List.forall_mem_singleton] using ⟨hafter, hkept⟩
      · rw [History.getLast?_filterMap_concat, ← hvalue]
        cases entry.stored? p <;> rfl

/-! ## One operation, seen from one cell -/

lemma covers_iff {first : Parameter} {count : Nat} : Covers first count p ↔
    first.number ≤ p.number ∧ p.number < first.number + count := by
  have := p.number_le
  rw [Covers]
  omega

lemma cell_modifyRun_covers (first : Parameter) (count : Nat) (change : Cell → Cell) :
    (store.modifyRun first count change).cell p
      = if Covers first count p then change (store.cell p) else store.cell p := by
  rw [cell_modifyRun]
  exact if_congr covers_iff.symm rfl rfl

/-- A value offered for a parameter is refused, or the parameter exists and takes it over. -/
def Takes (store : ParameterStore) (q : Parameter) (value : Value)
    (given : Except Fault Unit × ParameterStore) : Prop :=
  (∃ fault, given = (.error fault, store)) ∨ store.contains q = true ∧
    given = (.ok (), store.modify q fun cell => { cell with value? := some value })

lemma set_eq (store : ParameterStore) (q : Parameter) (value : Value) :
    store.set q value = if store.contains q = true then
      (.ok (), store.modify q fun cell => { cell with value? := some value })
    else (.error .invalidParameter, store) := rfl

lemma onWrite_eq (store : ParameterStore) (q : Parameter) (value : Value) :
    Device.onWrite store q value = if ¬ store.contains q = true then
      (.error .invalidParameter, store)
    else if (store.cell q).locked = true then
      (.error .rejected, store)
    else
      (.ok (), store.modify q fun cell => { cell with value? := some value }) := by
  change store.write q value = _
  rw [write, set_eq]
  cases store.contains q <;> rfl

/-- What the bus gets of a parameter. -/
lemma onRead_eq (store : ParameterStore) (q : Parameter) :
    Device.onRead store q = (match store.get? q with
      | some value => .ok value
      | none => .error .invalidParameter, store) := rfl

lemma takes_set (store : ParameterStore) (q : Parameter) (value : Value) :
    store.Takes q value (store.set q value) := by
  rw [set_eq]
  split_ifs with hq
  · exact .inr ⟨hq, rfl⟩
  · exact .inl ⟨_, rfl⟩

lemma takes_onWrite (store : ParameterStore) (q : Parameter) (value : Value) :
    store.Takes q value (Device.onWrite store q value) := by
  rw [onWrite_eq]
  by_cases hq : store.contains q = true
  · rw [if_neg (not_not_intro hq)]
    split_ifs
    · exact .inl ⟨_, rfl⟩
    · exact .inr ⟨hq, rfl⟩
  · rw [if_pos hq]
    exact .inl ⟨_, rfl⟩

/-- The cell of a parameter behind an entry, by what the entry says of the parameter. -/
def Entry.cell (entry : Entry) (p : Parameter) (old : Cell) : Cell where
  value? :=
    match entry.existence? p with
    | some true => some (old.value?.getD .zero)
    | some false => none
    | none => old.value?.map fun value => (entry.stored? p).getD value
  locked := (entry.lock? p).getD old.locked

/-- An entry that says nothing of a parameter leaves its cell alone. -/
lemma Entry.eq_cell_of_none (old : Cell) (hexistence : entry.existence? p = none)
    (hstored : entry.stored? p = none) (hlock : entry.lock? p = none) :
    old = entry.cell p old := by
  rw [Entry.cell, hexistence, hstored, hlock]
  simp

lemma Takes.cell_eq {q : Parameter} {value : Value} {given : Except Fault Unit × ParameterStore}
    (h : store.Takes q value given) {operation : Operation}
    (hoperation : operation = .set q value ∨ operation = .write q value) (p : Parameter) :
    given.2.cell p = Entry.cell ⟨operation, given.1⟩ p (store.cell p) := by
  rcases h with ⟨fault, rfl⟩ | ⟨hcontains, rfl⟩
  · -- nothing is stored
    rcases hoperation with rfl | rfl <;> exact Entry.eq_cell_of_none _ rfl rfl rfl
  · rw [cell_modify]
    by_cases hq : q = p
    · subst hq
      obtain ⟨old, hold⟩ := Option.isSome_iff_exists.mp hcontains
      rw [get?] at hold
      rcases hoperation with rfl | rfl <;>
        simp [Entry.cell, Entry.existence?, Entry.stored?, Entry.lock?, hold]
    · rw [if_neg hq]
      rcases hoperation with rfl | rfl <;> exact Entry.eq_cell_of_none _ rfl (if_neg hq) rfl

/-- **What an operation makes of a cell** is what its entry says of the parameter. -/
theorem cell_operate (store : ParameterStore) (operation : Operation) (p : Parameter) :
    (store.operate operation).2.cell p = (store.operate operation).1.cell p (store.cell p) := by
  cases operation with
  | add first count =>
      rw [operate, perform, add, cell_modifyRun_covers]
      split_ifs with hcovers
      · simp [Entry.cell, Entry.existence?, Entry.lock?, hcovers]
      · exact Entry.eq_cell_of_none _ (if_neg hcovers) rfl rfl
  | remove first count =>
      rw [operate, perform, remove, cell_modifyRun_covers]
      split_ifs with hcovers
      · simp [Entry.cell, Entry.existence?, Entry.lock?, hcovers, Cell.empty]
      · exact Entry.eq_cell_of_none _ (if_neg hcovers) rfl (if_neg hcovers)
  | set q value => exact (takes_set store q value).cell_eq (.inl rfl) p
  | write q value => exact (takes_onWrite store q value).cell_eq (.inr rfl) p
  | setLocked q locked =>
      rw [operate, perform, setLocked, cell_modify]
      by_cases hq : q = p
      · subst hq
        simp [Entry.cell, Entry.existence?, Entry.stored?, Entry.lock?]
      · rw [if_neg hq]
        exact Entry.eq_cell_of_none _ rfl rfl (if_neg hq)

/-! ## The log and the store -/

/-- An operation that makes a parameter exist gives it no value. -/
lemma Entry.stored?_of_existence? {created : Bool} (h : entry.existence? p = some created) :
    entry.stored? p = none := by
  obtain ⟨operation, result⟩ := entry
  cases operation with
  | add | remove | setLocked => rfl
  | set | write => cases h

/-- The log and the cells say the same of every parameter. -/
structure Matches (log : List Entry) (store : ParameterStore) : Prop where
  added_iff : ∀ p, Added log p ↔ store.contains p = true
  holds_iff : ∀ p value, Holds log p value ↔ store.get? p = some value
  locked_iff : ∀ p, Locked log p ↔ (store.cell p).locked = true

namespace Matches

lemma cell_empty (p : Parameter) : empty.cell p = Cell.empty := by
  simp [empty, cell]

lemma start : Matches [] empty where
  added_iff p := by simp [Added, contains, get?, cell_empty, Cell.empty]
  holds_iff p value := by
    rw [get?, cell_empty]
    refine iff_of_false ?_ nofun
    rintro ⟨before, creation, after, hlog, -⟩
    simp at hlog
  locked_iff p := by simp [Locked, cell_empty, Cell.empty]

/-- **What the log and the cells say stays the same.** -/
lemma operate (h : Matches log store) (operation : Operation) :
    Matches (log ++ [(store.operate operation).1]) (store.operate operation).2 := by
  refine ⟨fun p => ?_, fun p value => ?_, fun p => ?_⟩
  · rw [added_concat, h.added_iff]
    simp only [contains, get?, cell_operate, Entry.cell]
    rcases (store.operate operation).1.existence? p with _ | _ | _ <;> simp
  · have hadded := h.added_iff p
    rw [contains, get?] at hadded
    rw [holds_concat, hadded, get?, cell_operate, Entry.cell]
    simp only [h.holds_iff, get?]
    cases hexistence : (store.operate operation).1.existence? p with
    | none => simp
    | some created =>
        rw [Entry.stored?_of_existence? hexistence]
        cases created with
        | false => simp
        | true => cases (store.cell p).value? <;> simp [eq_comm]
  · rw [locked_concat, h.locked_iff, cell_operate, Entry.cell]
    rcases (store.operate operation).1.lock? p with _ | _ | _ <;> simp

end Matches

/-- Behind every run the log and the store say the same. -/
lemma matches_run (operations : List Operation) :
    Matches (History.run operate empty operations).1 (History.run operate empty operations).2 := by
  refine History.run_invariant operate Matches .start ?_ operations
  intro log mid operation h
  exact h.operate operation

/-- What is refused changes nothing. -/
lemma operate_of_refused {operation : Operation} {fault : Fault}
    (h : (store.operate operation).1.result = .error fault) :
    (store.operate operation).2 = store := by
  have htakes : ∀ q value, store.Takes q value (store.perform operation) →
      (store.operate operation).2 = store := by
    rintro q value (⟨other, hgiven⟩ | ⟨-, hgiven⟩)
    · rw [operate, hgiven]
    · rw [operate, hgiven] at h
      cases h
  cases operation with
  | set q value => exact htakes q value (takes_set store q value)
  | write q value => exact htakes q value (takes_onWrite store q value)
  | add | remove | setLocked => cases h

/-- **A store holds what its history says**, whatever was done with it since it was empty.  A
parameter exists exactly if the last run with it that was added or removed was added.  Its value,
for the owner and for the bus, is the last that it was given since it came into existence, or zero.
It is locked exactly if the last that set its lock or removed it, existing or not, locked it.  A
value is refused to the bus if the parameter does not exist or is locked, and to the owner only if
it does not exist; what is refused changes nothing.  The size is the number of parameters that
exist. -/
theorem contents_follow_history (operations : List Operation) :
    let log := (History.run operate empty operations).1
    let store := (History.run operate empty operations).2
    (∀ p, store.contains p = true ↔ Added log p) ∧
      (∀ p value, store.get? p = some value ↔ Holds log p value) ∧
      (∀ p, Device.onRead store p = (match store.get? p with
        | some value => .ok value
        | none => .error .invalidParameter, store)) ∧
      (∀ p, (store.cell p).locked = true ↔ Locked log p) ∧
      (∀ p value, Device.onWrite store p value =
        if ¬ Added log p then (.error .invalidParameter, store)
        else if Locked log p then (.error .rejected, store)
        else (.ok (), store.modify p fun cell => { cell with value? := some value })) ∧
      (∀ p value, store.set p value =
        if Added log p then
          (.ok (), store.modify p fun cell => { cell with value? := some value })
        else (.error .invalidParameter, store)) ∧
      (∀ operation fault, (store.operate operation).1.result = .error fault →
        (store.operate operation).2 = store) ∧
      store.size = {p | Added log p}.ncard := by
  intro log store
  have hmatches : Matches log store := matches_run operations
  refine ⟨fun p => (hmatches.added_iff p).symm, fun p value => (hmatches.holds_iff p value).symm,
    fun p => ?_, fun p => (hmatches.locked_iff p).symm, fun p value => ?_, fun p value => ?_,
    fun operation fault => operate_of_refused, ?_⟩
  · exact onRead_eq store p
  · simp only [hmatches.added_iff, hmatches.locked_iff]
    exact onWrite_eq store p value
  · simp only [hmatches.added_iff]
    exact set_eq store p value
  · simp only [hmatches.added_iff]
    exact size_eq_ncard store

end ParameterStore

end FieldBus
