import FieldBus.Device

/-!
# A store of parameters

A `ParameterStore` has a cell for each of the thousand parameter numbers.  A parameter exists if
its cell holds a value.  Apart from that a cell may be locked, which keeps the bus, though not the
owner of the store, from changing the value; also the cell of a parameter that does not exist can
be locked.

* `ParameterStore.add`, `ParameterStore.remove` — for runs of parameters; a run that goes beyond
  the last parameter ends there.
* `ParameterStore.get?`, `ParameterStore.set` — for the owner.
* `Device.onRead`, `Device.onWrite` — for the bus.
-/

namespace FieldBus

/-- What the store keeps for one parameter number. -/
structure Cell where
  value? : Option Value
  locked : Bool
  deriving DecidableEq

def Cell.empty : Cell := ⟨none, false⟩

/-- The place of a parameter among all of them. -/
def Parameter.index (parameter : Parameter) : Fin 1000 :=
  ⟨parameter.number, Nat.lt_succ_of_le parameter.number_le⟩

/-- All parameters, in the order of their numbers. -/
def Parameter.all : List Parameter :=
  (List.finRange 1000).map fun index => ⟨index.val, Nat.le_of_lt_succ index.isLt⟩

/-- A cell for each parameter number. -/
structure ParameterStore where
  cells : Vector Cell 1000
  deriving DecidableEq

namespace ParameterStore

def empty : ParameterStore := ⟨Vector.replicate 1000 Cell.empty⟩

def cell (store : ParameterStore) (parameter : Parameter) : Cell := store.cells[parameter.index]

/-- Changes the cell of one parameter. -/
def modify (store : ParameterStore) (parameter : Parameter) (change : Cell → Cell) :
    ParameterStore :=
  ⟨store.cells.set parameter.index (change (store.cell parameter)) parameter.index.isLt⟩

/-- Changes the cells of `count` parameters from `first` on, as far as there are so many. -/
def modifyRun (store : ParameterStore) (first : Parameter) (count : Nat) (change : Cell → Cell) :
    ParameterStore :=
  ⟨store.cells.mapIdx fun i cell =>
    if first.number ≤ i ∧ i < first.number + count then change cell else cell⟩

def get? (store : ParameterStore) (parameter : Parameter) : Option Value :=
  (store.cell parameter).value?

def contains (store : ParameterStore) (parameter : Parameter) : Bool :=
  (store.get? parameter).isSome

/-- Makes parameters exist, with the value zero where they did not yet. -/
def add (store : ParameterStore) (first : Parameter) (count : Nat) : ParameterStore :=
  store.modifyRun first count fun cell => { cell with value? := some (cell.value?.getD .zero) }

/-- Makes parameters not exist, and unlocks their cells. -/
def remove (store : ParameterStore) (first : Parameter) (count : Nat) : ParameterStore :=
  store.modifyRun first count fun _ => .empty

/-- Gives an existing parameter a value, locked or not. -/
def set (store : ParameterStore) (parameter : Parameter) (value : Value) :
    Except Fault Unit × ParameterStore :=
  if store.contains parameter then
    (.ok (), store.modify parameter fun cell => { cell with value? := some value })
  else
    (.error .invalidParameter, store)

def setLocked (store : ParameterStore) (parameter : Parameter) (locked : Bool) :
    ParameterStore :=
  store.modify parameter fun cell => { cell with locked := locked }

def size (store : ParameterStore) : Nat := store.cells.toList.countP (·.value?.isSome)

/-- The parameters that exist with their values, in the order of their numbers. -/
def entries (store : ParameterStore) : List (Parameter × Value) :=
  (Parameter.all.zip store.cells.toList).filterMap fun (parameter, cell) =>
    cell.value?.map (parameter, ·)

/-- What the bus reads of a parameter. -/
def read (store : ParameterStore) (parameter : Parameter) : Except Fault Value :=
  match store.get? parameter with
  | some value => .ok value
  | none => .error .invalidParameter

/-- What the bus does to a parameter: a locked one is left alone. -/
def write (store : ParameterStore) (parameter : Parameter) (value : Value) :
    Except Fault Unit × ParameterStore :=
  if !store.contains parameter then
    (.error .invalidParameter, store)
  else if (store.cell parameter).locked then
    (.error .rejected, store)
  else
    store.set parameter value

theorem cell_modify (store : ParameterStore) (p q : Parameter) (change : Cell → Cell) :
    (store.modify p change).cell q = if p = q then change (store.cell p) else store.cell q := by
  have hindex : p.index.val = q.index.val ↔ p = q := by
    cases p
    cases q
    simp [Parameter.index]
  simp [modify, cell, Vector.getElem_set, hindex]

theorem cell_modifyRun (store : ParameterStore) (first p : Parameter) (count : Nat)
    (change : Cell → Cell) :
    (store.modifyRun first count change).cell p
      = if first.number ≤ p.number ∧ p.number < first.number + count
        then change (store.cell p) else store.cell p := by
  simp [modifyRun, cell, Parameter.index]

instance : Device ParameterStore where
  onRead store parameter := (store.read parameter, store)
  onWrite := write

end ParameterStore

end FieldBus
