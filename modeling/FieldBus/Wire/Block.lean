import FieldBus.Wire.Byte

/-!
# A block of wire bytes

The longest frame has 14 bytes: STX, two station digits, three parameter digits, a sign, five
digits, ETX and the check byte.  A `Block` is a buffer of that many cells which is filled from the
front.  It refuses bytes for which there is no cell left, and it is emptied by forgetting its size
alone, so that cells behind the size keep what was last stored in them.

* `Block.push` — one byte, or `none` if the block is full.
* `Block.pushEach` — several bytes, with the verdict on each.
* `Block.append` — several bytes, of which those that do not fit are dropped.
* `Block.bytes` — the view: the filled cells.  Equality of blocks is equality of this view.
-/

namespace FieldBus

/-- A buffer of 14 cells, filled from the front. -/
structure Block where
  cells : Vector UInt8 14
  size : Nat
  size_le : size ≤ 14

namespace Block

def capacity : Nat := 14

/-- The block with nothing in it, each cell zero. -/
def empty : Block := ⟨Vector.replicate 14 0, 0, Nat.zero_le _⟩

def isEmpty (block : Block) : Bool := block.size == 0

def isFull (block : Block) : Bool := block.size == capacity

/-- The filled cells, in order. -/
def bytes (block : Block) : Bytes := block.cells.toList.take block.size

/-- The byte in a cell, filled or not. -/
def cell (block : Block) (index : Fin 14) : UInt8 := block.cells[index]

/-- Fills the next cell. -/
def push (block : Block) (b : UInt8) : Option Block :=
  if h : block.size < 14 then
    some ⟨block.cells.set block.size b, block.size + 1, h⟩
  else
    none

/-- Offers the bytes one after the other, and tells of each whether it was stored. -/
def pushEach (block : Block) : Bytes → List Bool × Block
  | [] => ([], block)
  | b :: rest =>
    match block.push b with
    | some next =>
      let (stored, last) := next.pushEach rest
      (true :: stored, last)
    | none =>
      let (stored, last) := block.pushEach rest
      (false :: stored, last)

/-- Stores as many of the bytes as there are cells left and drops the others. -/
def append (block : Block) (added : Bytes) : Block := (block.pushEach added).2

/-- Forgets the contents; the cells stay as they are. -/
def clear (block : Block) : Block := { block with size := 0, size_le := Nat.zero_le _ }

/-- Two blocks are the same if they hold the same bytes; cells behind the size do not count. -/
instance : BEq Block := ⟨fun a b => a.bytes == b.bytes⟩

@[simp] theorem bytes_empty : empty.bytes = [] := rfl

@[simp] theorem bytes_clear (block : Block) : block.clear.bytes = [] := rfl

@[simp] theorem length_bytes (block : Block) : block.bytes.length = block.size := by
  simp [bytes, block.size_le]

theorem push_eq_none_iff {block : Block} {b : UInt8} : block.push b = none ↔ block.size = 14 := by
  have := block.size_le
  unfold push
  split <;> simp <;> omega

theorem bytes_push {block next : Block} {b : UInt8} (h : block.push b = some next) :
    next.bytes = block.bytes ++ [b] := by
  unfold push at h
  split at h
  · next hlt =>
    cases h
    have hlen : block.size < block.cells.toList.length := by simpa using hlt
    simp only [bytes, Vector.toList_set]
    rw [List.take_succ_eq_append_getElem (by simpa using hlen)]
    simp [List.take_set, List.set_eq_of_length_le (List.length_take_le ..)]
  · cases h

/-- Appending stores the longest beginning for which there is room. -/
theorem bytes_append (block : Block) (added : Bytes) :
    (block.append added).bytes = block.bytes ++ added.take (14 - block.size) := by
  induction added generalizing block with
  | nil => simp [append, pushEach]
  | cons b rest ih =>
    unfold append pushEach
    split
    · next next h =>
      have hsize : next.size = block.size + 1 := by
        have := congrArg List.length (bytes_push h)
        simpa using this
      have hlt : block.size < 14 := by
        have := next.size_le
        omega
      have := ih next
      simp only [append] at this
      rw [this, bytes_push h, hsize, show 14 - block.size = (14 - (block.size + 1)) + 1 by omega]
      simp
    · next h =>
      have hfull := push_eq_none_iff.mp h
      have := ih block
      simp only [append] at this
      rw [this, hfull]
      simp

end Block

end FieldBus
