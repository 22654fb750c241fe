import FieldBus.Proofs.History
import FieldBus.Proofs.WireForm

/-!
# What a block has stored

A block that is full drops what it is offered, also in the middle of a value, and clearing it leaves
all cells as they are.  So a cell behind the size may hold a byte of any time before.  What is seen
of a block is a matter of what it was offered (**`Block.contents_follow_offers`**): its bytes of
what was offered since it was last cleared, and each of its cells of everything that ever was.

* `Block.operate`, `Block.Entry` — one operation, and what the log has of it.
* `Block.rounds` — what was offered between one clearing and the next.  `Block.offered` is the last
  of these rounds.
* `Block.stores` — each round fills the cells from the front, as far as there are any;
  `Block.latest` is what was stored last in a cell.
* `Block.Matches` — the invariant: the log and the cells say the same.  But for a clearing, an
  operation appends what it offers (`Block.operate_eq`), so one lemma on `Block.append` keeps it
  (`Block.cell_append`).
-/

namespace FieldBus

namespace Block

/-! ## The log -/

/-- What can be done with a block. -/
inductive Operation where
  | push (b : UInt8)
  /-- The sign and the digits of a value; what does not fit is dropped. -/
  | appendValue (value : Value)
  | clear
  deriving DecidableEq

/-- What a log has of an operation; of a push also whether it was told that the byte was stored. -/
inductive Entry where
  | pushed (b : UInt8) (stored : Bool)
  | appended (value : Value)
  | cleared
  deriving DecidableEq

def operate (block : Block) : Operation → Entry × Block
  | .push b =>
    match block.push b with
    | some next => (.pushed b true, next)
    | none => (.pushed b false, block)
  | .appendValue value => (.appended value, block.append value.field)
  | .clear => (.cleared, block.clear)

namespace Entry

def isCleared : Entry → Bool
  | cleared => true
  | _ => false

/-- The bytes that an operation offers, whatever becomes of them. -/
def offered : Entry → Bytes
  | pushed b _ => [b]
  | appended value => value.numeral
  | cleared => []

end Entry

/-- What was offered between one clearing and the next, before the first, and behind the last. -/
def rounds (log : List Entry) : List Bytes :=
  (log.splitOnP Entry.isCleared).map (·.flatMap Entry.offered)

/-- What was offered since the last clearing. -/
def offered (log : List Entry) : Bytes := (rounds log).getLast?.getD []

/-- All bytes that were ever stored, each with its cell.  A round begins at the first cell and goes
on to the last. -/
def stores (log : List Entry) : List (UInt8 × Nat) :=
  (rounds log).flatMap fun round => (round.take 14).zipIdx

/-- The byte that was last put into a cell by such a sequence of stores, or zero if none was. -/
def lastIn (stores : List (UInt8 × Nat)) (i : Nat) : UInt8 :=
  (stores.filterMap fun (b, k) => if k = i then some b else none).getLast?.getD 0

variable {block other : Block} {log : List Entry} {entry : Entry} {i : Fin 14}

lemma lastIn_concat (stores : List (UInt8 × Nat)) (b : UInt8) (k i : Nat) :
    lastIn (stores ++ [(b, k)]) i = if k = i then b else lastIn stores i := by
  rw [lastIn, History.getLast?_filterMap_concat]
  by_cases hk : k = i
  · simp [hk]
  · simp [hk, lastIn]

/-! ### One more entry -/

/-- What stands behind the last separator takes one more element. -/
lemma splitOnP_concat {α : Type} {p : α → Bool} {a : α} (ha : p a = false) (as : List α) :
    ∃ front last, as.splitOnP p = front ++ [last] ∧
      (as ++ [a]).splitOnP p = front ++ [last ++ [a]] := by
  induction as with
  | nil => exact ⟨[], [], List.splitOnP_nil, by simp [List.splitOnP_cons_eq_if_modifyHead, ha]⟩
  | cons b rest ih =>
      obtain ⟨front, last, hrest, hmore⟩ := ih
      rw [List.cons_append, List.splitOnP_cons_eq_if_modifyHead,
        List.splitOnP_cons_eq_if_modifyHead, hrest, hmore]
      split_ifs
      · exact ⟨[] :: front, last, rfl, rfl⟩
      · cases front with
        | nil => exact ⟨[], b :: last, rfl, rfl⟩
        | cons first front => exact ⟨(b :: first) :: front, last, rfl, rfl⟩

lemma rounds_cleared (log : List Entry) : rounds (log ++ [.cleared]) = rounds log ++ [[]] := by
  rw [rounds, List.splitOnP_append_cons log [] rfl, List.map_append, List.splitOnP_nil]
  rfl

lemma rounds_concat (h : entry.isCleared = false) (log : List Entry) :
    ∃ front, rounds log = front ++ [offered log] ∧
      rounds (log ++ [entry]) = front ++ [offered log ++ entry.offered] := by
  obtain ⟨front, last, hlog, hmore⟩ := splitOnP_concat h log
  have hoffered : offered log = last.flatMap Entry.offered := by
    rw [offered, rounds, hlog, List.map_append, List.map_singleton, List.getLast?_concat]
    rfl
  refine ⟨front.map (·.flatMap Entry.offered), ?_, ?_⟩
  · rw [rounds, hlog, List.map_append, List.map_singleton, hoffered]
  · rw [rounds, hmore, List.map_append, List.map_singleton, hoffered, List.flatMap_append,
      List.flatMap_singleton]

lemma offered_cleared (log : List Entry) : offered (log ++ [.cleared]) = [] := by
  rw [offered, rounds_cleared, List.getLast?_concat]
  rfl

lemma offered_concat (h : entry.isCleared = false) (log : List Entry) :
    offered (log ++ [entry]) = offered log ++ entry.offered := by
  obtain ⟨front, -, hmore⟩ := rounds_concat h log
  rw [offered, hmore, List.getLast?_concat]
  rfl

lemma stores_cleared (log : List Entry) : stores (log ++ [.cleared]) = stores log := by
  rw [stores, rounds_cleared, List.flatMap_append]
  exact List.append_nil _

/-- What is offered in addition is stored behind what was offered before. -/
lemma stores_concat (h : entry.isCleared = false) (log : List Entry) :
    stores (log ++ [entry]) = stores log ++
      (entry.offered.take (14 - (offered log).length)).zipIdx (offered log).length := by
  obtain ⟨front, hlog, hmore⟩ := rounds_concat h log
  have hindex : (((entry.offered.take (14 - (offered log).length)).zipIdx
      ((offered log).take 14).length) : List (UInt8 × Nat))
        = (entry.offered.take (14 - (offered log).length)).zipIdx (offered log).length := by
    rcases Nat.le_total (offered log).length 14 with hle | hle
    · rw [List.take_of_length_le hle]
    · rw [Nat.sub_eq_zero_of_le hle, List.take_zero]
      rfl
  rw [stores, stores, hlog, hmore, List.flatMap_append, List.flatMap_append, List.flatMap_singleton,
    List.flatMap_singleton, List.take_append, List.zipIdx_append, List.append_assoc, Nat.zero_add,
    hindex]

/-! ## One operation -/

lemma size_of_push {next : Block} {b : UInt8} (h : block.push b = some next) :
    block.size < 14 ∧ next.size = block.size + 1 := by
  have hbytes := congrArg List.length (bytes_push h)
  rw [length_bytes, List.length_append, length_bytes, List.length_singleton] at hbytes
  have hle := next.size_le
  omega

/-- A push that succeeds changes the first cell that is free, and no other. -/
lemma cell_of_push {next : Block} {b : UInt8} (h : block.push b = some next) (i : Fin 14) :
    next.cell i = if block.size = i then b else block.cell i := by
  unfold push at h
  split at h
  · cases h
    simp only [cell, Fin.getElem_fin, Vector.getElem_set]
  · cases h

lemma append_of_push_eq_none {b : UInt8} (h : block.push b = none) (rest : Bytes) :
    block.append (b :: rest) = block.append rest := by
  rw [append, append, pushEach, h]

/-- **What is appended is stored behind what is there**, as far as there are cells; all other cells
stay as they are. -/
lemma cell_append {n : Nat} (hsize : block.size = min 14 n) {before : List (UInt8 × Nat)}
    (hcells : ∀ i : Fin 14, block.cell i = lastIn before i) (added : Bytes) (i : Fin 14) :
    (block.append added).cell i = lastIn (before ++ (added.take (14 - n)).zipIdx n) i := by
  induction added generalizing block n before with
  | nil =>
      rw [List.take_nil, List.zipIdx_nil, List.append_nil, ← hcells]
      rfl
  | cons b rest ih =>
      cases hpush : block.push b with
      | some next =>
          obtain ⟨hlt, hnext⟩ := size_of_push hpush
          have hn : block.size = n := by omega
          have hroom : 14 - n = (14 - (n + 1)) + 1 := by omega
          have hnextCells : ∀ i : Fin 14, next.cell i = lastIn (before ++ [(b, n)]) i := by
            intro i
            rw [cell_of_push hpush, lastIn_concat, hn, hcells]
          rw [append_cons hpush, ih (n := n + 1) (by omega) hnextCells, hroom,
            List.take_succ_cons, List.zipIdx_cons, List.append_assoc, List.singleton_append]
      | none =>
          have hfull := push_eq_none_iff.mp hpush
          have hroom : 14 - n = 0 := by omega
          rw [append_of_push_eq_none hpush, ih hsize hcells, hroom, List.take_zero, List.take_zero]

/-- Whatever is done but a clearing, what is offered is appended. -/
lemma operate_eq (block : Block) (operation : Operation) :
    block.operate operation = (.cleared, block.clear) ∨
      (block.operate operation).1.isCleared = false ∧
        (block.operate operation).2 = block.append (block.operate operation).1.offered := by
  cases operation with
  | push b =>
      refine .inr ?_
      rw [operate]
      cases hpush : block.push b with
      | some next => exact ⟨rfl, (append_cons hpush []).symm⟩
      | none => exact ⟨rfl, (append_of_push_eq_none hpush []).symm⟩
  | appendValue value =>
      refine .inr ⟨rfl, ?_⟩
      simp only [operate, Entry.offered, value.numeral_eq_field]
  | clear => exact .inl rfl

/-! ## The log and the block -/

/-- A push was told that its byte was stored, or that it was not, and this is so. -/
def Tells (before : List Entry) (b : UInt8) (stored : Bool) : Prop :=
  (stored = true ↔ (offered before).length < 14) ∧
    stores (before ++ [.pushed b stored])
      = stores before ++ if stored = true then [(b, (offered before).length)] else []

/-- The log and the block say the same. -/
structure Matches (log : List Entry) (block : Block) : Prop where
  bytes_eq : block.bytes = (offered log).take 14
  cell_eq : ∀ i : Fin 14, block.cell i = lastIn (stores log) i
  tells : ∀ before b stored, before ++ [.pushed b stored] <+: log → Tells before b stored

namespace Matches

lemma start : Matches [] empty where
  bytes_eq := rfl
  cell_eq i := by
    rw [cell, empty, Fin.getElem_fin, Vector.getElem_replicate]
    rfl
  tells before b stored h := by simp at h

lemma size_eq (h : Matches log block) : block.size = min 14 (offered log).length := by
  rw [← length_bytes, h.bytes_eq, List.length_take]

/-- A push tells what becomes of its byte. -/
lemma tells_operate (h : Matches log block) {operation : Operation} {b : UInt8} {stored : Bool}
    (hentry : (block.operate operation).1 = .pushed b stored) : Tells log b stored := by
  have hsize := h.size_eq
  have hpushed : stored = true ↔ block.size < 14 := by
    cases operation with
    | push c =>
        rw [Block.operate] at hentry
        cases hpush : block.push c with
        | some next =>
            rw [hpush] at hentry
            cases hentry
            exact iff_of_true rfl (size_of_push hpush).1
        | none =>
            rw [hpush] at hentry
            cases hentry
            exact iff_of_false Bool.false_ne_true (by rw [push_eq_none_iff.mp hpush]; decide)
    | appendValue value => cases hentry
    | clear => cases hentry
  have hroom : stored = true ↔ (offered log).length < 14 := by
    rw [hpushed]
    omega
  refine ⟨hroom, ?_⟩
  rw [stores_concat rfl]
  by_cases hstored : stored = true
  · have hone : 14 - (offered log).length = (13 - (offered log).length) + 1 := by
      have hlt := hroom.mp hstored
      omega
    rw [if_pos hstored, hone, Entry.offered, List.take_succ_cons, List.take_nil]
    rfl
  · have hnone : 14 - (offered log).length = 0 := by
      have hle := mt hroom.mpr hstored
      omega
    rw [if_neg hstored, hnone]
    rfl

/-- **What the log and the block say stays the same.** -/
lemma operate (h : Matches log block) (operation : Operation) :
    Matches (log ++ [(block.operate operation).1]) (block.operate operation).2 := by
  have htells : ∀ before b stored,
      before ++ [.pushed b stored] <+: log ++ [(block.operate operation).1] →
        Tells before b stored := by
    intro before b stored hprefix
    rcases List.prefix_concat_iff.mp hprefix with heq | hprefix
    · obtain ⟨rfl, hentry⟩ := List.append_inj' heq rfl
      exact h.tells_operate (List.singleton_inj.mp hentry).symm
    · exact h.tells before b stored hprefix
  rcases block.operate_eq operation with hclear | ⟨hentry, happend⟩
  · rw [hclear] at htells ⊢
    refine ⟨?_, fun i => ?_, htells⟩
    · rw [offered_cleared, List.take_nil, bytes_clear]
    · rw [stores_cleared]
      exact h.cell_eq i
  · refine ⟨?_, fun i => ?_, htells⟩
    · have hroom : 14 - block.size = 14 - (offered log).length := by
        have hsize := h.size_eq
        omega
      rw [happend, bytes_append, h.bytes_eq, offered_concat hentry, List.take_append, hroom]
    · rw [happend, stores_concat hentry]
      exact cell_append h.size_eq h.cell_eq _ i

end Matches

lemma matches_run (operations : List Operation) :
    Matches (History.run operate empty operations).1 (History.run operate empty operations).2 :=
  History.run_invariant operate Matches .start (fun _ _ operation h => h.operate operation)
    operations

/-! ## Equality -/

lemma getElem?_bytes (block : Block) (i : Fin 14) :
    block.bytes[i.val]? = if i.val < block.size then some (block.cell i) else none := by
  rw [bytes, List.getElem?_take]
  split_ifs with hi
  · rw [Vector.getElem?_toList, cell, Fin.getElem_fin, Vector.getElem?_eq_getElem i.isLt]
  · rfl

/-- The bytes are the same if the sizes are and the cells in front of them. -/
lemma bytes_eq_iff : block.bytes = other.bytes ↔
    block.size = other.size ∧ ∀ i : Fin 14, i.val < block.size → block.cell i = other.cell i := by
  constructor
  · intro hbytes
    have hsize : block.size = other.size := by rw [← length_bytes, hbytes, length_bytes]
    refine ⟨hsize, fun i hi => ?_⟩
    have hcell := getElem?_bytes block i
    rw [hbytes, getElem?_bytes, if_pos hi, if_pos (hsize ▸ hi)] at hcell
    exact (Option.some.inj hcell).symm
  · rintro ⟨hsize, hcells⟩
    refine List.ext_getElem? fun i => ?_
    by_cases hi : i < 14
    · have hblock := getElem?_bytes block ⟨i, hi⟩
      have hother := getElem?_bytes other ⟨i, hi⟩
      dsimp only at hblock hother
      rw [hblock, hother, ← hsize]
      split_ifs with hsmall
      · rw [hcells ⟨i, hi⟩ hsmall]
      · rfl
    · have hle := block.size_le
      rw [List.getElem?_eq_none (by rw [length_bytes]; omega),
        List.getElem?_eq_none (by rw [length_bytes]; omega)]

/-- **What a block shows of its history.**  Its bytes are the first of those that were offered since
it was last cleared, as many as there are cells.  A push is told that its byte was stored exactly if
it was.  Each cell has what was stored in it last, whether or not the block was cleared since, and
zero if nothing ever was.  Two blocks are equal exactly if they have the same bytes, that is, the
same size and the same in all cells in front of it; so what was offered since they were last cleared
decides, and nothing that was stored before. -/
theorem contents_follow_offers (operations others : List Operation) :
    let log := (History.run operate empty operations).1
    let block := (History.run operate empty operations).2
    let other := (History.run operate empty others).2
    block.bytes = (offered log).take 14 ∧ block.size = min 14 (offered log).length ∧
      (∀ before b stored, before ++ [.pushed b stored] <+: log → Tells before b stored) ∧
      (∀ i : Fin 14, block.cell i = lastIn (stores log) i) ∧
      ((block == other) = true ↔ block.bytes = other.bytes) ∧
      ((block == other) = true ↔ block.size = other.size ∧
        ∀ i : Fin 14, i.val < block.size → block.cell i = other.cell i) ∧
      ((block == other) = true ↔
        (offered log).take 14 = (offered (History.run operate empty others).1).take 14) := by
  intro log block other
  have hmatches : Matches log block := matches_run operations
  have hother : Matches _ other := matches_run others
  have hequal : (block == other) = true ↔ block.bytes = other.bytes := by
    change (block.bytes == other.bytes) = true ↔ _
    exact beq_iff_eq
  refine ⟨hmatches.bytes_eq, hmatches.size_eq, hmatches.tells, hmatches.cell_eq, hequal,
    hequal.trans bytes_eq_iff, ?_⟩
  rw [hequal, hmatches.bytes_eq, hother.bytes_eq]

/-- Of a value behind thirteen bytes only the sign is stored, and it outlives the clearing. -/
example :
    let block := (History.run operate empty (List.replicate 13 (.push 0x41)
      ++ [.appendValue ⟨-7, by decide, by decide⟩, .clear, .push 0x42])).2
    block.bytes = [0x42] ∧ block.cell 1 = 0x41 ∧ block.cell 13 = Byte.minus := by
  decide

end Block

end FieldBus
