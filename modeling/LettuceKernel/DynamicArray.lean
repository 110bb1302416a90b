import LettuceKernel.Types
import LettuceKernel.Lib.Ring
import LettuceKernel.Lib.Run
import Mathlib.Algebra.Group.Nat.Defs
/-!
# The circular dynamic array (`shared/dynamic_array/dynamic_array.c`)

| here | there |
| --- | --- |
| `DynamicArray`     | `DynamicArray` (dynamic_array.h:25); `data` is the block `malloc` returned, `none` for NULL |
| `sizeT`            | a `size_t` result: it must fit 64 bits |
| `arrayInit`, `arrayGet`, `arraySet` | dynamic_array.c:17, :36, :48 |
| `resize`           | dynamic_array.c:61, with its copy loop `copyCells` |
| `arrayPush`, `arrayEnqueue`, `arrayPop`, `arrayDequeue`, `arrayFree` | :96, :133, :119, :138, :153 |

The array pointer is not NULL (every function refuses that first). A function returns `none`
if it accesses a cell outside its block or computes a size that does not fit; `malloc` answers
each request with NULL or a block of that many bytes with any contents.

The array stands for a list (`DynamicArray.toList`), and `dequeSpec` is the double-ended list
the functions are to implement. `Valid` is what they keep.
-/

namespace Lettuce

open Runs

/-- `void *`, 0 for NULL. -/
abbrev Pointer := BitVec 64

/-- A block of `size` pointers. -/
structure Block where
  size : Nat
  cells : Nat → Pointer

def Block.read (b : Block) (i : Nat) : Option Pointer := if i < b.size then some (b.cells i) else none

def Block.write (b : Block) (i : Nat) (x : Pointer) : Option Block :=
  if i < b.size then some { b with cells := Function.update b.cells i x } else none

/-- `SIZE_MAX` -/
def sizeMax : Nat := 2 ^ 64 - 1

/-- A computed size, if it fits. -/
def sizeT (n : Nat) : Option Nat := if n ≤ sizeMax then some n else none

/-- `sizeof(void *)` -/
def pointerSize : Nat := 8

/-- `ARRAY_INITIAL_CAPACITY`, `ARRAY_GROWTH_FACTOR` (dynamic_array.h:22) -/
def arrayInitialCapacity : Nat := 4
def arrayGrowthFactor : Nat := 2

structure DynamicArray where
  head : Nat
  count : Nat
  capacity : Nat
  data : Option Block

/-- What `malloc` answers to a request of so many bytes: the contents of the new block. -/
abbrev Malloc := Nat → Option (Nat → Pointer)

def Malloc.block (malloc : Malloc) (bytes : Nat) : Option Block :=
  (malloc bytes).map fun cells => ⟨bytes / pointerSize, cells⟩

/-- The flag is false for the result NULL. -/
def arrayInit (malloc : Malloc) : Option (DynamicArray × Bool) := do
  let bytes ← sizeT (arrayInitialCapacity * pointerSize)
  match malloc.block bytes with
  | none => pure (⟨0, 0, 0, none⟩, false)
  | some block => pure (⟨0, 0, arrayInitialCapacity, some block⟩, true)

/-- `head + index`, less the capacity if that is passed. -/
def DynamicArray.actualIndex (a : DynamicArray) (index : Nat) : Option Nat := do
  let i ← sizeT (a.head + index)
  pure (if i ≥ a.capacity then i - a.capacity else i)

def arrayGet (a : DynamicArray) (index : Nat) : Option Pointer :=
  match a.data with
  | none => pure 0
  | some block =>
    if index ≥ a.count then pure 0
    else do
      let i ← a.actualIndex index
      block.read i

def arraySet (a : DynamicArray) (index : Nat) (item : Pointer) : Option (DynamicArray × Bool) :=
  match a.data with
  | none => pure (a, false)
  | some block =>
    if index ≥ a.count then pure (a, false)
    else do
      let i ← a.actualIndex index
      let block ← block.write i item
      pure ({ a with data := some block }, true)

/-- One iteration of the copy loop. -/
def copyCell (a : DynamicArray) (block : Block) (new : Block) (i : Nat) : Option Block := do
  let idx ← a.actualIndex i
  let x ← block.read idx
  new.write i x

def copyCells (a : DynamicArray) (block new : Block) : Option Block :=
  (List.range a.count).foldlM (copyCell a block) new

def resize (a : DynamicArray) (malloc : Malloc) : Option (DynamicArray × Bool) :=
  if a.capacity = 0 then pure (a, false)
  else if a.capacity > sizeMax / (arrayGrowthFactor * pointerSize) then pure (a, false)
  else do
    let newCapacity ← sizeT (a.capacity * arrayGrowthFactor)
    let bytes ← sizeT (newCapacity * pointerSize)
    match malloc.block bytes with
    | none => pure (a, false)
    | some new =>
      let block ← a.data
      let newData ← copyCells a block new
      pure ({ a with data := some newData, capacity := newCapacity, head := 0 }, true)

/-- `array->data[tail] = item; array->count++` -/
def DynamicArray.append (a : DynamicArray) (item : Pointer) : Option (DynamicArray × Bool) := do
  let tail ← a.actualIndex a.count
  let block ← a.data
  let block ← block.write tail item
  let count ← sizeT (a.count + 1)
  pure ({ a with data := some block, count }, true)

def arrayPush (a : DynamicArray) (item : Pointer) (malloc : Malloc) : Option (DynamicArray × Bool) := do
  let (a, ready) ← if a.data.isNone then arrayInit malloc else pure (a, true)
  if !ready then pure (a, false)
  else
    let (a, room) ← if a.count ≥ a.capacity then resize a malloc else pure (a, true)
    if !room then pure (a, false) else a.append item

def arrayEnqueue (a : DynamicArray) (item : Pointer) (malloc : Malloc) : Option (DynamicArray × Bool) :=
  arrayPush a item malloc

def arrayPop (a : DynamicArray) : Option (DynamicArray × Pointer) :=
  match a.data with
  | none => pure (a, 0)
  | some block =>
    if a.count = 0 then pure (a, 0)
    else do
      let sum ← sizeT (a.head + a.count)
      let tail := if sum - 1 ≥ a.capacity then sum - 1 - a.capacity else sum - 1
      let item ← block.read tail
      pure ({ a with count := a.count - 1 }, item)

def arrayDequeue (a : DynamicArray) : Option (DynamicArray × Pointer) :=
  match a.data with
  | none => pure (a, 0)
  | some block =>
    if a.count = 0 then pure (a, 0)
    else do
      let item ← block.read a.head
      let next ← sizeT (a.head + 1)
      pure ({ a with head := if next ≥ a.capacity then 0 else next, count := a.count - 1 }, item)

def arrayFree (_ : DynamicArray) : DynamicArray := ⟨0, 0, 0, none⟩

/-! ## Runs -/

inductive ArrayCall where
  | init (malloc : Malloc)
  | push (item : Pointer) (malloc : Malloc)
  | enqueue (item : Pointer) (malloc : Malloc)
  | pop
  | dequeue
  | get (index : BitVec 64)
  | set (index : BitVec 64) (item : Pointer)
  | free

inductive ArrayResult where
  | none
  | flag (b : Bool)
  | item (x : Pointer)
deriving DecidableEq

/-- `none` if the call leaves its block or its 64 bits. -/
def arrayCall (a : DynamicArray) : ArrayCall → Option (DynamicArray × ArrayResult)
  | .init malloc => (arrayInit malloc).map fun r => (r.1, .flag r.2)
  | .push item malloc => (arrayPush a item malloc).map fun r => (r.1, .flag r.2)
  | .enqueue item malloc => (arrayEnqueue a item malloc).map fun r => (r.1, .flag r.2)
  | .pop => (arrayPop a).map fun r => (r.1, .item r.2)
  | .dequeue => (arrayDequeue a).map fun r => (r.1, .item r.2)
  | .get index => (arrayGet a index.toNat).map fun x => (a, .item x)
  | .set index item => (arraySet a index.toNat item).map fun r => (r.1, .flag r.2)
  | .free => some (arrayFree a, .none)

def arrayStep (a : DynamicArray) (c : ArrayCall) : DynamicArray := ((arrayCall a c).map Prod.fst).getD a

def arrayResult (a : DynamicArray) (c : ArrayCall) : ArrayResult := ((arrayCall a c).map Prod.snd).getD .none

abbrev ArrayHistory := List (DynamicArray × ArrayCall)

/-- The list an array stands for. -/
def DynamicArray.toList (a : DynamicArray) : List Pointer :=
  match a.data with
  | none => []
  | some block => Ring.contents block.cells a.head a.capacity a.count

/-- What an append asks `malloc` for, if it does: a first block, or one with twice the cells of a full one. -/
def appendBytes (l : List Pointer) : Nat :=
  (if l = [] then arrayInitialCapacity else l.length * arrayGrowthFactor) * pointerSize

/-- An append succeeds, or fails for want of memory or at the growth guard. -/
def appendSpec (l : List Pointer) (item : Pointer) (malloc : Malloc) (r : ArrayResult) (l' : List Pointer) : Prop :=
  (r = .flag true ∧ l' = l ++ [item]) ∨
    (r = .flag false ∧ l' = l ∧
      (malloc (appendBytes l) = none ∨ sizeMax / (arrayGrowthFactor * pointerSize) < l.length))

/-- The double-ended list. -/
def dequeSpec (l : List Pointer) : ArrayCall → ArrayResult → List Pointer → Prop
  | .init malloc, r, l' =>
    l' = [] ∧ (r = .flag true ∨ (r = .flag false ∧ malloc (arrayInitialCapacity * pointerSize) = none))
  | .push item malloc, r, l' => appendSpec l item malloc r l'
  | .enqueue item malloc, r, l' => appendSpec l item malloc r l'
  | .pop, r, l' => (l = [] ∧ r = .item 0 ∧ l' = []) ∨ ∃ x, l = l' ++ [x] ∧ r = .item x
  | .dequeue, r, l' => (l = [] ∧ r = .item 0 ∧ l' = []) ∨ ∃ x, l = x :: l' ∧ r = .item x
  | .get index, r, l' => r = .item (l[index.toNat]?.getD 0) ∧ l' = l
  | .set index item, r, l' => r = .flag (decide (index.toNat < l.length)) ∧ l' = l.set index.toNat item
  | .free, r, l' => r = .none ∧ l' = []

/-! ## The invariant -/

/-- The layout behind a non-null `data`, small enough for every index sum. -/
structure ValidBlock (a : DynamicArray) (block : Block) : Prop where
  head : a.head < a.capacity
  count : a.count ≤ a.capacity
  size : block.size = a.capacity
  fits : a.capacity * pointerSize ≤ sizeMax

def DynamicArray.Valid (a : DynamicArray) : Prop :=
  match a.data with
  | none => a.count = 0 ∧ a.capacity = 0
  | some block => ValidBlock a block

theorem sizeT_eq {n : Nat} (h : n ≤ sizeMax) : sizeT n = some n := if_pos h

section
variable {a : DynamicArray} {block : Block}

theorem ValidBlock.sum_le (hv : ValidBlock a block) {k : Nat} (hk : k ≤ a.capacity) : a.head + k ≤ sizeMax := by
  obtain ⟨hhead, -, -, hfits⟩ := hv
  unfold pointerSize at hfits
  omega

theorem ValidBlock.actualIndex (hv : ValidBlock a block) {k : Nat} (hk : k ≤ a.capacity) :
    a.actualIndex k = some (Ring.index a.head a.capacity k) := by
  rw [DynamicArray.actualIndex, sizeT_eq (hv.sum_le hk)]
  rfl

theorem ValidBlock.index_lt (hv : ValidBlock a block) {k : Nat} (hk : k < a.capacity) :
    Ring.index a.head a.capacity k < block.size := by
  rw [hv.size]
  exact Ring.index_lt hv.head hk

theorem ValidBlock.read (hv : ValidBlock a block) {k : Nat} (hk : k < a.capacity) :
    block.read (Ring.index a.head a.capacity k) = some (block.cells (Ring.index a.head a.capacity k)) :=
  if_pos (hv.index_lt hk)

theorem ValidBlock.write (hv : ValidBlock a block) {k : Nat} (hk : k < a.capacity) (x : Pointer) :
    block.write (Ring.index a.head a.capacity k) x =
      some { block with cells := Function.update block.cells (Ring.index a.head a.capacity k) x } :=
  if_pos (hv.index_lt hk)

theorem toList_of_data (hd : a.data = some block) :
    a.toList = Ring.contents block.cells a.head a.capacity a.count := by rw [DynamicArray.toList, hd]

theorem toList_of_null (hd : a.data = none) : a.toList = [] := by rw [DynamicArray.toList, hd]

theorem valid_iff (hd : a.data = some block) : a.Valid ↔ ValidBlock a block := by rw [DynamicArray.Valid, hd]

/-! ## Growth -/

/-- The copy loop after `n` iterations: the first `n` elements, in order, are in place. -/
theorem copyCells_prefix (hv : ValidBlock a block) (new : Block) {n : Nat} (hn : n ≤ a.count) (hnew : n ≤ new.size) :
    ∃ b, (List.range n).foldlM (copyCell a block) new = some b ∧ b.size = new.size ∧
      ∀ k, k < n → b.cells k = block.cells (Ring.index a.head a.capacity k) := by
  induction n with
  | zero => exact ⟨new, rfl, rfl, nofun⟩
  | succ n ih =>
    obtain ⟨b, hb, hsize, hcells⟩ := ih (by omega) (by omega)
    have hlt : n < a.capacity := by have := hv.count; omega
    refine ⟨{ b with cells := Function.update b.cells n (block.cells (Ring.index a.head a.capacity n)) }, ?_, hsize,
      fun k hk => ?_⟩
    · rw [List.range_succ, List.foldlM_append, hb]
      simp only [Option.bind_eq_bind, Option.bind_some, List.foldlM_cons, List.foldlM_nil, copyCell,
        hv.actualIndex (Nat.le_of_lt hlt), hv.read hlt]
      rw [Block.write, if_pos (by omega)]
      rfl
    · by_cases hkn : k = n
      · subst hkn; exact Function.update_self ..
      · exact (Function.update_of_ne hkn ..).trans (hcells k (by omega))

/-- `resize` on a full array grows it, or fails and changes nothing. -/
theorem resize_spec (hd : a.data = some block) (hv : ValidBlock a block) (hfull : a.capacity ≤ a.count) (malloc : Malloc) :
    (resize a malloc = some (a, false) ∧
      (malloc (a.capacity * arrayGrowthFactor * pointerSize) = none ∨
        sizeMax / (arrayGrowthFactor * pointerSize) < a.count)) ∨
    ∃ a' block', resize a malloc = some (a', true) ∧ a'.data = some block' ∧ ValidBlock a' block' ∧
      a'.count < a'.capacity ∧ a'.toList = a.toList := by
  have hcap : 0 < a.capacity := Nat.lt_of_le_of_lt (Nat.zero_le _) hv.head
  unfold resize
  rw [if_neg (by omega)]
  by_cases hguard : a.capacity > sizeMax / (arrayGrowthFactor * pointerSize)
  · rw [if_pos hguard]
    exact Or.inl ⟨rfl, Or.inr (by omega)⟩
  · rw [if_neg hguard]
    have hbytes : a.capacity * arrayGrowthFactor * pointerSize ≤ sizeMax := by
      simp only [arrayGrowthFactor, pointerSize, sizeMax] at hguard ⊢
      omega
    rw [sizeT_eq (by simp only [pointerSize] at hbytes; omega)]
    simp only [Option.bind_eq_bind, Option.bind_some, sizeT_eq hbytes, Malloc.block]
    cases hm : malloc (a.capacity * arrayGrowthFactor * pointerSize) with
    | none => exact Or.inl ⟨rfl, Or.inl rfl⟩
    | some cells =>
      right
      have hsize : a.capacity * arrayGrowthFactor * pointerSize / pointerSize = a.capacity * arrayGrowthFactor :=
        Nat.mul_div_cancel _ (by decide)
      have hroom : a.count ≤ a.capacity * arrayGrowthFactor := by
        have := hv.count
        simp only [arrayGrowthFactor]
        omega
      obtain ⟨b, hb, hbsize, hcells⟩ := copyCells_prefix hv ⟨_, cells⟩ (Nat.le_refl _) (hsize.symm ▸ hroom)
      refine ⟨{ a with data := some b, capacity := a.capacity * arrayGrowthFactor, head := 0 }, b, ?_, rfl,
        ⟨?_, hroom, hbsize.trans hsize, hbytes⟩, ?_, ?_⟩
      · simp only [Option.map_some, hd, copyCells, Option.bind_some, hb]
        rfl
      · simp only [arrayGrowthFactor]
        omega
      · simp only [arrayGrowthFactor]
        have := hv.count
        omega
      · rw [toList_of_data hd, toList_of_data rfl]
        exact Ring.contents_linear hroom hcells

/-! ## One lemma per call -/

theorem append_spec (hd : a.data = some block) (hv : ValidBlock a block) (hroom : a.count < a.capacity) (item : Pointer) :
    ∃ a', a.append item = some (a', true) ∧ a'.Valid ∧ a'.toList = a.toList ++ [item] := by
  have hcount : a.count + 1 ≤ sizeMax := by
    have := hv.fits
    simp only [pointerSize] at this
    omega
  refine ⟨{ a with
    data := some { block with cells := Function.update block.cells (Ring.index a.head a.capacity a.count) item }
    count := a.count + 1 }, ?_, ?_, ?_⟩
  · rw [DynamicArray.append, hv.actualIndex (Nat.le_of_lt hroom)]
    simp only [Option.bind_eq_bind, Option.bind_some, hd, hv.write hroom, sizeT_eq hcount]
    rfl
  · exact ⟨hv.head, hroom, hv.size, hv.fits⟩
  · rw [toList_of_data hd, toList_of_data rfl]
    exact Ring.contents_append hroom item

theorem arrayInit_spec (malloc : Malloc) :
    (arrayInit malloc = some (⟨0, 0, 0, none⟩, false) ∧ malloc (arrayInitialCapacity * pointerSize) = none) ∨
    ∃ block, arrayInit malloc = some (⟨0, 0, arrayInitialCapacity, some block⟩, true) ∧
      ValidBlock ⟨0, 0, arrayInitialCapacity, some block⟩ block := by
  unfold arrayInit
  rw [sizeT_eq (by decide)]
  simp only [Option.bind_eq_bind, Option.bind_some, Malloc.block]
  cases hm : malloc (arrayInitialCapacity * pointerSize) with
  | none => exact Or.inl ⟨rfl, rfl⟩
  | some cells =>
    have hfits : arrayInitialCapacity * pointerSize ≤ sizeMax := by decide
    exact Or.inr ⟨_, rfl, by simp [arrayInitialCapacity], Nat.zero_le _, rfl, hfits⟩

theorem arrayPush_spec (hv : a.Valid) (item : Pointer) (malloc : Malloc) :
    ∃ a' b, arrayPush a item malloc = some (a', b) ∧ a'.Valid ∧ appendSpec a.toList item malloc (.flag b) a'.toList := by
  -- with a block there is room already, or the array has to grow
  have hpush : ∀ (a : DynamicArray) (block : Block), a.data = some block → ValidBlock a block →
      ∃ a' b, (do
        let (a, room) ← if a.count ≥ a.capacity then resize a malloc else pure (a, true)
        if !room then pure (a, false) else a.append item) = some (a', b) ∧ a'.Valid ∧
        appendSpec a.toList item malloc (.flag b) a'.toList := by
    intro a block hd hv
    by_cases hfull : a.count ≥ a.capacity
    · rw [if_pos hfull]
      rcases resize_spec hd hv hfull malloc with ⟨heq, hwhy⟩ | ⟨a', block', heq, hd', hv', hroom, hsame⟩
      · refine ⟨a, false, by rw [heq]; rfl, (valid_iff hd).2 hv, Or.inr ⟨rfl, rfl, ?_⟩⟩
        -- a full array, so the list has as many items as there are cells
        have hcount : a.count = a.capacity := Nat.le_antisymm hv.count hfull
        have hlength : a.toList.length = a.capacity := by rw [toList_of_data hd, Ring.contents_length, hcount]
        have hbytes : appendBytes a.toList = a.capacity * arrayGrowthFactor * pointerSize := by
          have hne : a.toList ≠ [] := fun hnil => by
            rw [hnil, List.length_nil] at hlength
            exact Nat.not_lt_zero _ (hlength ▸ hv.head)
          rw [appendBytes, if_neg hne, hlength]
        rw [hcount] at hwhy
        rw [hbytes, hlength]
        exact hwhy
      · obtain ⟨a'', happ, hv'', hlist⟩ := append_spec hd' hv' hroom item
        exact ⟨a'', true, by rw [heq]; exact happ, hv'', Or.inl ⟨rfl, hsame ▸ hlist⟩⟩
    · rw [if_neg hfull]
      obtain ⟨a', happ, hv', hlist⟩ := append_spec hd hv (by omega) item
      exact ⟨a', true, happ, hv', Or.inl ⟨rfl, hlist⟩⟩
  unfold arrayPush
  cases hd : a.data with
  | some block => exact hpush a block hd ((valid_iff hd).1 hv)
  | none =>
    rw [toList_of_null hd]
    rcases arrayInit_spec malloc with ⟨heq, hwhy⟩ | ⟨block, heq, hvb⟩
    · refine ⟨⟨0, 0, 0, none⟩, false, ?_, ⟨rfl, rfl⟩, Or.inr ⟨rfl, rfl, Or.inl hwhy⟩⟩
      simp only [Option.isNone_none, if_true, heq]
      rfl
    · obtain ⟨a', b, hpush', hv', hspec⟩ := hpush _ block rfl hvb
      refine ⟨a', b, ?_, hv', ?_⟩
      · simp only [Option.isNone_none, if_true, heq]
        exact hpush'
      · simpa [toList_of_data, Ring.contents] using hspec

theorem arrayPop_spec (hv : a.Valid) :
    ∃ a' x, arrayPop a = some (a', x) ∧ a'.Valid ∧ dequeSpec a.toList .pop (.item x) a'.toList := by
  unfold arrayPop
  cases hd : a.data with
  | none => exact ⟨a, 0, rfl, hv, Or.inl ⟨toList_of_null hd, rfl, toList_of_null hd⟩⟩
  | some block =>
    have hvb := (valid_iff hd).1 hv
    by_cases h0 : a.count = 0
    · have hnil : a.toList = [] := by
        rw [toList_of_data hd, h0]
        rfl
      exact ⟨a, 0, by simp [h0], hv, Or.inl ⟨hnil, rfl, hnil⟩⟩
    · obtain ⟨n, hn⟩ := Nat.exists_eq_succ_of_ne_zero h0
      have hlt : n < a.capacity := by have := hvb.count; omega
      refine ⟨⟨a.head, n, a.capacity, some block⟩, block.cells (Ring.index a.head a.capacity n), ?_,
        ⟨hvb.head, Nat.le_of_lt hlt, hvb.size, hvb.fits⟩, Or.inr ⟨_, ?_, rfl⟩⟩
      · have hsum : a.head + a.count - 1 = a.head + n := by omega
        dsimp only
        rw [if_neg h0, sizeT_eq (hvb.sum_le hvb.count)]
        simp only [Option.bind_eq_bind, Option.bind_some, hsum]
        rw [show (if a.head + n ≥ a.capacity then a.head + n - a.capacity else a.head + n) =
          Ring.index a.head a.capacity n from rfl, hvb.read hlt, hn]
        rfl
      · rw [toList_of_data hd, toList_of_data rfl, hn]
        exact Ring.contents_succ

theorem arrayDequeue_spec (hv : a.Valid) :
    ∃ a' x, arrayDequeue a = some (a', x) ∧ a'.Valid ∧ dequeSpec a.toList .dequeue (.item x) a'.toList := by
  unfold arrayDequeue
  cases hd : a.data with
  | none => exact ⟨a, 0, rfl, hv, Or.inl ⟨toList_of_null hd, rfl, toList_of_null hd⟩⟩
  | some block =>
    have hvb := (valid_iff hd).1 hv
    by_cases h0 : a.count = 0
    · have hnil : a.toList = [] := by
        rw [toList_of_data hd, h0]
        rfl
      exact ⟨a, 0, by simp [h0], hv, Or.inl ⟨hnil, rfl, hnil⟩⟩
    · obtain ⟨n, hn⟩ := Nat.exists_eq_succ_of_ne_zero h0
      have hlt : n < a.capacity := by have := hvb.count; omega
      have hcap : 0 < a.capacity := by omega
      -- the next head is the cell of element 1
      have hnext : (if a.head + 1 ≥ a.capacity then 0 else a.head + 1) = Ring.index a.head a.capacity 1 := by
        have := hvb.head
        unfold Ring.index
        split <;> omega
      refine ⟨⟨Ring.index a.head a.capacity 1, n, a.capacity, some block⟩, block.cells a.head, ?_,
        ⟨?_, Nat.le_of_lt hlt, hvb.size, hvb.fits⟩, Or.inr ⟨_, ?_, rfl⟩⟩
      · have hread : block.read a.head = some (block.cells a.head) := if_pos (by rw [hvb.size]; exact hvb.head)
        dsimp only
        rw [if_neg h0, hread, sizeT_eq (hvb.sum_le hcap)]
        simp only [Option.bind_eq_bind, Option.bind_some, hnext, hn]
        rfl
      · show Ring.index a.head a.capacity 1 < a.capacity
        rw [← hnext]
        split <;> omega
      · rw [toList_of_data hd, toList_of_data rfl, hn]
        exact Ring.contents_next hvb.head hlt

theorem arrayGet_spec (hv : a.Valid) (k : Nat) : arrayGet a k = some (a.toList[k]?.getD 0) := by
  unfold arrayGet
  cases hd : a.data with
  | none => rw [toList_of_null hd]; rfl
  | some block =>
    have hvb := (valid_iff hd).1 hv
    rw [toList_of_data hd]
    dsimp only
    by_cases hk : k ≥ a.count
    · rw [if_pos hk, List.getElem?_eq_none (by rw [Ring.contents_length]; exact hk)]
      rfl
    · have hlt : k < a.capacity := by have := hvb.count; omega
      rw [if_neg hk, hvb.actualIndex (Nat.le_of_lt hlt), Ring.contents_getElem? (by omega)]
      exact hvb.read hlt

theorem arraySet_spec (hv : a.Valid) (k : Nat) (item : Pointer) :
    ∃ a', arraySet a k item = some (a', decide (k < a.toList.length)) ∧ a'.Valid ∧ a'.toList = a.toList.set k item := by
  unfold arraySet
  cases hd : a.data with
  | none => exact ⟨a, by rw [toList_of_null hd]; rfl, hv, by rw [toList_of_null hd]; rfl⟩
  | some block =>
    have hvb := (valid_iff hd).1 hv
    have hlist := toList_of_data hd
    have hlen : a.toList.length = a.count := by rw [hlist, Ring.contents_length]
    dsimp only
    by_cases hk : k ≥ a.count
    · refine ⟨a, ?_, hv, ?_⟩
      · rw [if_pos hk, hlen, decide_eq_false (by omega)]
        rfl
      · rw [List.set_eq_of_length_le (by omega)]
    · have hlt : k < a.capacity := by have := hvb.count; omega
      refine ⟨{ a with data := some { block with
        cells := Function.update block.cells (Ring.index a.head a.capacity k) item } }, ?_, ?_, ?_⟩
      · rw [if_neg hk, hvb.actualIndex (Nat.le_of_lt hlt), hlen, decide_eq_true (by omega)]
        simp only [Option.bind_eq_bind, Option.bind_some, hvb.write hlt]
        rfl
      · exact ⟨hvb.head, hvb.count, hvb.size, hvb.fits⟩
      · rw [hlist, toList_of_data rfl]
        exact Ring.contents_set hvb.count (by omega) item

end

/-! ## Every run -/

/-- From a valid array no call faults, and each is a step of the double-ended list. -/
theorem arrayCall_spec {a : DynamicArray} (hv : a.Valid) (c : ArrayCall) :
    ∃ a' r, arrayCall a c = some (a', r) ∧ a'.Valid ∧ dequeSpec a.toList c r a'.toList := by
  cases c with
  | init malloc =>
    rcases arrayInit_spec malloc with ⟨heq, hwhy⟩ | ⟨block, heq, hvb⟩
    · exact ⟨⟨0, 0, 0, none⟩, .flag false, by rw [arrayCall, heq]; rfl, ⟨rfl, rfl⟩, rfl, Or.inr ⟨rfl, hwhy⟩⟩
    · exact ⟨⟨0, 0, arrayInitialCapacity, some block⟩, .flag true, by rw [arrayCall, heq]; rfl, hvb, rfl, Or.inl rfl⟩
  | push item malloc =>
    obtain ⟨a', b, heq, hv', hspec⟩ := arrayPush_spec hv item malloc
    exact ⟨a', .flag b, by rw [arrayCall, heq]; rfl, hv', hspec⟩
  | enqueue item malloc =>
    obtain ⟨a', b, heq, hv', hspec⟩ := arrayPush_spec hv item malloc
    exact ⟨a', .flag b, by rw [arrayCall, arrayEnqueue, heq]; rfl, hv', hspec⟩
  | pop =>
    obtain ⟨a', x, heq, hv', hspec⟩ := arrayPop_spec hv
    exact ⟨a', .item x, by rw [arrayCall, heq]; rfl, hv', hspec⟩
  | dequeue =>
    obtain ⟨a', x, heq, hv', hspec⟩ := arrayDequeue_spec hv
    exact ⟨a', .item x, by rw [arrayCall, heq]; rfl, hv', hspec⟩
  | get index => exact ⟨a, _, by rw [arrayCall, arrayGet_spec hv]; rfl, hv, rfl, rfl⟩
  | set index item =>
    obtain ⟨a', heq, hv', hlist⟩ := arraySet_spec hv index.toNat item
    exact ⟨a', _, by rw [arrayCall, heq]; rfl, hv', rfl, hlist⟩
  | free => exact ⟨_, _, rfl, ⟨rfl, rfl⟩, rfl, rfl⟩

theorem DynamicArray.Valid.step {a : DynamicArray} (hv : a.Valid) (c : ArrayCall) :
    (arrayStep a c).Valid ∧ dequeSpec a.toList c (arrayResult a c) (arrayStep a c).toList := by
  obtain ⟨a', r, heq, hv', hspec⟩ := arrayCall_spec hv c
  simp only [arrayStep, arrayResult, heq, Option.map_some, Option.getD_some]
  exact ⟨hv', hspec⟩

/-- The states an array starts in: freed, or initialised with a block of any contents. -/
def arrayFreed : DynamicArray := ⟨0, 0, 0, none⟩

def arrayInitialised (cells : Nat → Pointer) : DynamicArray :=
  ⟨0, 0, arrayInitialCapacity, some ⟨arrayInitialCapacity, cells⟩⟩

/-- **The dynamic array is a double-ended list**: in every run of calls from a freed or freshly
initialised array, whatever `malloc` answers, the results are those of the list the array
stands for, `head` and `count` stay within the capacity, and no call indexes outside its block
or computes a size that overflows. -/
theorem dynamic_array_refines_deque {a₀ a : DynamicArray} {h : ArrayHistory}
    (h0 : a₀ = arrayFreed ∨ ∃ cells, a₀ = arrayInitialised cells) (r : Run anyStep arrayStep a₀ h a) :
    SpecRun dequeSpec [] (h.map fun p => (p.2, arrayResult p.1 p.2)) a.toList ∧
      (a.data ≠ none → a.head < a.capacity) ∧ a.count ≤ a.capacity ∧ ∀ c, arrayCall a c ≠ none := by
  have hstart : a₀.Valid ∧ a₀.toList = [] := by
    rcases h0 with rfl | ⟨cells, rfl⟩
    · exact ⟨⟨rfl, rfl⟩, rfl⟩
    · have hfits : arrayInitialCapacity * pointerSize ≤ sizeMax := by decide
      exact ⟨⟨Nat.succ_pos 3, Nat.zero_le _, rfl, hfits⟩, rfl⟩
  have hv : a.Valid := r.invariant hstart.1 fun _ c _ hv => (hv.step c).1
  refine ⟨hstart.2 ▸ r.refines hstart.1 (fun _ c _ hv => (hv.step c).1) fun _ c _ hv => (hv.step c).2,
    fun hd => ?_, ?_, fun c => ?_⟩
  · obtain ⟨block, hb⟩ := Option.ne_none_iff_exists'.1 hd
    exact ((valid_iff hb).1 hv).head
  · cases hd : a.data with
    | none =>
      rw [DynamicArray.Valid, hd] at hv
      omega
    | some block => exact ((valid_iff hd).1 hv).count
  · obtain ⟨a', r', heq, -⟩ := arrayCall_spec hv c
    simp [heq]

/-- The wrap-around and growth of `dynamic_array_unit.c`: five elements enqueued after two were taken
from the front, the fifth growing the block. -/
def growthCalls : List ArrayCall :=
  [.enqueue 1 fun _ => some fun _ => 0, .enqueue 2 fun _ => some fun _ => 0, .enqueue 3 fun _ => some fun _ => 0, .dequeue,
    .dequeue, .enqueue 4 fun _ => some fun _ => 0, .enqueue 5 fun _ => some fun _ => 0, .push 6 fun _ => some fun _ => 0,
    .push 7 fun _ => some fun _ => 0]

theorem dynamic_array_refines_deque_growth :
    (traceFrom arrayStep [] arrayFreed growthCalls).2.toList = [3, 4, 5, 6, 7] ∧
      (traceFrom arrayStep [] arrayFreed growthCalls).2.head < (traceFrom arrayStep [] arrayFreed growthCalls).2.capacity := by
  have r : Run anyStep arrayStep arrayFreed _ _ := Run.start.trace (admits_anyStep _ growthCalls)
  exact ⟨by decide +kernel, (dynamic_array_refines_deque (Or.inl rfl) r).2.1 (by
    intro hn
    exact absurd (congrArg Option.isSome hn) (by decide +kernel))⟩

end Lettuce
