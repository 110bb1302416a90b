import Mathlib.Logic.Function.Basic
import Mathlib.Data.List.Perm.Basic
/-!
# Insertion sort in place, and the ranks of a sorted array

An array is a function on indices, of which the first `n` count. `insertAt key j a` is the inner loop: cell `j` is free, and
larger cells move up until the key fits. `insertionRounds` performs the rounds of the outer loop.

In a sorted array the cell at rank `i` has `i + 1` cells at or below it, and at most `i` below it.
-/

namespace InsertionSort

variable {α : Type}

/-- The first `n` cells. -/
def cells (a : Nat → α) (n : Nat) : List α := (List.range n).map a

section
variable {a : Nat → α} {j n : Nat}

theorem cells_succ (a : Nat → α) (n : Nat) : cells a (n + 1) = cells a n ++ [a n] := by
  rw [cells, List.range_succ, List.map_append, cells, List.map_singleton]

theorem length_cells (a : Nat → α) (n : Nat) : (cells a n).length = n := by
  rw [cells, List.length_map, List.length_range]

theorem cells_congr {a' : Nat → α} (h : ∀ i, i < n → a i = a' i) : cells a n = cells a' n :=
  List.map_congr_left fun i hi => h i (List.mem_range.1 hi)

theorem cells_update (a : Nat → α) (v : α) (h : n ≤ j) : cells (Function.update a j v) n = cells a n :=
  cells_congr fun i hi => Function.update_of_ne (by omega) _ _

/-- The cells below `i`, the cell `i` and those above. -/
theorem cells_split (a : Nat → α) (i m : Nat) : cells a (i + (m + 1)) = cells a i ++ a i :: cells (fun k => a (i + (k + 1))) m := by
  rw [cells, List.range_add, List.map_append, List.range_succ_eq_map, List.map_cons, List.map_map, List.map_cons, List.map_map]
  rfl

end

variable [LT α] [DecidableLT α]

/-- `while (j > 0 && a[j - 1] > key)`, and the store behind it. -/
def insertAt (key : α) : Nat → (Nat → α) → (Nat → α)
  | 0, a => Function.update a 0 key
  | j + 1, a => if a j > key then insertAt key j (Function.update a (j + 1) (a j)) else Function.update a (j + 1) key

/-- The rounds for the cells 1, ..., `k`. -/
def insertionRounds (a : Nat → α) : Nat → (Nat → α)
  | 0 => a
  | k + 1 => insertAt (insertionRounds a k (k + 1)) (k + 1) (insertionRounds a k)

section
variable {a : Nat → α} {key : α} {j n : Nat}

theorem insertAt_of_gt {i : Nat} (h : j < i) : insertAt key j a i = a i := by
  induction j generalizing a with
  | zero => exact Function.update_of_ne (by omega) _ _
  | succ j ih =>
    rw [insertAt]
    split
    · rw [ih (by omega), Function.update_of_ne (by omega)]
    · exact Function.update_of_ne (by omega) _ _

/-- The key replaces what was in the free cell. -/
theorem insertAt_perm : (cells (insertAt key j a) (j + 1)).Perm (key :: cells a j) := by
  induction j generalizing a with
  | zero => exact List.Perm.refl _
  | succ j ih =>
    rw [insertAt]
    split
    · have hlast : insertAt key j (Function.update a (j + 1) (a j)) (j + 1) = a j := by
        rw [insertAt_of_gt (Nat.lt_succ_self j), Function.update_self]
      have hcells : cells (Function.update a (j + 1) (a j)) j = cells a j := cells_update a _ (Nat.le_succ j)
      have hih := ih (a := Function.update a (j + 1) (a j))
      rw [hcells] at hih
      rw [cells_succ, hlast, cells_succ a j]
      exact hih.append_right [a j]
    · have hlast : Function.update a (j + 1) key (j + 1) = key := Function.update_self ..
      rw [cells_succ, hlast, cells_update a key (Nat.le_refl _)]
      exact List.perm_append_comm

variable [LE α] [Std.IsLinearOrder α] [Std.LawfulOrderLT α]

theorem insertAt_sorted (h : (cells a j).Pairwise (· ≤ ·)) : (cells (insertAt key j a) (j + 1)).Pairwise (· ≤ ·) := by
  induction j generalizing a with
  | zero => exact List.pairwise_singleton _ _
  | succ j ih =>
    rw [cells_succ, List.pairwise_append] at h
    obtain ⟨hbefore, -, hle⟩ := h
    have htop : ∀ v ∈ cells a j, v ≤ a j := fun v hv => hle v hv (a j) (List.mem_singleton_self _)
    rw [insertAt]
    split
    · next hgt =>
      -- the cell above the key is the largest of them all
      have hlast : insertAt key j (Function.update a (j + 1) (a j)) (j + 1) = a j := by
        rw [insertAt_of_gt (Nat.lt_succ_self j), Function.update_self]
      have hcells : cells (Function.update a (j + 1) (a j)) j = cells a j := cells_update a _ (Nat.le_succ j)
      rw [cells_succ, hlast, List.pairwise_append]
      refine ⟨ih (by rwa [hcells]), List.pairwise_singleton _ _, fun v hv w hw => ?_⟩
      obtain rfl := List.mem_singleton.1 hw
      have hv := insertAt_perm.mem_iff.1 hv
      rw [hcells, List.mem_cons] at hv
      rcases hv with rfl | hv
      · exact Std.le_of_lt hgt
      · exact htop v hv
    · next hle' =>
      have hlast : Function.update a (j + 1) key (j + 1) = key := Function.update_self ..
      have hkey : a j ≤ key := Std.not_lt.1 hle'
      rw [cells_succ, hlast, cells_update a key (Nat.le_refl _), cells_succ, List.pairwise_append, List.pairwise_append]
      refine ⟨⟨hbefore, List.pairwise_singleton _ _, fun v hv w hw => ?_⟩, List.pairwise_singleton _ _, fun v hv w hw => ?_⟩
      · obtain rfl := List.mem_singleton.1 hw
        exact htop v hv
      · obtain rfl := List.mem_singleton.1 hw
        rcases List.mem_append.1 hv with hv | hv
        · exact Std.le_trans (htop v hv) hkey
        · obtain rfl := List.mem_singleton.1 hv
          exact hkey

/-- `k` rounds sort the first `k + 1` cells and touch no other. -/
theorem insertionRounds_spec (a : Nat → α) (k : Nat) :
    (cells (insertionRounds a k) (k + 1)).Pairwise (· ≤ ·) ∧ (cells (insertionRounds a k) (k + 1)).Perm (cells a (k + 1)) ∧
      ∀ i, k < i → insertionRounds a k i = a i := by
  induction k with
  | zero => exact ⟨List.pairwise_singleton _ _, List.Perm.refl _, fun _ _ => rfl⟩
  | succ k ih =>
    obtain ⟨hsorted, hperm, hrest⟩ := ih
    refine ⟨insertAt_sorted hsorted, ?_, fun i hi => ?_⟩
    · have hnext := hrest (k + 1) (Nat.lt_succ_self k)
      calc (cells (insertionRounds a (k + 1)) (k + 1 + 1)).Perm (insertionRounds a k (k + 1) :: cells (insertionRounds a k) (k + 1)) :=
            insertAt_perm
        List.Perm _ (insertionRounds a k (k + 1) :: cells a (k + 1)) := hperm.cons _
        List.Perm _ (cells a (k + 1) ++ [a (k + 1)]) := by
          rw [hnext]
          exact (List.perm_append_singleton _ _).symm
        _ = cells a (k + 1 + 1) := (cells_succ a (k + 1)).symm
    · rw [insertionRounds, insertAt_of_gt (by omega), hrest i (by omega)]

end

variable [LE α] [DecidableLE α]

/-- `v` has rank `i` among `l`: more than `i` elements are at most `v`, and no more than `i` are less. -/
structure HasRank (l : List α) (i : Nat) (v : α) : Prop where
  mem : v ∈ l
  atMost : i < l.countP (· ≤ v)
  less : l.countP (· < v) ≤ i

instance [DecidableEq α] {l : List α} {i : Nat} {v : α} : Decidable (HasRank l i v) :=
  decidable_of_iff (v ∈ l ∧ i < l.countP (· ≤ v) ∧ l.countP (· < v) ≤ i)
    ⟨fun h => ⟨h.1, h.2.1, h.2.2⟩, fun h => ⟨h.mem, h.atMost, h.less⟩⟩

theorem HasRank.perm {l l' : List α} {i : Nat} {v : α} (h : HasRank l i v) (hl : l.Perm l') : HasRank l' i v :=
  ⟨hl.mem_iff.1 h.mem, by rw [← hl.countP_eq]; exact h.atMost, by rw [← hl.countP_eq]; exact h.less⟩

variable [Std.IsLinearOrder α] [Std.LawfulOrderLT α]

/-- Ranks tell elements apart. -/
theorem HasRank.unique {l : List α} {i : Nat} {v w : α} (hv : HasRank l i v) (hw : HasRank l i w) : v = w := by
  have hnot : ∀ {v w : α}, HasRank l i v → HasRank l i w → ¬ v < w := by
    intro v w hv hw hlt
    -- all that is at most `v` is less than `w`
    have hle : l.countP (· ≤ v) ≤ l.countP (· < w) := List.countP_mono_left fun u _ hu => by
      simp only [decide_eq_true_eq] at hu ⊢
      exact Std.lt_of_le_of_lt hu hlt
    have := hv.atMost
    have := hw.less
    omega
  exact Std.le_antisymm (Std.not_lt.1 (hnot hw hv)) (Std.not_lt.1 (hnot hv hw))

/-- The cell at index `i` of a sorted array has rank `i`. -/
theorem hasRank_of_sorted {a : Nat → α} {n i : Nat} (h : (cells a n).Pairwise (· ≤ ·)) (hi : i < n) : HasRank (cells a n) i (a i) := by
  obtain ⟨m, rfl⟩ : ∃ m, n = i + (m + 1) := ⟨n - i - 1, by omega⟩
  rw [cells_split] at h ⊢
  rw [List.pairwise_append, List.pairwise_cons] at h
  obtain ⟨-, ⟨hafter, -⟩, hbefore⟩ := h
  have hlength := length_cells a i
  have hbelow : ∀ v ∈ cells a i, v ≤ a i := fun v hv => hbefore v hv _ (List.mem_cons_self ..)
  refine ⟨List.mem_append_right _ (List.mem_cons_self ..), ?_, ?_⟩
  · have hall : (cells a i).countP (· ≤ a i) = (cells a i).length :=
      List.countP_eq_length.2 fun v hv => decide_eq_true (hbelow v hv)
    have hself : 0 < (a i :: cells (fun k => a (i + (k + 1))) m).countP (· ≤ a i) :=
      List.countP_pos_iff.2 ⟨a i, List.mem_cons_self .., decide_eq_true (Std.le_refl (a i))⟩
    rw [List.countP_append, hall]
    omega
  · have hnone : (a i :: cells (fun k => a (i + (k + 1))) m).countP (· < a i) = 0 := by
      refine List.countP_eq_zero.2 fun v hv => ?_
      simp only [decide_eq_true_eq, Std.not_lt]
      rcases List.mem_cons.1 hv with rfl | hv
      · exact Std.le_refl _
      · exact hafter v hv
    have hle : (cells a i).countP (· < a i) ≤ (cells a i).length := List.countP_le_length
    rw [List.countP_append, hnone]
    omega

end InsertionSort
