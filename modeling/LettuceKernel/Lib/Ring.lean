import Mathlib.Logic.Function.Basic
import Mathlib.Data.List.Basic
/-!
# Circular layouts

`count` elements lie in `cap` cells from `head` on, wrapping at the end. The cell of element
`k` is found with one conditional subtraction, as code does that keeps `head < cap`;
`contents` reads the elements in order. One lemma for each way of changing them.
-/

namespace Ring

variable {α : Type}

/-- The cell of element `k`. -/
def index (head cap k : Nat) : Nat := if head + k ≥ cap then head + k - cap else head + k

def contents (cells : Nat → α) (head cap count : Nat) : List α :=
  (List.range count).map fun k => cells (index head cap k)

section
variable {cells : Nat → α} {head cap count k : Nat}

theorem index_lt (hhead : head < cap) (hk : k < cap) : index head cap k < cap := by
  unfold index
  split <;> omega

theorem index_inj {k' : Nat} (hk : k < cap) (hk' : k' < cap) (h : index head cap k = index head cap k') : k = k' := by
  unfold index at h
  split at h <;> split at h <;> omega

theorem index_zero (hhead : head < cap) : index head cap 0 = head := by
  unfold index
  rw [if_neg (by omega)]
  rfl

/-- From the next head on, everything is one element closer. -/
theorem index_next (hhead : head < cap) (hk : k < cap) :
    index (index head cap 1) cap k = index head cap (k + 1) := by
  unfold index
  split <;> split <;> split <;> omega

@[simp] theorem contents_length : (contents cells head cap count).length = count := by simp [contents]

theorem contents_getElem? (hk : k < count) : (contents cells head cap count)[k]? = some (cells (index head cap k)) := by
  rw [contents, List.getElem?_map, List.getElem?_range hk, Option.map_some]

/-- The last element. -/
theorem contents_succ : contents cells head cap (count + 1) =
    contents cells head cap count ++ [cells (index head cap count)] := by
  simp [contents, List.range_succ]

/-- The first element. -/
theorem contents_next (hhead : head < cap) (hcount : count < cap) : contents cells head cap (count + 1) =
    cells head :: contents cells (index head cap 1) cap count := by
  unfold contents
  rw [List.range_succ_eq_map, List.map_cons, List.map_map, index_zero hhead]
  congr 1
  apply List.map_congr_left
  intro k hk
  rw [List.mem_range] at hk
  rw [index_next hhead (by omega)]
  rfl

/-- Writing the cell behind the last element appends. -/
theorem contents_append (hcount : count < cap) (x : α) :
    contents (Function.update cells (index head cap count) x) head cap (count + 1) =
      contents cells head cap count ++ [x] := by
  rw [contents_succ, Function.update_self]
  congr 1
  apply List.map_congr_left
  intro k hk
  rw [List.mem_range] at hk
  rw [Function.update_of_ne]
  intro he
  have := index_inj (by omega) hcount he
  omega

/-- Writing the cell of element `k` replaces it. -/
theorem contents_set (hcount : count ≤ cap) (hk : k < count) (x : α) :
    contents (Function.update cells (index head cap k) x) head cap count = (contents cells head cap count).set k x := by
  apply List.ext_getElem?
  intro j
  rw [List.getElem?_set]
  by_cases hj : j < count
  · rw [contents_getElem? hj, contents_getElem? hj]
    by_cases hjk : k = j
    · subst hjk
      rw [if_pos rfl, if_pos (by simpa using hj), Function.update_self]
    · rw [if_neg hjk, Function.update_of_ne]
      intro he
      exact hjk (index_inj (by omega) (by omega) he).symm
  · have hnone : ∀ cells' : Nat → α, (contents cells' head cap count)[j]? = none := fun cells' => by
      rw [List.getElem?_eq_none]
      rw [contents_length]
      omega
    rw [hnone, hnone, if_neg (by omega)]

/-- A copy of the elements to the first cells of a larger block has the same contents. -/
theorem contents_linear {cells' : Nat → α} {cap' : Nat} (hcap : count ≤ cap')
    (hcopy : ∀ k, k < count → cells' k = cells (index head cap k)) :
    contents cells' 0 cap' count = contents cells head cap count := by
  apply List.map_congr_left
  intro k hk
  rw [List.mem_range] at hk
  rw [← hcopy k hk, index, if_neg (by omega), Nat.zero_add]

end

end Ring
