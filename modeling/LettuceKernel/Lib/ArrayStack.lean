import Mathlib.Logic.Function.Basic
import Mathlib.Data.List.Nodup
/-!
# A stack kept in an array and a counter

`cells` is the array, `count` the number of live cells; `push` writes `cells[count++]`, `pop`
is `--count` and `top` reads `cells[count - 1]`. Popping leaves the old cell in place, as
the code that uses such a stack does. Capacity is the caller's check.
-/

/-- An array-backed stack. -/
structure ArrayStack (α : Type) where
  cells : Nat → α
  count : Nat

namespace ArrayStack

variable {α : Type}

def push (s : ArrayStack α) (x : α) : ArrayStack α :=
  { cells := Function.update s.cells s.count x, count := s.count + 1 }

def pop (s : ArrayStack α) : ArrayStack α := { s with count := s.count - 1 }

def top (s : ArrayStack α) : α := s.cells (s.count - 1)

/-- The live cells, bottom first. -/
def toList (s : ArrayStack α) : List α := (List.range s.count).map s.cells

@[simp] theorem push_count (s : ArrayStack α) (x : α) : (s.push x).count = s.count + 1 := rfl

@[simp] theorem pop_count (s : ArrayStack α) : s.pop.count = s.count - 1 := rfl

@[simp] theorem pop_cells (s : ArrayStack α) : s.pop.cells = s.cells := rfl

@[simp] theorem top_push (s : ArrayStack α) (x : α) : (s.push x).top = x := by
  simp [top, push]

/-- A push leaves every cell below the counter alone. -/
theorem push_cells_of_lt (s : ArrayStack α) (x : α) {i : Nat} (hi : i < s.count) :
    (s.push x).cells i = s.cells i := by
  simp [push, Function.update_of_ne (Nat.ne_of_lt hi)]

theorem mem_toList {s : ArrayStack α} {x : α} : x ∈ s.toList ↔ ∃ i < s.count, s.cells i = x := by
  simp [toList]

theorem toList_push (s : ArrayStack α) (x : α) : (s.push x).toList = s.toList ++ [x] := by
  have hlow : (List.range s.count).map (s.push x).cells = s.toList :=
    List.map_congr_left fun i hi => push_cells_of_lt s x (List.mem_range.1 hi)
  simp only [toList, push_count, List.range_succ, List.map_append, List.map_cons, List.map_nil]
  rw [hlow]
  simp [toList, push]

theorem toList_eq_pop {s : ArrayStack α} (hs : 0 < s.count) : s.toList = s.pop.toList ++ [s.top] := by
  obtain ⟨n, hn⟩ : ∃ n, s.count = n + 1 := ⟨s.count - 1, by omega⟩
  simp [toList, top, hn, List.range_succ]

end ArrayStack
