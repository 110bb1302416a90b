import Mathlib.Logic.Function.Basic
import Mathlib.Data.List.FinRange
/-!
# Loops that rewrite a table slot by slot

A loop over the indices of a table whose iteration `k` reads and writes entry `k` only is a
pointwise map. A loop that does more is followed by an invariant over the indices seen.
-/

namespace TableFold

variable {n : Nat} {α : Type}

theorem foldl_update (f : Fin n → α → α) (l : List (Fin n)) (hl : l.Nodup) (t : Fin n → α) (i : Fin n) :
    l.foldl (fun t k => Function.update t k (f k (t k))) t i = if i ∈ l then f i (t i) else t i := by
  induction l generalizing t with
  | nil => simp
  | cons k l ih =>
    rw [List.nodup_cons] at hl
    rw [List.foldl_cons, ih hl.2]
    by_cases hik : i = k
    · subst hik; simp [hl.1]
    · simp [hik]

/-- The loop over the whole table. -/
theorem foldl_update_finRange (f : Fin n → α → α) (t : Fin n → α) :
    (List.finRange n).foldl (fun t k => Function.update t k (f k (t k))) t = fun i => f i (t i) := by
  funext i
  rw [foldl_update f _ (List.nodup_finRange n), if_pos (List.mem_finRange i)]

/-- What holds before the first index and is carried over each one holds after the last. -/
theorem foldl_finRange_induct {β : Type} {f : β → Fin n → β} {b : β} (I : Nat → β → Prop) (start : I 0 b)
    (step : ∀ (k : Fin n) b, I k b → I (k + 1) (f b k)) : I n ((List.finRange n).foldl f b) := by
  have htake : ∀ m ≤ n, I m (((List.finRange n).take m).foldl f b) := by
    intro m
    induction m with
    | zero => exact fun _ => start
    | succ m ih =>
      intro hm
      have hlt : m < (List.finRange n).length := by rw [List.length_finRange]; exact hm
      rw [List.take_succ_eq_append_getElem hlt, List.foldl_append, List.getElem_finRange]
      exact step ⟨m, hm⟩ _ (ih (Nat.le_of_succ_le hm))
  have hall := htake n (Nat.le_refl n)
  rwa [List.take_of_length_le (by simp)] at hall

end TableFold
