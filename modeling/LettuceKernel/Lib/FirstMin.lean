import Mathlib.Order.Fin.Basic
/-!
# The first minimum, found in one pass

`FirstMin cand key i`: `i` is a candidate of least key, and of those the first. A loop finds it
with one running minimum, a strict comparison and a sentinel above all keys; `RunningMin` is what
such a loop knows after the first `k` indices.
-/

namespace FirstMins

variable {n : Nat}

structure FirstMin (cand : Fin n → Prop) (key : Fin n → Nat) (i : Fin n) : Prop where
  candidate : cand i
  least : ∀ j, cand j → key i ≤ key j
  first : ∀ j, cand j → key j = key i → i ≤ j

structure RunningMin (cand : Fin n → Prop) (key : Fin n → Nat) (top k : Nat) (best : Option (Fin n)) (least : Nat) :
    Prop where
  empty : best = none → least = top ∧ ∀ j, j.val < k → ¬ cand j
  found : ∀ i, best = some i → least = key i ∧ FirstMin (fun j => j.val < k ∧ cand j) key i

section
variable {cand : Fin n → Prop} {key : Fin n → Nat} {top k : Nat} {best : Option (Fin n)} {least : Nat}

theorem RunningMin.start (cand : Fin n → Prop) (key : Fin n → Nat) (top : Nat) : RunningMin cand key top 0 none top :=
  ⟨fun _ => ⟨rfl, nofun⟩, nofun⟩

theorem lt_succ_cases {j k : Fin n} (h : j.val < k.val + 1) : j.val < k.val ∨ j = k := by
  rcases Nat.lt_succ_iff_lt_or_eq.1 h with hlt | heq
  · exact Or.inl hlt
  · exact Or.inr (Fin.ext heq)

theorem RunningMin.skip {k : Fin n} (h : RunningMin cand key top k best least) (hk : ¬ cand k) :
    RunningMin cand key top (k + 1) best least := by
  refine ⟨fun hb => ⟨(h.empty hb).1, fun j hj => ?_⟩, fun i hb => ?_⟩
  · rcases lt_succ_cases hj with hlt | rfl
    · exact (h.empty hb).2 j hlt
    · exact hk
  · obtain ⟨hl, hmin⟩ := h.found i hb
    have hold : ∀ j : Fin n, j.val < k.val + 1 ∧ cand j → j.val < k.val ∧ cand j := by
      rintro j ⟨hj, hc⟩
      rcases lt_succ_cases hj with hlt | rfl
      · exact ⟨hlt, hc⟩
      · exact absurd hc hk
    exact ⟨hl, ⟨Nat.lt_succ_of_lt hmin.candidate.1, hmin.candidate.2⟩, fun j hj => hmin.least j (hold j hj),
      fun j hj => hmin.first j (hold j hj)⟩

/-- A candidate below the running minimum replaces it. -/
theorem RunningMin.take {k : Fin n} (h : RunningMin cand key top k best least) (hk : cand k) (hlt : key k < least) :
    RunningMin cand key top (k + 1) (some k) (key k) := by
  refine ⟨nofun, ?_⟩
  rintro i ⟨⟩
  -- nothing seen before has a key as small
  have hold : ∀ j : Fin n, j.val < k.val → cand j → key k < key j := by
    intro j hj hc
    cases hb : best with
    | none => exact absurd hc ((h.empty hb).2 j hj)
    | some b =>
      obtain ⟨hl, hmin⟩ := h.found b hb
      exact Nat.lt_of_lt_of_le (hl ▸ hlt) (hmin.least j ⟨hj, hc⟩)
  refine ⟨rfl, ⟨Nat.lt_succ_self _, hk⟩, ?_, ?_⟩
  · rintro j ⟨hj, hc⟩
    rcases lt_succ_cases hj with hjk | rfl
    · exact Nat.le_of_lt (hold j hjk hc)
    · exact Nat.le_refl _
  · rintro j ⟨hj, hc⟩ hkey
    rcases lt_succ_cases hj with hjk | rfl
    · have := hold j hjk hc
      omega
    · exact Fin.le_refl _

/-- A candidate below the sentinel that does not replace the minimum comes after it. -/
theorem RunningMin.keep {k : Fin n} (h : RunningMin cand key top k best least) (htop : key k < top)
    (hge : ¬ key k < least) : RunningMin cand key top (k + 1) best least := by
  refine ⟨fun hb => ?_, fun i hb => ?_⟩
  · rw [(h.empty hb).1] at hge
    exact absurd htop hge
  · obtain ⟨hl, hmin⟩ := h.found i hb
    rw [hl] at hge
    refine ⟨hl, ⟨Nat.lt_succ_of_lt hmin.candidate.1, hmin.candidate.2⟩, ?_, ?_⟩
    · rintro j ⟨hj, hc⟩
      rcases lt_succ_cases hj with hjk | rfl
      · exact hmin.least j ⟨hjk, hc⟩
      · exact Nat.le_of_not_lt hge
    · rintro j ⟨hj, hc⟩ hkey
      rcases lt_succ_cases hj with hjk | rfl
      · exact hmin.first j ⟨hjk, hc⟩ hkey
      · exact Nat.le_of_lt hmin.candidate.1

/-- After the last index. -/
theorem RunningMin.finish_none (h : RunningMin cand key top n none least) (j : Fin n) : ¬ cand j :=
  (h.empty rfl).2 j j.isLt

theorem RunningMin.finish_some {i : Fin n} (h : RunningMin cand key top n (some i) least) :
    least = key i ∧ FirstMin cand key i := by
  obtain ⟨hl, hmin⟩ := h.found i rfl
  exact ⟨hl, hmin.candidate.2, fun j hj => hmin.least j ⟨j.isLt, hj⟩, fun j hj => hmin.first j ⟨j.isLt, hj⟩⟩

end

end FirstMins
