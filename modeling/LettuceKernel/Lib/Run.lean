import Mathlib.Logic.Basic
/-!
# Runs of a transition function

A system is a transition function `step : S → E → S` and a start state. A *run* is recorded
by its history: the pairs (state before, event), **most recent first**. Every later statement
about "what happened before" is a predicate on that history.

* `Run ok step s₀ h s`: from `s₀`, steps that all meet `ok` lead to `s` with history `h`.
* `Since p q h`: `p` happened in `h` and `q` has not happened after it.
* `Always P h s`: `P` held in every state of the run with history `h` that ended in `s`.
* `traceFrom step h s es`: performs a list of events, oldest first, recording the history.
* `SpecRun spec a₀ tr a`: a run of an abstract machine given by a relation, with its trace of
  (event, result) pairs; `Run.refines` is the forward-simulation rule.
-/

namespace Runs

variable {S E O A : Type}

/-- Runs whose every step met `ok` (which sees the state before the step). -/
inductive Run (ok : S → E → Prop) (step : S → E → S) (s₀ : S) : List (S × E) → S → Prop
  | start : Run ok step s₀ [] s₀
  | next {h : List (S × E)} {s : S} (r : Run ok step s₀ h s) (e : E) (hok : ok s e) :
      Run ok step s₀ ((s, e) :: h) (step s e)

/-- The condition that excludes nothing. -/
def anyStep (_ : S) (_ : E) : Prop := True

variable {ok : S → E → Prop} {step : S → E → S} {s₀ s : S} {h : List (S × E)}

/-- Invariant rule: what holds at the start and is kept by every admitted step holds throughout. -/
theorem Run.invariant {I : S → Prop} (r : Run ok step s₀ h s) (h0 : I s₀)
    (hstep : ∀ s e, ok s e → I s → I (step s e)) : I s := by
  induction r with
  | start => exact h0
  | next r e hok ih => exact hstep _ e hok ih

/-- Invariant rule for predicates that also read the history. -/
theorem Run.historyInvariant {I : List (S × E) → S → Prop} (r : Run ok step s₀ h s) (h0 : I [] s₀)
    (hstep : ∀ h s e, ok s e → I h s → I ((s, e) :: h) (step s e)) : I h s := by
  induction r with
  | start => exact h0
  | next r e hok ih => exact hstep _ _ e hok ih

/-- Perform `es` from `s`, adding to the history `h`. -/
def traceFrom (step : S → E → S) : List (S × E) → S → List E → List (S × E) × S
  | h, s, [] => (h, s)
  | h, s, e :: es => traceFrom step ((s, e) :: h) (step s e) es

theorem traceFrom_append (h : List (S × E)) (s : S) (es es' : List E) :
    traceFrom step h s (es ++ es') = traceFrom step (traceFrom step h s es).1 (traceFrom step h s es).2 es' := by
  induction es generalizing h s with
  | nil => rfl
  | cons e es ih => exact ih _ _

theorem length_traceFrom (h : List (S × E)) (s : S) (es : List E) :
    (traceFrom step h s es).1.length = h.length + es.length := by
  induction es generalizing h s with
  | nil => rfl
  | cons e es ih =>
    rw [traceFrom, ih, List.length_cons, List.length_cons]
    omega

/-- Every event of the list meets `ok` where it happens. -/
def Admits (ok : S → E → Prop) (step : S → E → S) : S → List E → Prop
  | _, [] => True
  | s, e :: es => ok s e ∧ Admits ok step (step s e) es

theorem Run.trace (r : Run ok step s₀ h s) {es : List E} (ha : Admits ok step s es) :
    Run ok step s₀ (traceFrom step h s es).1 (traceFrom step h s es).2 := by
  induction es generalizing h s with
  | nil => exact r
  | cons e es ih => exact ih (r.next e ha.1) ha.2

theorem Admits.history {s : S} {h : List (S × E)} {es : List E} (ha : Admits ok step s es)
    (hh : ∀ p ∈ h, ok p.1 p.2) : ∀ p ∈ (traceFrom step h s es).1, ok p.1 p.2 := by
  induction es generalizing h s with
  | nil => exact hh
  | cons e es ih =>
    refine ih ha.2 fun p hp => ?_
    rcases List.mem_cons.1 hp with rfl | hmem
    · exact ha.1
    · exact hh p hmem

theorem Admits.and {ok' : S → E → Prop} {s : S} {es : List E} (ha : Admits ok step s es) (ha' : Admits ok' step s es) :
    Admits (fun s e => ok s e ∧ ok' s e) step s es := by
  induction es generalizing s with
  | nil => trivial
  | cons e es ih => exact ⟨⟨ha.1, ha'.1⟩, ih ha.2 ha'.2⟩

/-- For a condition that the events meet in any state. -/
theorem admits_of_mem (s : S) {es : List E} (hok : ∀ s, ∀ e ∈ es, ok s e) : Admits ok step s es := by
  induction es generalizing s with
  | nil => trivial
  | cons e es ih => exact ⟨hok s e (List.mem_cons_self ..), ih _ fun s e he => hok s e (List.mem_cons_of_mem _ he)⟩

theorem admits_anyStep (s : S) (es : List E) : Admits anyStep step s es := by
  induction es generalizing s with
  | nil => trivial
  | cons e es ih => exact ⟨trivial, ih _⟩

/-- `P` holds in the last state of a run and in every state before it. -/
def Always (P : List (S × E) → S → Prop) : List (S × E) → S → Prop
  | [], s => P [] s
  | (s', e) :: h, s => P ((s', e) :: h) s ∧ Always P h s'

/-- Exactness rule: if steps that meet `good` keep an invariant that gives `P`, and a step that
does not meet it breaks `P` at once, then `P` holds all along a run exactly if every step of
the run met `good`. -/
theorem Run.always_iff {good : S → E → Prop} {P I : List (S × E) → S → Prop} (r : Run ok step s₀ h s)
    (h0 : I [] s₀) (hP : ∀ h s, I h s → P h s)
    (hkeep : ∀ h s e, ok s e → good s e → I h s → I ((s, e) :: h) (step s e))
    (hbreak : ∀ h s e, ok s e → ¬ good s e → I h s → ¬ P ((s, e) :: h) (step s e)) :
    Always P h s ↔ ∀ p ∈ h, good p.1 p.2 := by
  suffices hboth : (Always P h s ↔ ∀ p ∈ h, good p.1 p.2) ∧ ((∀ p ∈ h, good p.1 p.2) → I h s) from hboth.1
  induction r with
  | start => exact ⟨iff_of_true (hP _ _ h0) (by simp), fun _ => h0⟩
  | @next h s r e hok ih =>
    obtain ⟨hiff, hinv⟩ := ih
    have hlast : (∀ p ∈ (s, e) :: h, good p.1 p.2) → I ((s, e) :: h) (step s e) := fun hall =>
      hkeep h s e hok (hall _ (List.mem_cons_self ..)) (hinv fun p hp => hall p (List.mem_cons_of_mem _ hp))
    refine ⟨⟨fun ⟨hp, halways⟩ => ?_, fun hall => ?_⟩, hlast⟩
    · have hbefore := hiff.1 halways
      have hgood : good s e := Classical.byContradiction fun hng => hbreak h s e hok hng (hinv hbefore) hp
      intro p hp
      rcases List.mem_cons.1 hp with rfl | hmem
      · exact hgood
      · exact hbefore p hmem
    · exact ⟨hP _ _ (hlast hall), hiff.2 fun p hp => hall p (List.mem_cons_of_mem _ hp)⟩

/-- `p` happened, and `q` has not happened since. -/
def Since (p q : S → E → Prop) : List (S × E) → Prop
  | [] => False
  | (s, e) :: h => p s e ∨ (¬ q s e ∧ Since p q h)

theorem since_now {p q : S → E → Prop} {e : E} (hp : p s e) : Since p q ((s, e) :: h) := Or.inl hp

theorem since_later {p q : S → E → Prop} {e : E} (hq : ¬ q s e) (hs : Since p q h) :
    Since p q ((s, e) :: h) := Or.inr ⟨hq, hs⟩

theorem Since.exists_mem {p q : S → E → Prop} (hs : Since p q h) : ∃ x ∈ h, p x.1 x.2 := by
  induction h with
  | nil => exact hs.elim
  | cons x h ih =>
    rcases hs with hp | ⟨-, hs⟩
    · exact ⟨x, List.mem_cons_self .., hp⟩
    · obtain ⟨y, hy, hp⟩ := ih hs
      exact ⟨y, List.mem_cons_of_mem _ hy, hp⟩

/-- A flag that some steps set, others clear and the rest keep tells whether a setting step
happened and no clearing step since. -/
theorem Run.flag_iff_since {F : S → Prop} {set clear : S → E → Prop} (r : Run ok step s₀ h s) (h0 : ¬ F s₀)
    (hset : ∀ s e, ok s e → set s e → F (step s e))
    (hclear : ∀ s e, ok s e → ¬ set s e → clear s e → ¬ F (step s e))
    (hkeep : ∀ s e, ok s e → ¬ set s e → ¬ clear s e → (F (step s e) ↔ F s)) :
    F s ↔ Since set clear h := by
  induction r with
  | start => exact iff_of_false h0 id
  | @next h s r e hok ih =>
    by_cases hs : set s e
    · exact iff_of_true (hset s e hok hs) (since_now hs)
    · by_cases hc : clear s e
      · exact iff_of_false (hclear s e hok hs hc) fun hsince => hsince.elim hs fun hlater => hlater.1 hc
      · rw [hkeep s e hok hs hc, ih]
        exact ⟨fun hsince => since_later hc hsince, fun hsince => hsince.elim (fun h => absurd h hs) fun hlater => hlater.2⟩

/-- Runs of an abstract machine given by a relation on (state, event, result, next state). -/
inductive SpecRun (spec : A → E → O → A → Prop) (a₀ : A) : List (E × O) → A → Prop
  | start : SpecRun spec a₀ [] a₀
  | next {tr : List (E × O)} {a a' : A} {e : E} {o : O} (r : SpecRun spec a₀ tr a)
      (hs : spec a e o a') : SpecRun spec a₀ ((e, o) :: tr) a'

/-- Forward simulation: if `abs` sends every admitted step from a state with `I` to a step of
`spec` with the same result, every run is a run of the abstract machine with the same trace. -/
theorem Run.refines {spec : A → E → O → A → Prop} {I : S → Prop} {abs : S → A} {out : S → E → O}
    (r : Run ok step s₀ h s) (h0 : I s₀) (hkeep : ∀ s e, ok s e → I s → I (step s e))
    (hsim : ∀ s e, ok s e → I s → spec (abs s) e (out s e) (abs (step s e))) :
    SpecRun spec (abs s₀) (h.map fun p => (p.2, out p.1 p.2)) (abs s) := by
  induction r with
  | start => exact .start
  | next r e hok ih => exact .next ih (hsim _ e hok (r.invariant h0 hkeep))

end Runs
