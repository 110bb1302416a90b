import LettuceKernel.Lib.Run
/-!
# Two runs side by side

Noninterference by unwinding: `Related s s'` says what two states may differ in. If every admitted event, performed in
two related states, leaves them related and lets the observer see the same, then the same events
from related states are observed the same way, to the end.

Simulation: `view s` is what another system sees of a state and `request s e` the step it makes for an event, if it makes one.
-/

namespace Runs

variable {S E O T F : Type}

/-- What an observer sees of a list of events. -/
def outputs (step : S → E → S) (out : S → E → O) : S → List E → List O
  | _, [] => []
  | s, e :: es => out s e :: outputs step out (step s e) es

/-- The state in which a list of events ends. -/
def endState (step : S → E → S) : S → List E → S
  | s, [] => s
  | s, e :: es => endState step (step s e) es

theorem endState_append {step : S → E → S} (s : S) (es es' : List E) :
    endState step s (es ++ es') = endState step (endState step s es) es' := by
  induction es generalizing s with
  | nil => rfl
  | cons e es ih => exact ih _

/-- The unwinding rule. -/
theorem unwinding {ok : S → E → Prop} {step : S → E → S} {out : S → E → O} (Related : S → S → Prop)
    (hstep : ∀ s s' e, Related s s' → ok s e → Related (step s e) (step s' e) ∧ out s e = out s' e) {s s' : S}
    {es : List E} (h : Related s s') (ha : Admits ok step s es) :
    Related (endState step s es) (endState step s' es) ∧ outputs step out s es = outputs step out s' es := by
  induction es generalizing s s' with
  | nil => exact ⟨h, rfl⟩
  | cons e es ih =>
    obtain ⟨hrel, hout⟩ := hstep s s' e h ha.1
    obtain ⟨hfinal, houts⟩ := ih hrel ha.2
    exact ⟨hfinal, by rw [outputs, outputs, hout, houts]⟩

/-- Invariant rule for a list of events. -/
theorem Admits.invariant {ok : S → E → Prop} {step : S → E → S} {I : S → Prop}
    (hstep : ∀ s e, ok s e → I s → I (step s e)) {s : S} {es : List E} (ha : Admits ok step s es) (hs : I s) :
    I (endState step s es) := by
  induction es generalizing s with
  | nil => exact hs
  | cons e es ih => exact ih ha.2 (hstep s e ha.1 hs)

/-- What differs at the end was changed by some event. -/
theorem endState_ne {step : S → E → S} {f : S → O} {s : S} {es : List E} (h : f (endState step s es) ≠ f s) :
    ∃ first e rest, es = first ++ e :: rest ∧
      f (step (endState step s first) e) ≠ f (endState step s first) := by
  induction es generalizing s with
  | nil => exact absurd rfl h
  | cons e es ih =>
    by_cases he : f (step s e) = f s
    · rw [endState, ← he] at h
      obtain ⟨first, e', rest, hes, hne⟩ := ih h
      exact ⟨e :: first, e', rest, by rw [hes, List.cons_append], hne⟩
    · exact ⟨[], e, es, rfl, he⟩

theorem Admits.first {ok : S → E → Prop} {step : S → E → S} {s : S} {es es' : List E} (ha : Admits ok step s (es ++ es')) :
    Admits ok step s es := by
  induction es generalizing s with
  | nil => trivial
  | cons e es ih => exact ⟨ha.1, ih ha.2⟩

/-- The requests that a list of events makes of the other system. -/
def requests (step : S → E → S) (request : S → E → Option F) : S → List E → List F
  | _, [] => []
  | s, e :: es => (request s e).toList ++ requests step request (step s e) es

/-- The simulation rule, with an invariant of the simulated system. -/
theorem simulation {ok : S → E → Prop} {step : S → E → S} {step' : T → F → T} {request : S → E → Option F} (view : S → T)
    {I : S → Prop} (hstep : ∀ s e, ok s e → I s → I (step s e) ∧
      view (step s e) = endState step' (view s) (request s e).toList) {s : S} {es : List E} (hs : I s)
    (ha : Admits ok step s es) : view (endState step s es) = endState step' (view s) (requests step request s es) := by
  induction es generalizing s with
  | nil => rfl
  | cons e es ih =>
    obtain ⟨hinv, hview⟩ := hstep s e ha.1 hs
    rw [requests, endState_append, ← hview]
    exact ih hinv ha.2

end Runs
