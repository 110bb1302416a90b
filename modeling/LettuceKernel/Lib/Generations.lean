import LettuceKernel.Lib.Run
/-!
# Tables whose handles carry generations

A table of slots, each with a generation number, hands out handles (slot, generation) and ends
the objects behind them in one of two ways: it *retires* an object and moves the generation
on, or *discards* it and leaves the generation where it is. `Table.Lawful` is what a step may
do: generations never go back, and a handle is issued with the generation of a slot that is
not live.

For a run of lawful steps:

* `unique_iff_noReuse`: no handle is issued twice exactly if no discarded one is issued again;
* `Table.Rep.retired`: a retired handle is below the generation of its slot, for good;
* `dead_of_noReuse`: a discarded handle is not live again, unless it is issued again.
-/

namespace Generations

open Runs

variable {S E : Type}

/-- A table with generations, seen through what its steps do. -/
structure Table (S E : Type) where
  generation : S → Nat → Nat
  live : S → Nat → Prop
  issues : S → E → Nat → Nat → Prop
  retires : S → E → Nat → Nat → Prop
  discards : S → E → Nat → Nat → Prop

namespace Table

variable (T : Table S E)

/-- What a step from `s` to `s'` may do. -/
structure Lawful (s : S) (e : E) (s' : S) : Prop where
  mono : ∀ i, T.generation s i ≤ T.generation s' i
  /-- A handle is issued for a slot that is not live, and makes it live. -/
  issue : ∀ i g, T.issues s e i g → ¬ T.live s i ∧ T.generation s i ≤ g ∧ g = T.generation s' i ∧ T.live s' i
  /-- A live slot stays as it is, has its generation moved on, or is discarded. -/
  keep : ∀ i, T.live s i → (T.live s' i ∧ T.generation s' i = T.generation s i) ∨
    T.generation s i < T.generation s' i ∨ T.discards s e i (T.generation s i)
  /-- A slot is live because it was, or because its handle has just been issued. -/
  live : ∀ i, T.live s' i → (T.live s i ∧ T.generation s i = T.generation s' i) ∨ T.issues s e i (T.generation s' i)
  retire : ∀ i g, T.retires s e i g → g < T.generation s' i
  discard : ∀ i g, T.discards s e i g → T.live s i ∧ g = T.generation s i ∧ ¬ T.live s' i

def Issued (h : List (S × E)) (i g : Nat) : Prop := ∃ p ∈ h, T.issues p.1 p.2 i g
def Retired (h : List (S × E)) (i g : Nat) : Prop := ∃ p ∈ h, T.retires p.1 p.2 i g
def Discarded (h : List (S × E)) (i g : Nat) : Prop := ∃ p ∈ h, T.discards p.1 p.2 i g

/-- No step of the run issues a handle that was issued before. -/
def Unique : List (S × E) → Prop
  | [] => True
  | (s, e) :: h => (∀ i g, T.issues s e i g → ¬ T.Issued h i g) ∧ Unique h

/-- No step of the run issues a handle that was discarded before. -/
def NoReuse : List (S × E) → Prop
  | [] => True
  | (s, e) :: h => (∀ i g, T.issues s e i g → ¬ T.Discarded h i g) ∧ NoReuse h

/-- What the history says about the generations. -/
structure Rep (h : List (S × E)) (s : S) : Prop where
  live : ∀ i, T.live s i → T.Issued h i (T.generation s i)
  issued : ∀ i g, T.Issued h i g →
    g < T.generation s i ∨ (g = T.generation s i ∧ (T.live s i ∨ T.Discarded h i g))
  retired : ∀ i g, T.Retired h i g → g < T.generation s i
  discarded : ∀ i g, T.Discarded h i g → T.Issued h i g

end Table

section
variable {T : Table S E} {h : List (S × E)} {s s' s₀ : S} {e : E} {δ : S → E → S}

theorem issued_cons {i g : Nat} : T.Issued ((s, e) :: h) i g ↔ T.issues s e i g ∨ T.Issued h i g := by
  simp [Table.Issued]

theorem retired_cons {i g : Nat} : T.Retired ((s, e) :: h) i g ↔ T.retires s e i g ∨ T.Retired h i g := by
  simp [Table.Retired]

theorem discarded_cons {i g : Nat} : T.Discarded ((s, e) :: h) i g ↔ T.discards s e i g ∨ T.Discarded h i g := by
  simp [Table.Discarded]

/-- A step that changes nothing and issues or ends nothing. -/
theorem Table.Lawful.idle (hi : ∀ i g, ¬ T.issues s e i g) (hr : ∀ i g, ¬ T.retires s e i g)
    (hd : ∀ i g, ¬ T.discards s e i g) : T.Lawful s e s where
  mono := fun _ => Nat.le_refl _
  issue := fun i g h => absurd h (hi i g)
  keep := fun _ h => Or.inl ⟨h, rfl⟩
  live := fun _ h => Or.inl ⟨h, rfl⟩
  retire := fun i g h => absurd h (hr i g)
  discard := fun i g h => absurd h (hd i g)

theorem Table.Rep.nil (h0 : ∀ i, ¬ T.live s i) : T.Rep [] s where
  live := fun i hi => absurd hi (h0 i)
  issued := fun i g ⟨_, hp, _⟩ => by cases hp
  retired := fun i g ⟨_, hp, _⟩ => by cases hp
  discarded := fun i g ⟨_, hp, _⟩ => by cases hp

theorem Table.Rep.step (hr : T.Rep h s) (hl : T.Lawful s e s') : T.Rep ((s, e) :: h) s' := by
  refine ⟨fun i hi => ?_, fun i g hg => ?_, fun i g hg => ?_, fun i g hg => ?_⟩
  · rw [issued_cons]
    rcases hl.live i hi with ⟨hlive, hgen⟩ | hissue
    · rw [← hgen]
      exact Or.inr (hr.live i hlive)
    · exact Or.inl hissue
  · rw [discarded_cons]
    have hmono := hl.mono i
    rcases issued_cons.1 hg with hissue | hold
    · obtain ⟨-, -, heq, hlive⟩ := hl.issue i g hissue
      exact Or.inr ⟨heq, Or.inl hlive⟩
    · rcases hr.issued i g hold with hlt | ⟨rfl, hlive | hdisc⟩
      · exact Or.inl (by omega)
      · rcases hl.keep i hlive with ⟨hlive', heq⟩ | hlt | hdisc
        · exact Or.inr ⟨heq.symm, Or.inl hlive'⟩
        · exact Or.inl hlt
        · rcases Nat.lt_or_eq_of_le hmono with hlt | heq
          · exact Or.inl hlt
          · exact Or.inr ⟨heq, Or.inr (Or.inl hdisc)⟩
      · rcases Nat.lt_or_eq_of_le hmono with hlt | heq
        · exact Or.inl hlt
        · exact Or.inr ⟨heq, Or.inr (Or.inr hdisc)⟩
  · have hmono := hl.mono i
    rcases retired_cons.1 hg with hretire | hold
    · exact hl.retire i g hretire
    · have hlt := hr.retired i g hold
      omega
  · rw [issued_cons]
    rcases discarded_cons.1 hg with hdisc | hold
    · obtain ⟨hlive, rfl, -⟩ := hl.discard i g hdisc
      exact Or.inr (hr.live i hlive)
    · exact Or.inr (hr.discarded i g hold)

/-- Runs of lawful steps. -/
abbrev LawfulRun (T : Table S E) (step : S → E → S) (s₀ : S) : List (S × E) → S → Prop :=
  Run (fun s e => T.Lawful s e (step s e)) step s₀

theorem LawfulRun.rep (r : LawfulRun T δ s₀ h s) (h0 : ∀ i, ¬ T.live s₀ i) : T.Rep h s :=
  r.historyInvariant (I := T.Rep) (Table.Rep.nil h0) fun _ _ _ hl hr => hr.step hl

/-- A handle issued by a lawful step is new, unless it was discarded. -/
theorem Table.Rep.issue_new (hr : T.Rep h s) (hl : T.Lawful s e s') {i g : Nat} (hi : T.issues s e i g)
    (hd : ¬ T.Discarded h i g) : ¬ T.Issued h i g := by
  intro hold
  obtain ⟨hlive, hle, -, -⟩ := hl.issue i g hi
  rcases hr.issued i g hold with hlt | ⟨-, hlive' | hdisc⟩
  · omega
  · exact hlive hlive'
  · exact hd hdisc

theorem unique_iff_noReuse (r : LawfulRun T δ s₀ h s) (h0 : ∀ i, ¬ T.live s₀ i) : T.Unique h ↔ T.NoReuse h := by
  induction r with
  | start => exact Iff.rfl
  | next r e hl ih =>
    have hr := LawfulRun.rep r h0
    refine and_congr ⟨fun hnew i g hi hd => ?_, fun hno i g hi => ?_⟩ ih
    · exact hnew i g hi (hr.discarded i g hd)
    · exact hr.issue_new hl hi (hno i g hi)

/-- A discarded handle that is not issued again is not live again. -/
theorem dead_of_noReuse (r : LawfulRun T δ s₀ h s) (hno : T.NoReuse h) {i g : Nat} (hd : T.Discarded h i g) :
    ¬ (T.live s i ∧ T.generation s i = g) := by
  induction r with
  | start =>
    obtain ⟨p, hp, -⟩ := hd
    cases hp
  | next r e hl ih =>
    rintro ⟨hlive, rfl⟩
    rcases discarded_cons.1 hd with hdisc | hold
    · exact (hl.discard _ _ hdisc).2.2 hlive
    · rcases hl.live i hlive with hbefore | hissue
      · exact ih hno.2 hold hbefore
      · exact hno.1 _ _ hissue hold

end

end Generations
