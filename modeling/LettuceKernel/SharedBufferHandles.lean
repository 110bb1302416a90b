import LettuceKernel.Lib.Generations
import LettuceKernel.SharedBuffer
/-!
# Handles of shared buffers

`lettuce_shared_buffer_revoke` advances the generation of the slot, and
`lettuce_shared_buffer_init` takes care to keep the generations while it clears everything
else (buffer.c:75-76). It does not advance the one of a buffer it finds active, though: the
next `create` on that slot returns the handle of the discarded buffer, and whoever still holds
that handle reaches the new one.

The slots are a lawful table with generations (`Generations.Table`) in which `revoke` retires
and `init` discards, so the library rule gives the exact condition.
-/

namespace Lettuce

open Runs

section
variable {P : Type}

/-- No two creates of the run return one handle, and none whose buffer was revoked or discarded
is accepted again. -/
def BuffersUnique : BufferHistory P → Prop
  | [] => True
  | (s, e) :: h =>
    (∀ x, Creates s x e → ¬ ∃ p ∈ h, Creates p.1 x p.2) ∧
    (∀ x, (∃ p ∈ h, RevokesBuffer p.1 x p.2 ∨ DiscardsBuffer p.1 x p.2) → ¬ AcceptsBuffer s x e) ∧ BuffersUnique h

/-- No create with valid arguments comes when the slot it will take, the first inactive one, was
found active by an earlier init. -/
def NoDiscardedReuse : BufferHistory P → Prop
  | [] => True
  | (s, e) :: h =>
    (∀ a i, e = .create a → Creatable s.currentServiceId a → firstInactive s.buffers = some i →
      ¬ ∃ p ∈ h, p.2 = .init ∧ (p.1.buffers i).active = true) ∧
    NoDiscardedReuse h

/-- How many revokes of the run succeeded. -/
def revokeCount : BufferHistory P → Nat
  | [] => 0
  | (s, .revoke x) :: h =>
    revokeCount h + if (sharedBufferRevoke s.buffers s.currentServiceId x).2 = .ok then 1 else 0
  | _ :: h => revokeCount h

/-- A slot is live while its buffer is active. A slot that was never used counts as generation 1,
which is what it will be created with. -/
def bufferTable (P : Type) : Generations.Table (BufferState P) BufferEvent where
  generation := fun s i => (SlotHandle.issuedGeneration (s.buffers i).generation).toNat
  live := fun s i => i < sharedBufferCount ∧ (s.buffers i).active = true
  issues := fun s e i g => i < 65535 ∧ ∃ c : BitVec 16, g = c.toNat ∧ Creates s (SlotHandle.make i c) e
  retires := fun s e i g => i < 65535 ∧ ∃ c : BitVec 16, g = c.toNat ∧ RevokesBuffer s (SlotHandle.make i c) e
  discards := fun s e i g => i < 65535 ∧ ∃ c : BitVec 16, g = c.toNat ∧ DiscardsBuffer s (SlotHandle.make i c) e

/-- What a run of fewer than 65535 revokes keeps about the generations. -/
structure BufferBound (h : BufferHistory P) (s : BufferState P) : Prop where
  ne : ∀ i, (s.buffers i).active = true → (s.buffers i).generation ≠ 0
  le : ∀ i, (SlotHandle.issuedGeneration (s.buffers i).generation).toNat ≤ revokeCount h + 1

variable {π : Protection P} {h : BufferHistory P} {s : BufferState P} {e : BufferEvent}

theorem slot_lt {i : Nat} (hi : i < sharedBufferCount) : i < 65535 := by
  unfold sharedBufferCount at hi
  omega

theorem issuedGeneration_idem (g : BitVec 16) :
    SlotHandle.issuedGeneration (SlotHandle.issuedGeneration g) = SlotHandle.issuedGeneration g :=
  SlotHandle.issuedGeneration_of_ne (SlotHandle.issuedGeneration_ne_zero g)

/-! ## Handles and slots -/

theorem creates_iff {i : Nat} {c : BitVec 16} (hi : i < 65535) :
    Creates s (SlotHandle.make i c) e ↔ ∃ a, e = .create a ∧ Creatable s.currentServiceId a ∧
      firstInactive s.buffers = some i ∧ c = SlotHandle.issuedGeneration (s.buffers i).generation := by
  constructor
  · intro hx
    cases e with
    | create a =>
      obtain ⟨j, hc, hj, hhandle⟩ := sharedBufferCreate_ok hx
      obtain ⟨rfl, rfl⟩ := SlotHandle.make_inj hi (slot_lt (firstInactive_eq_some hj).1) hhandle
      exact ⟨a, rfl, hc, hj, rfl⟩
    | _ => exact hx.elim
  · rintro ⟨a, rfl, hc, hj, rfl⟩
    simp only [Creates, sharedBufferCreate_accepts hc hj]

theorem bufferSlot_make {i : Nat} {c : BitVec 16} (hi : i < 65535) {j : Nat} :
    bufferSlot s.buffers (SlotHandle.make i c) = .ok j ↔
      j = i ∧ i < sharedBufferCount ∧ (s.buffers i).active = true ∧ c = (s.buffers i).generation := by
  rw [bufferSlot_eq_ok]
  constructor
  · rintro ⟨hj, hact, hhandle⟩
    obtain ⟨rfl, rfl⟩ := SlotHandle.make_inj hi (slot_lt hj) hhandle
    exact ⟨rfl, hj, hact, rfl⟩
  · rintro ⟨rfl, hj, hact, rfl⟩
    exact ⟨hj, hact, rfl⟩

theorem revokesBuffer_slot {x : SharedBufferHandle} (hx : RevokesBuffer s x e) :
    ∃ i, e = .revoke x ∧ bufferSlot s.buffers x = .ok i ∧ s.currentServiceId = (s.buffers i).owner ∧
      (bufferStep π s e).buffers i = (s.buffers i).revoked := by
  cases e with
  | revoke y =>
    obtain ⟨rfl, hok⟩ := hx
    rcases sharedBufferRevoke_cases s.buffers s.currentServiceId y with ⟨hne, -⟩ | ⟨i, hi, hcur, heq⟩
    · exact absurd hok hne
    · refine ⟨i, rfl, hi, hcur, ?_⟩
      simp only [bufferStep, heq, Function.update_self]
  | _ => exact hx.elim

/-! ## The buffers are a lawful table -/

theorem bufferTable_revoked {i : Nat} (hne : (s.buffers i).generation ≠ 0) (hwrap : (s.buffers i).generation ≠ 0xFFFF) :
    (SlotHandle.issuedGeneration (s.buffers i).revoked.generation).toNat = (bufferTable P).generation s i + 1 := by
  simp only [bufferTable, SharedBuffer.revoked]
  rw [SlotHandle.issuedGeneration_of_ne (nextGeneration_ne_zero _), SlotHandle.issuedGeneration_of_ne hne,
    nextGeneration_toNat hwrap]

/-- The event does not revoke slot `i` at the last generation. -/
def RevokesBelow (s : BufferState P) (e : BufferEvent) (i : Nat) : Prop :=
  ∀ x, e = .revoke x → bufferSlot s.buffers x = .ok i → s.currentServiceId = (s.buffers i).owner →
    (s.buffers i).generation ≠ 0xFFFF

/-- Everything a step can do to the generation of a slot and to its being live. -/
theorem bufferTable_step (π : Protection P) (e : BufferEvent) (i : Nat)
    (hne : (s.buffers i).active = true → (s.buffers i).generation ≠ 0) (hwrap : RevokesBelow s e i) :
    ((bufferTable P).generation (bufferStep π s e) i = (bufferTable P).generation s i ∧
      ((bufferTable P).live (bufferStep π s e) i ↔ (bufferTable P).live s i)) ∨
    (e = .init ∧ (bufferTable P).generation (bufferStep π s e) i = (bufferTable P).generation s i ∧
      ¬ (bufferTable P).live (bufferStep π s e) i) ∨
    ((∃ a, e = .create a ∧ Creatable s.currentServiceId a ∧ firstInactive s.buffers = some i) ∧
      (bufferTable P).generation (bufferStep π s e) i = (bufferTable P).generation s i ∧
      (bufferTable P).live (bufferStep π s e) i) ∨
    ((∃ x, e = .revoke x ∧ bufferSlot s.buffers x = .ok i) ∧
      (bufferTable P).generation (bufferStep π s e) i = (bufferTable P).generation s i + 1 ∧
      ¬ (bufferTable P).live (bufferStep π s e) i) := by
  rcases bufferStep_slot π s e i with ⟨-, heq⟩ | ⟨rfl, heq⟩ | ⟨a, rfl, hc, hi, heq⟩ | ⟨x, rfl, hi, hcur, heq⟩
  · refine Or.inl ⟨?_, ?_⟩ <;> simp only [bufferTable, heq]
  · refine Or.inr (Or.inl ⟨rfl, ?_, ?_⟩)
    · simp only [bufferTable, heq, SharedBuffer.cleared, issuedGeneration_idem]
    · simp [bufferTable, heq, SharedBuffer.cleared]
  · refine Or.inr (Or.inr (Or.inl ⟨⟨a, rfl, hc, hi⟩, ?_, ?_⟩))
    · simp only [bufferTable, heq, CreateArgs.buffer, issuedGeneration_idem]
    · simp only [bufferTable, heq, CreateArgs.buffer]
      exact ⟨(firstInactive_eq_some hi).1, trivial⟩
  · refine Or.inr (Or.inr (Or.inr ⟨⟨x, rfl, hi⟩, ?_, ?_⟩))
    · rw [← bufferTable_revoked (hne (bufferSlot_eq_ok.1 hi).2.1) (hwrap x rfl hi hcur), ← heq]
      rfl
    · simp [bufferTable, heq, SharedBuffer.revoked]

/-- An active buffer has the generation of its handle. -/
theorem bufferTable_discards {i : Nat} (hne : (s.buffers i).active = true → (s.buffers i).generation ≠ 0)
    (hi : (bufferTable P).live s i) : (bufferTable P).discards s .init i ((bufferTable P).generation s i) := by
  obtain ⟨hlt, hact⟩ := hi
  refine ⟨slot_lt hlt, (s.buffers i).generation, ?_, i, (bufferSlot_make (slot_lt hlt)).2 ⟨rfl, hlt, hact, rfl⟩⟩
  simp only [bufferTable, SlotHandle.issuedGeneration_of_ne (hne hact)]

theorem bufferTable_lawful (π : Protection P) (e : BufferEvent)
    (hne : ∀ i, (s.buffers i).active = true → (s.buffers i).generation ≠ 0) (hwrap : ∀ i, RevokesBelow s e i) :
    (bufferTable P).Lawful s e (bufferStep π s e) := by
  have hstep := fun i => bufferTable_step π e i (hne i) (hwrap i)
  refine ⟨fun i => ?_, ?_, fun i hi => ?_, fun i hi => ?_, ?_, ?_⟩
  · rcases hstep i with ⟨hg, -⟩ | ⟨-, hg, -⟩ | ⟨-, hg, -⟩ | ⟨-, hg, -⟩ <;> omega
  · rintro i g ⟨hi, c, rfl, hx⟩
    obtain ⟨a, rfl, hc, hfree, rfl⟩ := (creates_iff hi).1 hx
    obtain ⟨hlt, hinactive, -⟩ := firstInactive_eq_some hfree
    have hdead : ¬ (bufferTable P).live s i := fun hl => by
      rw [hl.2] at hinactive
      cases hinactive
    rcases hstep i with ⟨hg, hl⟩ | ⟨hinit, -⟩ | ⟨-, hg, hl⟩ | ⟨⟨x, hrevoke, -⟩, -⟩
    · -- the new buffer is active
      have hnew : (bufferTable P).live (bufferStep π s (.create a)) i := by
        simp only [bufferTable, bufferStep, sharedBufferCreate_accepts hc hfree, Function.update_self,
          CreateArgs.buffer]
        exact ⟨hlt, trivial⟩
      exact absurd (hl.1 hnew) hdead
    · cases hinit
    · exact ⟨hdead, Nat.le_refl _, hg.symm, hl⟩
    · cases hrevoke
  · rcases hstep i with ⟨hg, hl⟩ | ⟨rfl, -⟩ | ⟨⟨a, -, -, hfree⟩, -⟩ | ⟨-, hg, -⟩
    · exact Or.inl ⟨hl.2 hi, hg⟩
    · exact Or.inr (Or.inr (bufferTable_discards (hne i) hi))
    · have hinactive := (firstInactive_eq_some hfree).2.1
      rw [hi.2] at hinactive
      cases hinactive
    · exact Or.inr (Or.inl (by omega))
  · rcases hstep i with ⟨hg, hl⟩ | ⟨-, -, hl⟩ | ⟨⟨a, rfl, hc, hfree⟩, hg, -⟩ | ⟨-, -, hl⟩
    · exact Or.inl ⟨hl.1 hi, hg.symm⟩
    · exact absurd hi hl
    · refine Or.inr ⟨slot_lt hi.1, _, hg, (creates_iff (slot_lt hi.1)).2 ⟨a, rfl, hc, hfree, rfl⟩⟩
    · exact absurd hi hl
  · rintro i g ⟨hi, c, rfl, hx⟩
    obtain ⟨j, rfl, hj, hcur, heq⟩ := revokesBuffer_slot (π := π) hx
    obtain ⟨rfl, -, hact, rfl⟩ := (bufferSlot_make hi).1 hj
    have hnext := bufferTable_revoked (hne _ hact) (hwrap _ _ rfl hj hcur)
    rw [← heq] at hnext
    simp only [bufferTable, SlotHandle.issuedGeneration_of_ne (hne _ hact)] at hnext ⊢
    omega
  · rintro i g ⟨hi, c, rfl, hx⟩
    cases e with
    | init =>
      obtain ⟨j, hj⟩ := hx
      obtain ⟨rfl, hlt, hact, rfl⟩ := (bufferSlot_make hi).1 hj
      refine ⟨⟨hlt, hact⟩, ?_, ?_⟩
      · simp only [bufferTable, SlotHandle.issuedGeneration_of_ne (hne _ hact)]
      · simp [bufferTable, bufferStep, sharedBufferInit, hlt, SharedBuffer.cleared]
    | _ => exact hx.elim

/-! ## Every run -/

theorem BufferBound.init (p : P) : BufferBound [] (bufferMachineBoot p) where
  ne := fun i hi => by cases hi
  le := fun i => Nat.le_refl _

theorem revokeCount_cons (s : BufferState P) (e : BufferEvent) (h : BufferHistory P) :
    revokeCount h ≤ revokeCount ((s, e) :: h) := by
  cases e with
  | revoke x => exact Nat.le_add_right _ _
  | _ => exact Nat.le_refl _

/-- The revokes that move a generation count. -/
theorem revokeCount_revoke {x : SharedBufferHandle} {i : Nat} (hi : bufferSlot s.buffers x = .ok i)
    (hcur : s.currentServiceId = (s.buffers i).owner) (h : BufferHistory P) :
    revokeCount ((s, .revoke x) :: h) = revokeCount h + 1 := by
  simp only [revokeCount, sharedBufferRevoke, hi, hcur, ne_eq, not_true_eq_false, if_false, if_true]

/-- The generation of a slot in use is still below the last one. -/
theorem BufferBound.not_last (hg : BufferBound h s) (hc : revokeCount h + 1 < 65535) {i : Nat}
    (hact : (s.buffers i).active = true) : (s.buffers i).generation ≠ 0xFFFF := by
  intro he
  have hle := hg.le i
  rw [SlotHandle.issuedGeneration_of_ne (hg.ne i hact), he, show (0xFFFF : BitVec 16).toNat = 65535 from rfl] at hle
  omega

theorem BufferBound.step (hg : BufferBound h s) (e : BufferEvent) (hc : revokeCount ((s, e) :: h) < 65535) :
    BufferBound ((s, e) :: h) (bufferStep π s e) := by
  have hcount := revokeCount_cons s e h
  refine ⟨fun i hi => ?_, fun i => ?_⟩
  · rcases bufferStep_slot π s e i with ⟨-, heq⟩ | ⟨rfl, heq⟩ | ⟨a, rfl, -, -, heq⟩ | ⟨x, rfl, -, -, heq⟩ <;>
      rw [heq] at hi ⊢
    · exact hg.ne i hi
    · cases hi
    · exact SlotHandle.issuedGeneration_ne_zero _
    · cases hi
  · have hle := hg.le i
    rcases bufferStep_slot π s e i with ⟨-, heq⟩ | ⟨rfl, heq⟩ | ⟨a, rfl, -, -, heq⟩ | ⟨x, rfl, hi, hcur, heq⟩ <;>
      rw [heq]
    · exact Nat.le_trans hle (Nat.add_le_add_right hcount 1)
    · simp only [SharedBuffer.cleared, issuedGeneration_idem]
      omega
    · simp only [CreateArgs.buffer, issuedGeneration_idem]
      omega
    · have hact := (bufferSlot_eq_ok.1 hi).2.1
      rw [revokeCount_revoke hi hcur] at hc ⊢
      rw [bufferTable_revoked (hg.ne i hact) (hg.not_last hc hact)]
      simp only [bufferTable]
      omega

theorem BufferBound.revokesBelow (hg : BufferBound h s) (hc : revokeCount ((s, e) :: h) < 65535) (i : Nat) :
    RevokesBelow s e i := by
  rintro x rfl hi hcur
  rw [revokeCount_revoke hi hcur] at hc
  exact hg.not_last hc (bufferSlot_eq_ok.1 hi).2.1

/-- A run of fewer than 65535 revokes is lawful. -/
theorem buffer_lawful {p : P} (r : Run anyStep (bufferStep π) (bufferMachineBoot p) h s) :
    revokeCount h < 65535 →
      Generations.LawfulRun (bufferTable P) (bufferStep π) (bufferMachineBoot p) h s ∧ BufferBound h s := by
  induction r with
  | start => exact fun _ => ⟨.start, BufferBound.init p⟩
  | @next h s r e _ ih =>
    intro hc
    have hcount := revokeCount_cons s e h
    obtain ⟨hrun, hg⟩ := ih (by omega)
    exact ⟨hrun.next e (bufferTable_lawful π e hg.ne (hg.revokesBelow hc)), hg.step e hc⟩

theorem bufferBoot_dead (p : P) (i : Nat) : ¬ (bufferTable P).live (bufferMachineBoot p) i := by
  rintro ⟨-, hact⟩
  cases hact

/-! ## A discarded slot keeps its generation until it is created in again -/

/-- Slots that an init found active are inactive, at the generation they had then. -/
def DiscardsStay (h : BufferHistory P) (s : BufferState P) : Prop :=
  ∀ i, i < sharedBufferCount → (∃ p ∈ h, p.2 = .init ∧ (p.1.buffers i).active = true) →
    ¬ (bufferTable P).live s i ∧ (bufferTable P).Discarded h i ((bufferTable P).generation s i)

theorem DiscardsStay.step (hd : DiscardsStay h s) (hg : BufferBound h s)
    (hc : revokeCount ((s, e) :: h) < 65535) (hno : NoDiscardedReuse ((s, e) :: h)) :
    DiscardsStay ((s, e) :: h) (bufferStep π s e) := by
  have hl := bufferTable_lawful π e hg.ne (hg.revokesBelow hc)
  rintro i hi ⟨p, hp, hinit, hact⟩
  rw [Generations.discarded_cons]
  have hstep := bufferTable_step π e i (hg.ne i) (hg.revokesBelow hc i)
  rcases List.mem_cons.1 hp with rfl | hp
  · -- this init discards the slot
    obtain rfl : e = .init := hinit
    have hdisc := bufferTable_discards (hg.ne i) ⟨hi, hact⟩
    have hsame : (bufferTable P).generation (bufferStep π s .init) i = (bufferTable P).generation s i := by
      rcases hstep with ⟨hsame, -⟩ | ⟨-, hsame, -⟩ | ⟨⟨a, he, -⟩, -⟩ | ⟨⟨x, he, -⟩, -⟩
      · exact hsame
      · exact hsame
      · cases he
      · cases he
    rw [hsame]
    exact ⟨(hl.discard i _ hdisc).2.2, Or.inl hdisc⟩
  · obtain ⟨hdead, hdisc⟩ := hd i hi ⟨p, hp, hinit, hact⟩
    rcases hstep with ⟨hsame, hlive⟩ | ⟨-, hsame, hlive⟩ | ⟨⟨a, he, hcreatable, hfree⟩, -⟩ | ⟨⟨x, -, hx⟩, -⟩
    · rw [hsame, hlive]
      exact ⟨hdead, Or.inr hdisc⟩
    · rw [hsame]
      exact ⟨hlive, Or.inr hdisc⟩
    · exact absurd ⟨p, hp, hinit, hact⟩ (hno.1 a i he hcreatable hfree)
    · exact absurd ⟨hi, (bufferSlot_eq_ok.1 hx).2.1⟩ hdead

/-- As long as no discarded handle is issued again, no discarded slot is created in. -/
theorem noDiscardedReuse_of_noReuse {p : P} (r : Run anyStep (bufferStep π) (bufferMachineBoot p) h s) :
    revokeCount h < 65535 → (bufferTable P).NoReuse h → NoDiscardedReuse h ∧ DiscardsStay h s := by
  induction r with
  | start =>
    refine fun _ _ => ⟨trivial, fun i _ hp => ?_⟩
    obtain ⟨q, hq, -⟩ := hp
    cases hq
  | @next h s r e _ ih =>
    intro hc hno
    have hcount := revokeCount_cons s e h
    obtain ⟨hreuse, hstay⟩ := ih (by omega) hno.2
    have hnext : NoDiscardedReuse ((s, e) :: h) := by
      refine ⟨fun a i he hcreatable hfree hinit => ?_, hreuse⟩
      have hlt := (firstInactive_eq_some hfree).1
      obtain ⟨-, hdisc⟩ := hstay i hlt hinit
      refine hno.1 i _ ⟨slot_lt hlt, _, rfl, ?_⟩ hdisc
      exact (creates_iff (slot_lt hlt)).2 ⟨a, he, hcreatable, hfree, rfl⟩
    exact ⟨hnext, hstay.step (buffer_lawful r (by omega)).2 hc hnext⟩

theorem noReuse_of_noDiscardedReuse (hno : NoDiscardedReuse h) : (bufferTable P).NoReuse h := by
  induction h with
  | nil => trivial
  | cons q h ih =>
    obtain ⟨s, e⟩ := q
    refine ⟨?_, ih hno.2⟩
    rintro i g ⟨hi, c, -, hx⟩ ⟨⟨s', e'⟩, hp, -, c', -, hdisc⟩
    obtain ⟨a, rfl, hcreatable, hfree, -⟩ := (creates_iff hi).1 hx
    cases e' with
    | init =>
      obtain ⟨j, hj⟩ := hdisc
      obtain ⟨rfl, -, hact, -⟩ := (bufferSlot_make hi).1 hj
      exact hno.1 a _ rfl hcreatable hfree ⟨_, hp, rfl, hact⟩
    | _ => exact hdisc.elim

/-! ## Handles created, revoked and discarded -/

theorem Creates.issues {x : SharedBufferHandle} (hx : Creates s x e) :
    ∃ i, ∃ c : BitVec 16, i < 65535 ∧ x = SlotHandle.make i c ∧ (bufferTable P).issues s e i c.toNat := by
  cases e with
  | create a =>
    obtain ⟨i, -, hi, rfl⟩ := sharedBufferCreate_ok hx
    have hlt := slot_lt (firstInactive_eq_some hi).1
    exact ⟨i, _, hlt, rfl, hlt, _, rfl, hx⟩
  | _ => exact hx.elim

theorem RevokesBuffer.retires {x : SharedBufferHandle} (hx : RevokesBuffer s x e) :
    ∃ i, ∃ c : BitVec 16, i < 65535 ∧ x = SlotHandle.make i c ∧ (bufferTable P).retires s e i c.toNat := by
  cases e with
  | revoke y =>
    obtain ⟨i, hi⟩ := AcceptsBuffer.slot (e := .revoke y) hx
    obtain ⟨hlt, -, rfl⟩ := bufferSlot_eq_ok.1 hi
    exact ⟨i, _, slot_lt hlt, rfl, slot_lt hlt, _, rfl, hx⟩
  | _ => exact hx.elim

theorem DiscardsBuffer.discards {x : SharedBufferHandle} (hx : DiscardsBuffer s x e) :
    ∃ i, ∃ c : BitVec 16, i < 65535 ∧ x = SlotHandle.make i c ∧ (bufferTable P).discards s e i c.toNat := by
  cases e with
  | init =>
    obtain ⟨i, hi⟩ := hx
    obtain ⟨hlt, hact, rfl⟩ := bufferSlot_eq_ok.1 hi
    exact ⟨i, _, slot_lt hlt, rfl, slot_lt hlt, _, rfl, i, hi⟩
  | _ => exact hx.elim

theorem unique_of_buffersUnique (hu : BuffersUnique h) : (bufferTable P).Unique h := by
  induction h with
  | nil => trivial
  | cons q h ih =>
    obtain ⟨s, e⟩ := q
    refine ⟨?_, ih hu.2.2⟩
    rintro i g ⟨hi, c, rfl, hx⟩ ⟨p, hp, -, c', heq, hold⟩
    obtain rfl := BitVec.eq_of_toNat_eq heq
    exact hu.1 _ hx ⟨p, hp, hold⟩

theorem buffersUnique_of_noReuse {p : P} (r : Run anyStep (bufferStep π) (bufferMachineBoot p) h s) :
    revokeCount h < 65535 → (bufferTable P).NoReuse h → BuffersUnique h := by
  induction r with
  | start => exact fun _ _ => trivial
  | @next h s r e _ ih =>
    intro hc hno
    have hcount := revokeCount_cons s e h
    obtain ⟨hrun, hg⟩ := buffer_lawful r (by omega)
    have hrep := hrun.rep (bufferBoot_dead p)
    have hl := bufferTable_lawful π e hg.ne (hg.revokesBelow hc)
    refine ⟨fun x hx => ?_, fun x hx hacc => ?_, ih (by omega) hno.2⟩
    · rintro ⟨q, hq, hold⟩
      obtain ⟨i, c, hi, rfl, hissue⟩ := hx.issues
      obtain ⟨j, c', hj, hsame, hbefore⟩ := hold.issues
      obtain ⟨rfl, rfl⟩ := SlotHandle.make_inj hi hj hsame
      exact hrep.issue_new hl hissue (hno.1 _ _ hissue) ⟨q, hq, hbefore⟩
    · -- the handle in use is the one of a live slot
      obtain ⟨j, hj⟩ := hacc.slot
      obtain ⟨hlt, hact, hhandle⟩ := bufferSlot_eq_ok.1 hj
      have hgen : (bufferTable P).generation s j = (s.buffers j).generation.toNat := by
        simp only [bufferTable, SlotHandle.issuedGeneration_of_ne (hg.ne j hact)]
      obtain ⟨q, hq, hrevoked | hdiscarded⟩ := hx
      · obtain ⟨i, c, hi, rfl, hretire⟩ := hrevoked.retires
        obtain ⟨rfl, rfl⟩ := SlotHandle.make_inj hi (slot_lt hlt) hhandle
        have hpast := hrep.retired i _ ⟨q, hq, hretire⟩
        omega
      · obtain ⟨i, c, hi, rfl, hdisc⟩ := hdiscarded.discards
        obtain ⟨rfl, rfl⟩ := SlotHandle.make_inj hi (slot_lt hlt) hhandle
        exact Generations.dead_of_noReuse hrun hno.2 ⟨q, hq, hdisc⟩ ⟨⟨hlt, hact⟩, hgen⟩

end

/-- **When shared-buffer handles are never reissued**: in every run from power-on with fewer than
65535 successful revokes, all created handles differ and none whose buffer was revoked or
discarded is accepted again, exactly if no create takes a slot that an init found active. -/
theorem shared_buffer_handles_unique_iff {P : Type} {π : Protection P} {p : P} {h : BufferHistory P} {s : BufferState P}
    (r : Run anyStep (bufferStep π) (bufferMachineBoot p) h s) (hc : revokeCount h < 65535) :
    BuffersUnique h ↔ NoDiscardedReuse h := by
  have hrun := (buffer_lawful r hc).1
  constructor
  · intro hu
    have hno := (Generations.unique_iff_noReuse hrun (bufferBoot_dead p)).1 (unique_of_buffersUnique hu)
    exact (noDiscardedReuse_of_noReuse r hc hno).1
  · intro hno
    exact buffersUnique_of_noReuse r hc (noReuse_of_noDiscardedReuse hno)

/-- Service 10 creates, revokes, re-initialises and creates again. -/
def revokedCalls : List BufferEvent :=
  [.kernel (.setCurrentServiceId 10), .create unitBuffer, .revoke 0x00010001, .init, .create unitBuffer]

theorem shared_buffer_handles_unique_revoked :
    BuffersUnique (traceFrom (bufferStep hostProtection) [] (bufferMachineBoot 0) revokedCalls).1 := by
  have r : Run anyStep (bufferStep hostProtection) (bufferMachineBoot 0) _ _ :=
    Run.start.trace (admits_anyStep _ revokedCalls)
  refine (shared_buffer_handles_unique_iff r (by decide +kernel)).2 ⟨fun a i _ _ hfree => ?_, ?_⟩
  · -- slot 0 is taken again; the init found it revoked
    obtain rfl : 0 = i := Option.some.inj (Eq.trans (by rfl) hfree)
    rintro ⟨q, hq, hinit, hact⟩
    have hfound : ∀ q ∈ (traceFrom (bufferStep hostProtection) [] (bufferMachineBoot 0) (revokedCalls.take 4)).1,
        q.2 = .init → (q.1.buffers 0).active = false := by decide +kernel
    rw [hfound q hq hinit] at hact
    cases hact
  · refine ⟨fun a i => by rintro ⟨⟩, fun a i => by rintro ⟨⟩, fun a i _ _ _ => ?_, fun a i => by rintro ⟨⟩, trivial⟩
    rintro ⟨q, hq, hinit, -⟩
    rw [List.mem_singleton.1 hq] at hinit
    cases hinit

/-- The same without the revoke. -/
def discardedCalls : List BufferEvent :=
  [.kernel (.setCurrentServiceId 10), .create unitBuffer, .init, .create unitBuffer]

/-- Both creates return `0x00010001`. -/
theorem shared_buffer_handle_reissued :
    ¬ ∀ (h : BufferHistory DomainId) (s : BufferState DomainId),
      Run anyStep (bufferStep hostProtection) (bufferMachineBoot 0) h s → revokeCount h < 65535 → BuffersUnique h := by
  intro hall
  have r : Run anyStep (bufferStep hostProtection) (bufferMachineBoot 0) _ _ :=
    Run.start.trace (admits_anyStep _ discardedCalls)
  have hunique := hall _ _ r (by decide +kernel)
  exact hunique.1 0x00010001 (by rfl) ⟨_, List.mem_of_getElem? (i := 1) rfl, by rfl⟩

end Lettuce
