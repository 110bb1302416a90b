import LettuceKernel.CapabilityRefinement
/-!
# Stale handles: how long a revoked handle stays dead

`lettuce_capability_revoke` moves the slot's 16-bit generation on and skips 0
(capability.c:136-138), so a slot has 65535 distinct handles. The handle of generation
`0xFFFF` is the last one: after it is revoked the generation is 1 again, and the LIFO free
stack hands the slot out at the next grant. Then `create` returns a handle that was revoked
65534 grants earlier.

`StaysDead` is the promise of `test_stale_handle` ("generation defeats stale tickets");
`NoWrappedReuse` is the exact condition under which a run keeps it.
-/

namespace Lettuce

open Runs

abbrev CapabilityHistory := List (CapabilityTable × CapabilityCall)

/-- `lettuce_capability_revoke(x)` has returned true. -/
def RevokedIn (h : CapabilityHistory) (x : CapabilityHandle) : Prop :=
  ∃ p ∈ h, p.2 = .revoke x ∧ (capabilityRevoke p.1 x).2 = true

/-- The call hands `x` out, or accepts it. -/
def Honours (c : CapabilityTable) (x : CapabilityHandle) : CapabilityCall → Prop
  | .create o t op p r => (capabilityCreate c o t op p r).2 = x
  | .revoke y => y = x ∧ (capabilityRevoke c y).2 = true
  | .check current y t op p r => y = x ∧ capabilityCheck c current y t op p r = true

/-- Once a handle has been revoked, no later call of the run hands it out or accepts it. -/
def StaysDead : CapabilityHistory → Prop
  | [] => True
  | (c, e) :: h => (∀ x, RevokedIn h x → ¬ Honours c x e) ∧ StaysDead h

/-- No grant takes a slot whose generation-`0xFFFF` handle has already been revoked, i.e. a
slot whose generation counter has wrapped. -/
def NoWrappedReuse : CapabilityHistory → Prop
  | [] => True
  | (c, e) :: h =>
    (∀ o t op p r, e = .create o t op p r → Grantable o t op p r → 0 < c.free.count →
      ¬ RevokedIn h (makeHandle c.free.top 0xFFFF)) ∧ NoWrappedReuse h

/-! ## What the history says about the generations -/

/-- Per slot: before the wrap the revoked handles are exactly the smaller generations; after
it every handle of the slot has been revoked. -/
structure GenRep (h : CapabilityHistory) (c : CapabilityTable) : Prop where
  rep : FreeRep c
  gen_ne : ∀ slot : BitVec 16, (c.entries slot.toNat).generation ≠ 0
  counted : ∀ slot : BitVec 16, slot.toNat < capabilityTableSize → ¬ RevokedIn h (makeHandle slot 0xFFFF) →
    ∀ g, RevokedIn h (makeHandle slot g) ↔ g ≠ 0 ∧ g.toNat < (c.entries slot.toNat).generation.toNat
  wrapped : ∀ slot : BitVec 16, slot.toNat < capabilityTableSize → RevokedIn h (makeHandle slot 0xFFFF) →
    ∀ g, g ≠ 0 → RevokedIn h (makeHandle slot g)

section
variable {h : CapabilityHistory} {c : CapabilityTable}

theorem revokedIn_cons_of_not {e : CapabilityCall} (he : ∀ y, e = .revoke y → (capabilityRevoke c y).2 = false)
    (x : CapabilityHandle) : RevokedIn ((c, e) :: h) x ↔ RevokedIn h x := by
  constructor
  · rintro ⟨p, hp, hpe, hpr⟩
    rcases List.mem_cons.1 hp with rfl | hp
    · rw [he x hpe] at hpr; cases hpr
    · exact ⟨p, hp, hpe, hpr⟩
  · rintro ⟨p, hp, hpe, hpr⟩
    exact ⟨p, List.mem_cons_of_mem _ hp, hpe, hpr⟩

theorem revokedIn_cons_revoke {y : CapabilityHandle} (hy : (capabilityRevoke c y).2 = true) (x : CapabilityHandle) :
    RevokedIn ((c, .revoke y) :: h) x ↔ x = y ∨ RevokedIn h x := by
  constructor
  · rintro ⟨p, hp, hpe, hpr⟩
    rcases List.mem_cons.1 hp with rfl | hp
    · left; simpa using hpe.symm
    · exact Or.inr ⟨p, hp, hpe, hpr⟩
  · rintro (rfl | ⟨p, hp, hpe, hpr⟩)
    · exact ⟨_, List.mem_cons_self, rfl, hy⟩
    · exact ⟨p, List.mem_cons_of_mem _ hp, hpe, hpr⟩

/-- A call that revokes nothing leaves every generation alone. -/
theorem capabilityStep_generation {e : CapabilityCall} (he : ∀ y, e = .revoke y → (capabilityRevoke c y).2 = false)
    (i : Nat) : ((capabilityStep c e).entries i).generation = (c.entries i).generation := by
  cases e with
  | create o t op p r =>
    by_cases hg : Grantable o t op p r ∧ 0 < c.free.count
    · simp only [capabilityStep, capabilityCreate_granted hg.1 hg.2]
      by_cases hi : i = c.free.top.toNat
      · subst hi; simp
      · simp [Function.update_of_ne hi]
    · simp [capabilityStep, capabilityCreate_refused hg]
  | revoke y =>
    have hdead : liveEntry c y = none := by
      have := he y rfl
      cases hl : liveEntry c y with
      | none => rfl
      | some e => rw [capabilityRevoke_eq_true.2 (by simp [hl])] at this; cases this
    simp [capabilityStep, capabilityRevoke_refused hdead]
  | check current y t op p r => rfl

theorem GenRep.init : GenRep [] capabilityInit where
  rep := capabilityInit_freeRep
  gen_ne := fun slot => by simp [capabilityInit, CapabilityEntry.cleared]
  counted := by
    intro slot hs hw g
    constructor
    · rintro ⟨p, hp, -⟩; cases hp
    · rintro ⟨hg, hlt⟩
      have : g.toNat = 0 := by
        simp only [capabilityInit, CapabilityEntry.cleared, show (1 : BitVec 16).toNat = 1 from rfl] at hlt; omega
      exact absurd (BitVec.eq_of_toNat_eq (by simpa using this)) hg
  wrapped := by rintro slot hs ⟨p, hp, -⟩; cases hp

theorem revoke_generation {slot : BitVec 16} (hs : slot.toNat < capabilityTableSize)
    (hact : (c.entries slot.toNat).active = true) (x : BitVec 16) :
    ((capabilityRevoke c (makeHandle slot (c.entries slot.toNat).generation)).1.entries x.toNat).generation =
      if x = slot then nextGeneration (c.entries slot.toNat).generation else (c.entries x.toNat).generation := by
  rw [capabilityRevoke_live hs hact]
  by_cases hx : x = slot
  · subst hx; simp [CapabilityEntry.cleared]
  · have hidx : x.toNat ≠ slot.toNat := fun he => hx (BitVec.eq_of_toNat_eq he)
    simp [Function.update_of_ne hidx, hx]

/-- A step from `gen` to the next generation adds `gen` to those passed. -/
theorem passed_nextGeneration {gen : BitVec 16} (hpos : gen ≠ 0) (hlast : gen ≠ 0xFFFF) (g : BitVec 16) :
    (g = gen ∨ (g ≠ 0 ∧ g.toNat < gen.toNat)) ↔ g ≠ 0 ∧ g.toNat < (nextGeneration gen).toNat := by
  rw [nextGeneration_toNat hlast]
  constructor
  · rintro (rfl | ⟨h1, h2⟩)
    · exact ⟨hpos, by omega⟩
    · exact ⟨h1, by omega⟩
  · rintro ⟨h1, h2⟩
    by_cases heq : g = gen
    · exact Or.inl heq
    · have : g.toNat ≠ gen.toNat := fun ht => heq (BitVec.eq_of_toNat_eq ht)
      exact Or.inr ⟨h1, by omega⟩

/-- When the last generation is revoked, all smaller ones are in the history. -/
theorem GenRep.revoked_or_last (hr : GenRep h c) {slot : BitVec 16} (hs : slot.toNat < capabilityTableSize)
    (hlast : (c.entries slot.toNat).generation = 0xFFFF) (hold : ¬ RevokedIn h (makeHandle slot 0xFFFF)) {g : BitVec 16}
    (hg : g ≠ 0) : g = (c.entries slot.toNat).generation ∨ RevokedIn h (makeHandle slot g) := by
  by_cases heq : g = 0xFFFF
  · left
    rw [hlast]
    exact heq
  · right
    refine (hr.counted slot hs hold g).2 ⟨hg, ?_⟩
    rw [hlast]
    have hl := g.isLt
    have : g.toNat ≠ 65535 := fun ht => heq (BitVec.eq_of_toNat_eq (by simpa using ht))
    simp only [show (0xFFFF : BitVec 16).toNat = 65535 from rfl]
    omega

theorem GenRep.revoke_live (hr : GenRep h c) {slot : BitVec 16} (hs : slot.toNat < capabilityTableSize)
    (hact : (c.entries slot.toNat).active = true) :
    GenRep ((c, .revoke (makeHandle slot (c.entries slot.toNat).generation)) :: h)
      (capabilityRevoke c (makeHandle slot (c.entries slot.toNat).generation)).1 := by
  have htrue : (capabilityRevoke c (makeHandle slot (c.entries slot.toNat).generation)).2 = true := by
    rw [capabilityRevoke_live hs hact]
  have hrev := revokedIn_cons_revoke (h := h) htrue
  have hgen := revoke_generation hs hact
  -- only the revoked handle itself is new in the history
  have hother : ∀ x g, x.toNat < capabilityTableSize → x ≠ slot →
      (RevokedIn ((c, .revoke (makeHandle slot (c.entries slot.toNat).generation)) :: h) (makeHandle x g) ↔
        RevokedIn h (makeHandle x g)) := by
    intro x g hx hne
    rw [hrev]
    exact ⟨fun ho => ho.resolve_left fun he => hne (makeHandle_inj hx he hs).1, Or.inr⟩
  have hself : ∀ g, RevokedIn ((c, .revoke (makeHandle slot (c.entries slot.toNat).generation)) :: h)
      (makeHandle slot g) ↔ g = (c.entries slot.toNat).generation ∨ RevokedIn h (makeHandle slot g) := by
    intro g
    rw [hrev]
    exact or_congr_left ⟨fun he => (makeHandle_inj hs he hs).2, fun he => by rw [he]⟩
  refine ⟨hr.rep.revoke _, fun x => ?_, fun x hx hw g => ?_, fun x hx hw g hg => ?_⟩
  · rw [hgen]
    split
    · exact nextGeneration_ne_zero _
    · exact hr.gen_ne x
  · rw [hgen]
    by_cases hxs : x = slot
    · subst hxs
      rw [hself] at hw
      have hne : (c.entries x.toNat).generation ≠ 0xFFFF := fun he => hw (Or.inl he.symm)
      have hnw : ¬ RevokedIn h (makeHandle x 0xFFFF) := fun hh => hw (Or.inr hh)
      rw [if_pos rfl, hself, hr.counted x hx hnw]
      exact passed_nextGeneration (hr.gen_ne x) hne g
    · rw [hother x _ hx hxs] at hw
      rw [if_neg hxs, hother x g hx hxs]
      exact hr.counted x hx hw g
  · by_cases hxs : x = slot
    · subst hxs
      rw [hself] at hw ⊢
      by_cases hold : RevokedIn h (makeHandle x 0xFFFF)
      · exact Or.inr (hr.wrapped x hx hold g hg)
      · -- the wrap itself
        exact hr.revoked_or_last hx (hw.resolve_right hold).symm hold hg
    · rw [hother x _ hx hxs] at hw ⊢
      exact hr.wrapped x hx hw g hg

theorem GenRep.step (hr : GenRep h c) (e : CapabilityCall) : GenRep ((c, e) :: h) (capabilityStep c e) := by
  by_cases he : ∀ y, e = .revoke y → (capabilityRevoke c y).2 = false
  · have hrev := revokedIn_cons_of_not (h := h) he
    have hgen := capabilityStep_generation he
    refine ⟨hr.rep.step e, fun x => ?_, fun x hx hw g => ?_, fun x hx hw g hg => ?_⟩
    · rw [hgen]; exact hr.gen_ne x
    · rw [hrev] at hw ⊢; rw [hgen]; exact hr.counted x hx hw g
    · rw [hrev] at hw ⊢; exact hr.wrapped x hx hw g hg
  · simp only [not_forall] at he
    obtain ⟨y, rfl, hy⟩ := he
    have hlive : (liveEntry c y).isSome := capabilityRevoke_eq_true.1 (by simpa using hy)
    obtain ⟨e, he⟩ := Option.isSome_iff_exists.1 hlive
    obtain ⟨slot, hs, rfl, hact, rfl⟩ := liveEntry_eq_some.1 he
    exact hr.revoke_live hs hact

theorem GenRep.run (r : Run anyStep capabilityStep capabilityInit h c) : GenRep h c :=
  r.historyInvariant (I := GenRep) GenRep.init fun _ _ e _ hr => hr.step e

/-! ## Dead handles -/

theorem RevokedIn.handle {x : CapabilityHandle} (hx : RevokedIn h x) :
    ∃ slot g : BitVec 16, slot.toNat < capabilityTableSize ∧ x = makeHandle slot g := by
  obtain ⟨p, -, -, hpr⟩ := hx
  obtain ⟨e, he⟩ := Option.isSome_iff_exists.1 (capabilityRevoke_eq_true.1 hpr)
  obtain ⟨slot, hs, -, -, rfl⟩ := liveEntry_eq_some.1 he
  exact ⟨slot, _, hs, rfl⟩

/-- The slots whose generation counter has wrapped are out of use. -/
def WrappedRetired (h : CapabilityHistory) (c : CapabilityTable) : Prop :=
  ∀ slot : BitVec 16, slot.toNat < capabilityTableSize → RevokedIn h (makeHandle slot 0xFFFF) →
    (c.entries slot.toNat).active = false

theorem GenRep.live_not_revoked (hr : GenRep h c) (hw : WrappedRetired h c) {x : CapabilityHandle}
    (hx : (liveEntry c x).isSome) : ¬ RevokedIn h x := by
  intro hrev
  obtain ⟨e, he⟩ := Option.isSome_iff_exists.1 hx
  obtain ⟨slot, hs, rfl, hact, rfl⟩ := liveEntry_eq_some.1 he
  by_cases hwrap : RevokedIn h (makeHandle slot 0xFFFF)
  · rw [hw slot hs hwrap] at hact; cases hact
  · exact absurd ((hr.counted slot hs hwrap _).1 hrev).2 (Nat.lt_irrefl _)

/-- A grant on a slot that has not wrapped returns a handle no revoke has seen. -/
theorem GenRep.grant_fresh (hr : GenRep h c) (hc : 0 < c.free.count)
    (hwrap : ¬ RevokedIn h (makeHandle c.free.top 0xFFFF)) :
    ¬ RevokedIn h (makeHandle c.free.top (c.entries c.free.top.toNat).generation) := fun hrev =>
  absurd ((hr.counted _ (hr.rep.top_inactive hc).1 hwrap _).1 hrev).2 (Nat.lt_irrefl _)

/-- A grant on a slot that has wrapped returns a revoked handle. -/
theorem GenRep.grant_stale (hr : GenRep h c) (hc : 0 < c.free.count)
    (hwrap : RevokedIn h (makeHandle c.free.top 0xFFFF)) :
    RevokedIn h (makeHandle c.free.top (c.entries c.free.top.toNat).generation) :=
  hr.wrapped _ (hr.rep.top_inactive hc).1 hwrap _ (hr.gen_ne _)

theorem GenRep.not_honours (hr : GenRep h c) (hw : WrappedRetired h c) {e : CapabilityCall}
    (hfresh : ∀ o t op p r, e = .create o t op p r → Grantable o t op p r → 0 < c.free.count →
      ¬ RevokedIn h (makeHandle c.free.top 0xFFFF))
    {x : CapabilityHandle} (hx : RevokedIn h x) : ¬ Honours c x e := by
  intro hh
  cases e with
  | create o t op p r =>
    obtain ⟨slot, g, hs, rfl⟩ := hx.handle
    by_cases hg : Grantable o t op p r ∧ 0 < c.free.count
    · simp only [Honours, capabilityCreate_granted hg.1 hg.2] at hh
      rw [← hh] at hx
      exact hr.grant_fresh hg.2 (hfresh o t op p r rfl hg.1 hg.2) hx
    · simp only [Honours, capabilityCreate_refused hg] at hh
      exact makeHandle_ne_zero hs g hh.symm
  | revoke y =>
    obtain ⟨rfl, hy⟩ := hh
    exact hr.live_not_revoked hw (capabilityRevoke_eq_true.1 hy) hx
  | check current y t op p r =>
    obtain ⟨rfl, hy⟩ := hh
    obtain ⟨e, he, -⟩ := capabilityCheck_eq_true.1 hy
    exact hr.live_not_revoked hw (by rw [he]; rfl) hx

theorem WrappedRetired.step (hw : WrappedRetired h c) {e : CapabilityCall}
    (hfresh : ∀ o t op p r, e = .create o t op p r → Grantable o t op p r → 0 < c.free.count →
      ¬ RevokedIn h (makeHandle c.free.top 0xFFFF)) :
    WrappedRetired ((c, e) :: h) (capabilityStep c e) := by
  intro slot hs hrev
  cases e with
  | create o t op p r =>
    rw [revokedIn_cons_of_not (by intro y hy; cases hy)] at hrev
    by_cases hg : Grantable o t op p r ∧ 0 < c.free.count
    · simp only [capabilityStep, capabilityCreate_granted hg.1 hg.2]
      have hne : slot.toNat ≠ c.free.top.toNat := fun he =>
        hfresh o t op p r rfl hg.1 hg.2 (BitVec.eq_of_toNat_eq he ▸ hrev)
      rw [Function.update_of_ne hne]
      exact hw slot hs hrev
    · simp only [capabilityStep, capabilityCreate_refused hg]
      exact hw slot hs hrev
  | revoke y =>
    cases hl : liveEntry c y with
    | none =>
      have hfalse : (capabilityRevoke c y).2 = false := by rw [capabilityRevoke_refused hl]
      rw [revokedIn_cons_of_not (by intro z hz; cases hz; exact hfalse)] at hrev
      simp only [capabilityStep, capabilityRevoke_refused hl]
      exact hw slot hs hrev
    | some e =>
      obtain ⟨s, hsz, rfl, hact, rfl⟩ := liveEntry_eq_some.1 hl
      have hlive := capabilityRevoke_live hsz hact
      simp only [capabilityStep, hlive]
      by_cases hi : slot.toNat = s.toNat
      · rw [hi, Function.update_self]; rfl
      · rw [Function.update_of_ne hi]
        rw [revokedIn_cons_revoke (by rw [hlive])] at hrev
        exact hw slot hs (hrev.resolve_left fun he => hi (by rw [(makeHandle_inj hs he hsz).1]))
  | check current y t op p r =>
    rw [revokedIn_cons_of_not (by intro z hz; cases hz)] at hrev
    exact hw slot hs hrev

/-- While no wrapped slot is granted again, wrapped slots stay inactive and dead handles dead. -/
theorem staysDead_of_noWrappedReuse (r : Run anyStep capabilityStep capabilityInit h c) :
    NoWrappedReuse h → StaysDead h ∧ WrappedRetired h c := by
  induction r with
  | start => exact fun _ => ⟨trivial, fun slot _ ⟨p, hp, _⟩ => by cases hp⟩
  | next r e _ ih =>
    rintro ⟨hfresh, hrest⟩
    obtain ⟨hdead, hw⟩ := ih hrest
    have hr := GenRep.run r
    exact ⟨⟨fun x hx => hr.not_honours hw hfresh hx, hdead⟩, hw.step hfresh⟩

theorem noWrappedReuse_of_staysDead (r : Run anyStep capabilityStep capabilityInit h c) :
    StaysDead h → NoWrappedReuse h := by
  induction r with
  | start => exact id
  | next r e _ ih =>
    rintro ⟨hdead, hrest⟩
    refine ⟨?_, ih hrest⟩
    rintro o t op p q rfl hg hc hwrap
    refine hdead _ ((GenRep.run r).grant_stale hc hwrap) ?_
    simp only [Honours, capabilityCreate_granted hg hc]

end

/-- **A revoked handle stays dead exactly as long as no wrapped slot is granted again**: in
every run after `lettuce_capability_init`, `create` never returns and `revoke` and `check`
never accept a revoked handle if and only if no grant took a slot whose generation-`0xFFFF`
handle had been revoked. -/
theorem revoked_handle_stays_dead_iff {h : CapabilityHistory} {c : CapabilityTable}
    (r : Run anyStep capabilityStep capabilityInit h c) : StaysDead h ↔ NoWrappedReuse h :=
  ⟨noWrappedReuse_of_staysDead r, fun hn => (staysDead_of_noWrappedReuse r hn).1⟩

/-- Grant, revoke, grant again: the condition holds, so the first handle stays dead. -/
theorem revoked_handle_stays_dead_reuse :
    StaysDead [((capabilityRevoke (capabilityCreate capabilityInit 10 20 1 3 30).1 0x00010001).1, .create 10 20 1 3 30),
      ((capabilityCreate capabilityInit 10 20 1 3 30).1, .revoke 0x00010001),
      (capabilityInit, .create 10 20 1 3 30)] := by
  have r : Run anyStep capabilityStep capabilityInit _ _ :=
    Run.next (Run.next (Run.next Run.start (.create 10 20 1 3 30) trivial) (.revoke 0x00010001) trivial)
      (.create 10 20 1 3 30) trivial
  refine (revoked_handle_stays_dead_iff r).2 ⟨?_, ?_, ?_, trivial⟩
  · rintro o t op p q - - - ⟨x, hx, hxe, -⟩
    rcases List.mem_cons.1 hx with rfl | hx
    · simp only [CapabilityCall.revoke.injEq] at hxe
      exact absurd hxe (by decide)
    · rcases List.mem_cons.1 hx with rfl | hx
      · cases hxe
      · cases hx
  · rintro o t op p q he
    cases he
  · rintro o t op p q - - - ⟨x, hx, -⟩
    cases hx

/-! ## The wrap is reached

Grant and revoke, 65535 times, on the slot at the top of the free stack. -/

/-- `n` rounds of grant and revoke after `lettuce_capability_init`: history and table. -/
def recycle : Nat → CapabilityHistory × CapabilityTable
  | 0 => ([], capabilityInit)
  | n + 1 =>
    let c := (recycle n).2
    let granted := capabilityCreate c 10 20 1 3 30
    ((granted.1, .revoke granted.2) :: (c, .create 10 20 1 3 30) :: (recycle n).1,
      (capabilityRevoke granted.1 granted.2).1)

theorem recycle_run (n : Nat) : Run anyStep capabilityStep capabilityInit (recycle n).1 (recycle n).2 := by
  induction n with
  | zero => exact .start
  | succ n ih =>
    have hgrant := Run.next ih (.create 10 20 1 3 30) trivial
    exact hgrant.next (.revoke (capabilityCreate (recycle n).2 10 20 1 3 30).2) trivial

/-- One round on a table whose next free slot is 0. -/
theorem capability_round {c : CapabilityTable} (htop : c.free.top = 0) (hc : 0 < c.free.count) :
    let x := makeHandle 0 (c.entries 0).generation
    (capabilityCreate c 10 20 1 3 30).2 = x ∧
      (capabilityRevoke (capabilityCreate c 10 20 1 3 30).1 x).2 = true ∧
      (capabilityRevoke (capabilityCreate c 10 20 1 3 30).1 x).1.free.top = 0 ∧
      (capabilityRevoke (capabilityCreate c 10 20 1 3 30).1 x).1.free.count = c.free.count ∧
      ((capabilityRevoke (capabilityCreate c 10 20 1 3 30).1 x).1.entries 0).generation =
        nextGeneration (c.entries 0).generation := by
  have hg : Grantable 10 20 1 3 30 := by decide
  have hz : (0 : BitVec 16).toNat = 0 := rfl
  rw [capabilityCreate_granted hg hc, htop, hz]
  dsimp only
  generalize ht : (CapabilityTable.mk (Function.update c.entries 0
    ⟨(c.entries 0).generation, true, 10, 20, 1, 30, 3⟩) c.free.pop) = t
  have hact : (t.entries (0 : BitVec 16).toNat).active = true := by simp [← ht]
  have hgen : (t.entries (0 : BitVec 16).toNat).generation = (c.entries 0).generation := by simp [← ht]
  have hlive := capabilityRevoke_live (by decide) hact
  rw [hgen] at hlive
  rw [hlive]
  refine ⟨rfl, rfl, ArrayStack.top_push _ _, ?_, by simp [CapabilityEntry.cleared]⟩
  simp only [ArrayStack.push_count, ← ht, ArrayStack.pop_count]
  omega

theorem recycle_succ {n : Nat} (htop : (recycle n).2.free.top = 0) (hc : 0 < (recycle n).2.free.count) :
    (recycle (n + 1)).2.free.top = 0 ∧ (recycle (n + 1)).2.free.count = (recycle n).2.free.count ∧
      ((recycle (n + 1)).2.entries 0).generation = nextGeneration ((recycle n).2.entries 0).generation ∧
      RevokedIn (recycle (n + 1)).1 (makeHandle 0 ((recycle n).2.entries 0).generation) := by
  obtain ⟨h1, h2, h3, h4, h5⟩ := capability_round htop hc
  simp only [recycle]
  rw [h1]
  exact ⟨h3, h4, h5, _, List.mem_cons_self, rfl, h2⟩

theorem recycle_generation {n : Nat} (hn : n ≤ 65534) :
    (recycle n).2.free.top = 0 ∧ (recycle n).2.free.count = capabilityTableSize ∧
      ((recycle n).2.entries 0).generation.toNat = n + 1 := by
  induction n with
  | zero => exact ⟨by decide, rfl, rfl⟩
  | succ n ih =>
    obtain ⟨htop, hcount, hgen⟩ := ih (by omega)
    obtain ⟨h1, h2, h3, -⟩ := recycle_succ htop (by rw [hcount]; decide)
    refine ⟨h1, h2.trans hcount, ?_⟩
    rw [h3, nextGeneration_toNat, hgen]
    intro he
    rw [he, show (0xFFFF : BitVec 16).toNat = 65535 from rfl] at hgen
    omega

/-- After 65535 grants and revokes of one slot the next grant returns a revoked handle. -/
theorem recycled_handle_revives :
    ¬ ∀ h c, Run anyStep capabilityStep capabilityInit h c → StaysDead h := by
  intro hall
  -- kept as a variable: the run is never unfolded
  obtain ⟨n, hn⟩ : ∃ n : Nat, n = 65534 := ⟨_, rfl⟩
  obtain ⟨htop, hcount, hgen⟩ := recycle_generation hn.le
  obtain ⟨htop', hcount', -, hrev⟩ := recycle_succ htop (by rw [hcount]; decide)
  have hlast : ((recycle n).2.entries 0).generation = 0xFFFF := BitVec.eq_of_toNat_eq (by rw [hgen, hn]; rfl)
  have hpos : 0 < (recycle (n + 1)).2.free.count := by rw [hcount', hcount]; decide
  rw [hlast, ← htop'] at hrev
  have hdead := hall _ _ (.next (recycle_run (n + 1)) (.create 10 20 1 3 30) trivial)
  refine hdead.1 _ ((GenRep.run (recycle_run _)).grant_stale hpos hrev) ?_
  simp only [Honours, capabilityCreate_granted (by decide : Grantable 10 20 1 3 30) hpos]

end Lettuce
