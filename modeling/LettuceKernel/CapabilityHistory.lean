import LettuceKernel.CapabilityRefinement
import LettuceKernel.Provenance
/-!
# The capability table as a function of the history

`Provenance` reads backwards: an active slot was granted. Here is the other direction as well:
a grant that was not taken back is still in the table, whatever was created, revoked and reused
in between. Both together make the table, seen as a map from handles to grants, exactly what
the history says.

Until the first `lettuce_capability_init` the free stack is empty, so it does not represent the
inactive slots (`FreeRep`); then nothing can be granted at all.
-/

namespace Lettuce

open Runs

section
variable {c : CapabilityTable}

/-- The table of power-on, or one whose free stack represents its inactive slots. -/
def BootOrFree (c : CapabilityTable) : Prop := c = capabilityBoot ∨ FreeRep c

theorem liveEntry_boot (x : CapabilityHandle) : liveEntry capabilityBoot x = none := by
  cases hl : liveEntry capabilityBoot x with
  | none => rfl
  | some e =>
    obtain ⟨slot, -, rfl, hact, -⟩ := liveEntry_eq_some.1 hl
    cases hact

theorem BootOrFree.step (hc : BootOrFree c) (e : KernelEvent) : BootOrFree (capsStep c e) := by
  cases e with
  | capabilityInit => exact Or.inr capabilityInit_freeRep
  | capabilityCreate o t op p r =>
    rcases hc with rfl | hr
    · left
      rw [capsStep, capabilityCreate_refused fun hg => absurd hg.2 (Nat.lt_irrefl 0)]
    · exact Or.inr (hr.step (.create o t op p r))
  | capabilityRevoke x =>
    rcases hc with rfl | hr
    · left
      rw [capsStep, capabilityRevoke_refused (liveEntry_boot x)]
    · exact Or.inr (hr.step (.revoke x))
  | _ => exact hc

/-- A create that grants puts a fresh handle into the map. -/
theorem capabilityMap_grant (hc : BootOrFree c) {o t : ServiceId} {op : OperationId} {p : BitVec 32} {r : ResourceId}
    (hx : (capabilityCreate c o t op p r).2 ≠ 0) :
    capabilityMap c (capabilityCreate c o t op p r).2 = none ∧ capabilityMap (capabilityCreate c o t op p r).1 =
      Function.update (capabilityMap c) (capabilityCreate c o t op p r).2 (some ⟨o, t, op, p, r⟩) := by
  by_cases hg : Grantable o t op p r ∧ 0 < c.free.count
  · rcases hc with rfl | hr
    · exact absurd hg.2 (Nat.lt_irrefl 0)
    · have hsim := capability_simulates hr (.create o t op p r)
      simp only [CapabilityMap.Spec, capabilityResult, capabilityStep] at hsim
      split at hsim
      · obtain ⟨-, hfresh, hmap⟩ := hsim
        refine ⟨?_, hmap⟩
        simpa [CapabilityMap.live] using hfresh
      · exact absurd hsim.1 hx
  · exact absurd (by rw [capabilityCreate_refused hg]) hx

theorem capabilityCreate_zero {o t : ServiceId} {op : OperationId} {p : BitVec 32} {r : ResourceId}
    (hc : BootOrFree c) (hx : (capabilityCreate c o t op p r).2 = 0) : (capabilityCreate c o t op p r).1 = c := by
  by_cases hg : Grantable o t op p r ∧ 0 < c.free.count
  · rcases hc with rfl | hr
    · exact absurd hg.2 (Nat.lt_irrefl 0)
    · rw [capabilityCreate_granted hg.1 hg.2] at hx
      exact absurd hx (makeHandle_ne_zero (hr.top_inactive hg.2).1 _)
  · rw [capabilityCreate_refused hg]

/-- A revoke takes its handle out of the map, if it was there. -/
theorem capabilityMap_withdraw (c : CapabilityTable) (x : CapabilityHandle) :
    capabilityMap (capabilityRevoke c x).1 = Function.update (capabilityMap c) x none := by
  cases hl : liveEntry c x with
  | none =>
    have hnone : capabilityMap c x = none := by rw [capabilityMap, hl, Option.map_none]
    rw [capabilityRevoke_refused hl, ← hnone, Function.update_eq_self]
  | some e =>
    obtain ⟨slot, hs, rfl, hact, rfl⟩ := liveEntry_eq_some.1 hl
    exact capabilityMap_revoke hs hact

end

section
variable {P : Type} {h : GateHistory P} {s : GateState P}

/-- `create` returned the handle `x` for the grant `k`. -/
def GrantsCapability (x : CapabilityHandle) (k : Capability) (s : GateState P) (e : KernelEvent) : Prop :=
  Grants x k.owner k.target k.operation k.permissions k.resource s e

/-- The map holds exactly the grants that were not taken back. -/
structure CapabilitiesExact (h : GateHistory P) (c : CapabilityTable) : Prop where
  free : BootOrFree c
  map : ∀ x k, capabilityMap c x = some k ↔ Since (GrantsCapability x k) (Withdraws x) h

/-- A step that grants nothing under `x` and does not withdraw it leaves its history as it is. -/
theorem since_unchanged {x : CapabilityHandle} {k : Capability} {e : KernelEvent} (hg : ¬ GrantsCapability x k s e)
    (hw : ¬ Withdraws x s e) :
    Since (GrantsCapability x k) (Withdraws x) ((s, e) :: h) ↔ Since (GrantsCapability x k) (Withdraws x) h := by
  simp only [Since, hg, hw, false_or, not_false_eq_true, true_and]

theorem CapabilitiesExact.step (hx : CapabilitiesExact h s.caps) (e : KernelEvent) :
    CapabilitiesExact ((s, e) :: h) (capsStep s.caps e) := by
  refine ⟨hx.free.step e, fun x k => ?_⟩
  cases e with
  | capabilityInit =>
    simp only [capsStep, capabilityMap_init, Since, GrantsCapability, Grants, Withdraws]
    simp
  | capabilityCreate o t op p r =>
    by_cases hzero : (capabilityCreate s.caps o t op p r).2 = 0
    · -- refused
      have hno : ¬ GrantsCapability x k s (.capabilityCreate o t op p r) := by
        rintro ⟨he, hne, hret⟩
        cases he
        exact hne (hret.symm.trans hzero)
      rw [since_unchanged hno (by simp [Withdraws]), ← hx.map x k, capsStep, capabilityCreate_zero hx.free hzero]
    · obtain ⟨hfresh, hmap⟩ := capabilityMap_grant hx.free hzero
      rw [capsStep, hmap]
      by_cases hret : x = (capabilityCreate s.caps o t op p r).2
      · subst hret
        rw [Function.update_self]
        constructor
        · intro hk
          cases hk
          exact since_now ⟨rfl, hzero, rfl⟩
        · rintro (⟨he, -, -⟩ | ⟨-, hold⟩)
          · cases he
            rfl
          · -- the handle is fresh, so no earlier grant of it stands
            rw [← hx.map, hfresh] at hold
            cases hold
      · have hno : ¬ GrantsCapability x k s (.capabilityCreate o t op p r) := by
          rintro ⟨he, -, hsame⟩
          cases he
          exact hret hsame.symm
        rw [Function.update_of_ne hret, since_unchanged hno (by simp [Withdraws]), hx.map x k]
  | capabilityRevoke y =>
    rw [capsStep, capabilityMap_withdraw]
    by_cases hy : x = y
    · subst hy
      rw [Function.update_self]
      simp [Since, GrantsCapability, Grants, Withdraws]
    · rw [Function.update_of_ne hy, since_unchanged (by simp [GrantsCapability, Grants])
        (by simp [Withdraws, Ne.symm hy]), hx.map x k]
  | _ =>
    rw [since_unchanged (by simp [GrantsCapability, Grants]) (by simp [Withdraws])]
    exact hx.map x k

theorem CapabilitiesExact.run {π : Protection P} {p : P}
    (r : Run anyStep (gateStep π) { kernelBoot with protection := p, calls := [] } h s) :
    CapabilitiesExact h s.caps := by
  refine r.historyInvariant (I := fun h s => CapabilitiesExact h s.caps) ⟨Or.inl rfl, fun x k => ?_⟩
    fun h s e _ hx => ?_
  · simp [kernelBoot, capabilityMap, liveEntry_boot, Since]
  · rw [(gateStep_tables π s e).2]
    exact hx.step e

theorem Grants.owner_ne_zero {x : CapabilityHandle} {owner target : ServiceId} {op : OperationId}
    {permissions : BitVec 32} {resource : ResourceId} {e : KernelEvent}
    (hg : Grants x owner target op permissions resource s e) : owner ≠ 0 := by
  obtain ⟨-, hne, hret⟩ := hg
  by_cases hok : Grantable owner target op permissions resource ∧ 0 < s.caps.free.count
  · exact hok.1.1
  · rw [capabilityCreate_refused hok] at hret
    exact absurd hret.symm hne

/-- The check of a handle is a question to the history. -/
theorem CapabilitiesExact.check (hx : CapabilitiesExact h s.caps) {x : CapabilityHandle} {current target : ServiceId}
    {op : OperationId} {permission : BitVec 32} {resource : ResourceId} (hp : permission ≠ 0) :
    capabilityCheck s.caps current x target op permission resource = true ↔
      ∃ permissions, permissions &&& permission = permission ∧
        Since (Grants x current target op permissions resource) (Withdraws x) h := by
  rw [capabilityCheck_eq_true]
  constructor
  · rintro ⟨entry, hl, -, -, rfl, rfl, rfl, rfl, hperm⟩
    have hmap : capabilityMap s.caps x =
        some ⟨entry.owner, entry.target, entry.operation, entry.permissions, entry.resource⟩ := by
      rw [capabilityMap, hl, Option.map_some]
    exact ⟨entry.permissions, hperm, (hx.map x _).1 hmap⟩
  · rintro ⟨permissions, hperm, hsince⟩
    obtain ⟨q, -, hgrant⟩ := hsince.exists_mem
    have hmap := (hx.map x ⟨current, target, op, permissions, resource⟩).2 hsince
    obtain ⟨entry, hl, heq⟩ := Option.map_eq_some_iff.1 hmap
    cases heq
    exact ⟨entry, hl, hp, hgrant.owner_ne_zero, rfl, rfl, rfl, rfl, hperm⟩

end

end Lettuce
