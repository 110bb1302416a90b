import Mathlib.Data.Set.Card
import LettuceKernel.Capability
import LettuceKernel.Lib.Run
/-!
# The capability table is a finite map

The abstract component is a map from live handles to the five granted fields
(`CapabilityMap`), with `CapabilityMap.Spec` saying what each call may do to it. The table
and its free stack (`capability.c`) refine it: `capabilityMap` reads the map off the table,
and every run of calls from `lettuce_capability_init` is a run of the abstract machine with
the same results.

The representation invariant `FreeRep` is what makes it work: the live part of the free
stack has no duplicates and holds exactly the inactive slots, so a popped slot is inactive
and the stack is empty exactly when all 4096 slots are taken.
-/

namespace Lettuce

open Runs

/-- A call of the capability interface; `check` carries the current service id it runs under. -/
inductive CapabilityCall where
  | create (owner target : ServiceId) (operation : OperationId) (permissions : BitVec 32) (resource : ResourceId)
  | revoke (handle : CapabilityHandle)
  | check (current : ServiceId) (handle : CapabilityHandle) (target : ServiceId) (operation : OperationId)
      (permission : BitVec 32) (resource : ResourceId)
deriving DecidableEq, Repr

inductive CapabilityResult where
  | handle (h : CapabilityHandle)
  | accepted (b : Bool)
deriving DecidableEq, Repr

def capabilityStep (c : CapabilityTable) : CapabilityCall → CapabilityTable
  | .create o t op p r => (capabilityCreate c o t op p r).1
  | .revoke h => (capabilityRevoke c h).1
  | .check .. => c

def capabilityResult (c : CapabilityTable) : CapabilityCall → CapabilityResult
  | .create o t op p r => .handle (capabilityCreate c o t op p r).2
  | .revoke h => .accepted (capabilityRevoke c h).2
  | .check current h t op p r => .accepted (capabilityCheck c current h t op p r)

/-! ## The abstract component -/

/-- What one capability grants. -/
structure Capability where
  owner : ServiceId
  target : ServiceId
  operation : OperationId
  permissions : BitVec 32
  resource : ResourceId
deriving DecidableEq, Repr

/-- Live handles and what they grant. -/
abbrev CapabilityMap := CapabilityHandle → Option Capability

namespace CapabilityMap

def live (m : CapabilityMap) : Set CapabilityHandle := {h | (m h).isSome}

/-- Every bit of `p` is a bit of `q`. -/
def BitSubset (p q : BitVec 32) : Prop := ∀ i, p.getLsbD i = true → q.getLsbD i = true

/-- The arguments a grant needs: no identifier is 0 and the permissions are a nonempty set of
the six known bits. -/
def ValidGrant (k : Capability) : Prop :=
  k.owner ≠ 0 ∧ k.target ≠ 0 ∧ k.operation ≠ 0 ∧ k.resource ≠ 0 ∧ k.permissions ≠ 0 ∧
    ∀ i, k.permissions.getLsbD i = true → i < 6

open Classical in
/-- One call on the map: result and new map. The handle `create` picks is free to be any
nonzero handle that is not live. -/
def Spec (m : CapabilityMap) : CapabilityCall → CapabilityResult → CapabilityMap → Prop
  | .create o t op p r, .handle h, m' =>
    if ValidGrant ⟨o, t, op, p, r⟩ ∧ m.live.ncard < capabilityTableSize then
      h ≠ 0 ∧ h ∉ m.live ∧ m' = Function.update m h (some ⟨o, t, op, p, r⟩)
    else h = 0 ∧ m' = m
  | .revoke h, .accepted b, m' =>
    if h ∈ m.live then b = true ∧ m' = Function.update m h none else b = false ∧ m' = m
  | .check current h t op p r, .accepted b, m' =>
    m' = m ∧ (b = true ↔ ∃ k, m h = some k ∧ k.target = t ∧ k.operation = op ∧ k.resource = r ∧
      k.owner = current ∧ current ≠ 0 ∧ p ≠ 0 ∧ BitSubset p k.permissions)
  | _, _, _ => False

end CapabilityMap

/-! ## The representation -/

/-- The map a table stands for. -/
def capabilityMap (c : CapabilityTable) : CapabilityMap := fun h =>
  (liveEntry c h).map fun e => ⟨e.owner, e.target, e.operation, e.permissions, e.resource⟩

/-- The live part of the free stack is duplicate-free and is exactly the set of inactive slots. -/
structure FreeRep (c : CapabilityTable) : Prop where
  nodup : c.free.toList.Nodup
  mem_free : ∀ slot : BitVec 16,
    slot ∈ c.free.toList ↔ slot.toNat < capabilityTableSize ∧ (c.entries slot.toNat).active = false

theorem capabilityInit_freeRep : FreeRep capabilityInit := by
  have hcell : ∀ i < capabilityTableSize, (capabilityInit.free.cells i).toNat = capabilityTableSize - 1 - i := by
    intro i hi
    simp only [capabilityInit, capabilityTableSize, BitVec.toNat_ofNat] at *
    omega
  constructor
  · refine (List.nodup_map_iff_inj_on List.nodup_range).2 ?_
    intro i hi j hj hij
    have hi' : i < capabilityTableSize := List.mem_range.1 hi
    have hj' : j < capabilityTableSize := List.mem_range.1 hj
    have := congrArg BitVec.toNat hij
    rw [hcell i hi', hcell j hj'] at this
    omega
  · intro slot
    rw [ArrayStack.mem_toList]
    constructor
    · rintro ⟨i, hi, rfl⟩
      rw [hcell i hi]
      exact ⟨by simp only [capabilityTableSize]; omega, rfl⟩
    · rintro ⟨hs, -⟩
      refine ⟨capabilityTableSize - 1 - slot.toNat, by simp only [capabilityInit, capabilityTableSize]; omega, ?_⟩
      apply BitVec.eq_of_toNat_eq
      rw [hcell _ (by simp only [capabilityTableSize]; omega)]
      omega

section
variable {c : CapabilityTable}

theorem FreeRep.top_inactive (hr : FreeRep c) (hc : 0 < c.free.count) :
    c.free.top.toNat < capabilityTableSize ∧ (c.entries c.free.top.toNat).active = false := by
  apply (hr.mem_free _).1
  rw [ArrayStack.toList_eq_pop hc]
  simp

theorem FreeRep.mem_pop (hr : FreeRep c) (hc : 0 < c.free.count) (slot : BitVec 16) :
    slot ∈ c.free.pop.toList ↔ slot ∈ c.free.toList ∧ slot ≠ c.free.top := by
  have hn := hr.nodup
  rw [ArrayStack.toList_eq_pop hc, List.nodup_append] at hn
  rw [ArrayStack.toList_eq_pop hc]
  constructor
  · intro hm
    exact ⟨by simp [hm], fun heq => hn.2.2 slot hm _ (by simp) heq⟩
  · rintro ⟨hm, hne⟩
    simpa [hne] using hm

theorem FreeRep.create (hr : FreeRep c) (o t : ServiceId) (op : OperationId) (p : BitVec 32) (r : ResourceId) :
    FreeRep (capabilityCreate c o t op p r).1 := by
  by_cases h : Grantable o t op p r ∧ 0 < c.free.count
  · obtain ⟨hg, hc⟩ := h
    have hn := hr.nodup
    rw [ArrayStack.toList_eq_pop hc, List.nodup_append] at hn
    rw [capabilityCreate_granted hg hc]
    refine ⟨hn.1, fun slot => ?_⟩
    dsimp only
    rw [hr.mem_pop hc, hr.mem_free]
    by_cases hst : slot = c.free.top
    · subst hst; simp
    · have hidx : slot.toNat ≠ c.free.top.toNat := fun he => hst (BitVec.eq_of_toNat_eq he)
      simp [Function.update_of_ne hidx, hst]
  · rw [capabilityCreate_refused h]; exact hr

theorem FreeRep.revoke (hr : FreeRep c) (h : CapabilityHandle) : FreeRep (capabilityRevoke c h).1 := by
  cases hl : liveEntry c h with
  | none => rw [capabilityRevoke_refused hl]; exact hr
  | some e =>
    obtain ⟨slot, hs, rfl, hact, rfl⟩ := liveEntry_eq_some.1 hl
    rw [capabilityRevoke_live hs hact]
    have hnew : slot ∉ c.free.toList := fun hm => by simp [((hr.mem_free slot).1 hm).2] at hact
    refine ⟨?_, fun x => ?_⟩
    · dsimp only
      rw [ArrayStack.toList_push, List.nodup_append]
      refine ⟨hr.nodup, by simp, fun a ha b hb => ?_⟩
      rw [List.mem_singleton] at hb
      exact fun he => hnew (hb ▸ he ▸ ha)
    · dsimp only
      rw [ArrayStack.toList_push, List.mem_append, List.mem_singleton, hr.mem_free]
      by_cases hx : x = slot
      · subst hx; simp [hs, CapabilityEntry.cleared]
      · have hidx : x.toNat ≠ slot.toNat := fun he => hx (BitVec.eq_of_toNat_eq he)
        simp [Function.update_of_ne hidx, hx]

theorem FreeRep.step (hr : FreeRep c) (e : CapabilityCall) : FreeRep (capabilityStep c e) := by
  cases e with
  | create o t op p r => exact hr.create o t op p r
  | revoke h => exact hr.revoke h
  | check current h t op p r => exact hr

end

/-! ## Bit sets -/

theorem known_getLsbD (i : Nat) : knownPermissions.getLsbD i = decide (i < 6) := by
  have hk : knownPermissions = BitVec.ofNat 32 (2 ^ 6 - 1) := by decide
  rw [hk, BitVec.getLsbD_ofNat, Nat.testBit_two_pow_sub_one]
  by_cases hi : i < 6
  · simp [hi, show i < 32 by omega]
  · simp [hi]

theorem no_unknown_bit {p : BitVec 32} :
    p &&& ~~~knownPermissions = 0 ↔ ∀ i, p.getLsbD i = true → i < 6 := by
  constructor
  · intro h i hi
    have hbit := congrArg (fun w => BitVec.getLsbD w i) h
    simp only [BitVec.getLsbD_and, BitVec.getLsbD_not, BitVec.lt_of_getLsbD hi, known_getLsbD, hi] at hbit
    simpa using hbit
  · intro h
    apply BitVec.eq_of_getLsbD_eq
    intro i hi
    cases hp : p.getLsbD i with
    | false => simp [hp]
    | true => simp [hp, known_getLsbD, h i hp]

theorem bitSubset_iff {p q : BitVec 32} : CapabilityMap.BitSubset p q ↔ q &&& p = p := by
  constructor
  · intro h
    apply BitVec.eq_of_getLsbD_eq
    intro i _
    cases hp : p.getLsbD i with
    | false => simp [hp]
    | true => simp [hp, h i hp]
  · intro h i hi
    have hbit := congrArg (fun w => BitVec.getLsbD w i) h
    simpa [hi] using hbit

theorem grantable_iff {o t : ServiceId} {op : OperationId} {p : BitVec 32} {r : ResourceId} :
    Grantable o t op p r ↔ CapabilityMap.ValidGrant ⟨o, t, op, p, r⟩ := by
  simp only [Grantable, CapabilityMap.ValidGrant, no_unknown_bit]

/-! ## The map after each call -/

section
variable {c : CapabilityTable}

theorem liveEntry_makeHandle {slot : BitVec 16} (hs : slot.toNat < capabilityTableSize) (g : BitVec 16) :
    liveEntry c (makeHandle slot g) =
      if (c.entries slot.toNat).active = true ∧ (c.entries slot.toNat).generation = g
      then some (c.entries slot.toNat) else none := by
  unfold liveEntry
  rw [decodeHandle_eq_some.2 ⟨hs, rfl⟩]
  by_cases ha : (c.entries slot.toNat).active = true <;> simp [ha]

/-- Rewriting one slot changes the map at most at that slot's handles. -/
theorem liveEntry_update_of_ne {slot : BitVec 16} {e : CapabilityEntry} {f : ArrayStack (BitVec 16)}
    {h : CapabilityHandle} (hne : ∀ g, h ≠ makeHandle slot g) :
    liveEntry ⟨Function.update c.entries slot.toNat e, f⟩ h = liveEntry c h := by
  unfold liveEntry
  cases hd : decodeHandle h with
  | none => rfl
  | some sg =>
    obtain ⟨s, g⟩ := sg
    obtain ⟨hs, rfl⟩ := decodeHandle_eq_some.1 hd
    have hidx : s.toNat ≠ slot.toNat := fun he => hne g (by rw [BitVec.eq_of_toNat_eq he])
    simp [Function.update_of_ne hidx]

theorem capabilityMap_create {o t : ServiceId} {op : OperationId} {p : BitVec 32} {r : ResourceId}
    (hr : FreeRep c) (hg : Grantable o t op p r) (hc : 0 < c.free.count) :
    capabilityMap (capabilityCreate c o t op p r).1 =
      Function.update (capabilityMap c) (capabilityCreate c o t op p r).2 (some ⟨o, t, op, p, r⟩) := by
  obtain ⟨hs, hin⟩ := hr.top_inactive hc
  rw [capabilityCreate_granted hg hc]
  funext x
  by_cases hx : ∃ g, x = makeHandle c.free.top g
  · obtain ⟨g, rfl⟩ := hx
    simp only [capabilityMap, liveEntry_makeHandle hs, Function.update_self]
    by_cases hgen : (c.entries c.free.top.toNat).generation = g
    · subst hgen; simp
    · have hne : makeHandle c.free.top g ≠ makeHandle c.free.top (c.entries c.free.top.toNat).generation :=
        fun he => hgen (makeHandle_inj hs he hs).2.symm
      simp [hgen, Function.update_of_ne hne, capabilityMap, liveEntry_makeHandle hs, hin]
  · simp only [not_exists] at hx
    rw [Function.update_of_ne (hx _)]
    simp only [capabilityMap, liveEntry_update_of_ne hx]

theorem capabilityMap_revoke {slot : BitVec 16} (hs : slot.toNat < capabilityTableSize)
    (hact : (c.entries slot.toNat).active = true) :
    capabilityMap (capabilityRevoke c (makeHandle slot (c.entries slot.toNat).generation)).1 =
      Function.update (capabilityMap c) (makeHandle slot (c.entries slot.toNat).generation) none := by
  rw [capabilityRevoke_live hs hact]
  funext x
  by_cases hx : ∃ g, x = makeHandle slot g
  · obtain ⟨g, rfl⟩ := hx
    have hdead : capabilityMap ⟨Function.update c.entries slot.toNat
        (.cleared (nextGeneration (c.entries slot.toNat).generation)), c.free.push slot⟩ (makeHandle slot g) = none := by
      simp [capabilityMap, liveEntry_makeHandle hs, CapabilityEntry.cleared]
    rw [hdead]
    by_cases hgen : g = (c.entries slot.toNat).generation
    · subst hgen; simp
    · have hne : makeHandle slot g ≠ makeHandle slot (c.entries slot.toNat).generation :=
        fun he => hgen (makeHandle_inj hs he hs).2
      simp [Function.update_of_ne hne, capabilityMap, liveEntry_makeHandle hs, Ne.symm hgen]
  · simp only [not_exists] at hx
    rw [Function.update_of_ne (hx _)]
    simp only [capabilityMap, liveEntry_update_of_ne hx]

theorem mem_live {h : CapabilityHandle} : h ∈ (capabilityMap c).live ↔ (liveEntry c h).isSome := by
  simp [CapabilityMap.live, capabilityMap]

/-! ## Counting live handles -/

/-- The slots of the table, as the 16-bit numbers the code stores. -/
def slotSet : Set (BitVec 16) := {s | s.toNat < capabilityTableSize}

theorem slotSet_ncard : slotSet.ncard = capabilityTableSize := by
  have himg : slotSet = (Finset.range capabilityTableSize).image (BitVec.ofNat 16) := by
    ext s
    simp only [slotSet, Set.mem_ofPred_eq, Finset.coe_image, Finset.coe_range, Set.mem_image, Set.mem_Iio]
    constructor
    · intro hs; exact ⟨s.toNat, hs, by simp⟩
    · rintro ⟨i, hi, rfl⟩
      simp only [capabilityTableSize, BitVec.toNat_ofNat] at *
      omega
  rw [himg, Set.ncard_coe_finset, Finset.card_image_of_injOn, Finset.card_range]
  intro i hi j hj hij
  simp only [Finset.coe_range, Set.mem_Iio, capabilityTableSize] at hi hj
  have := congrArg BitVec.toNat hij
  simp only [BitVec.toNat_ofNat] at this
  omega

theorem slotSet_finite : slotSet.Finite :=
  Set.finite_of_ncard_pos (by rw [slotSet_ncard]; decide)

/-- The live handles are one per active slot. -/
theorem live_eq_image : (capabilityMap c).live =
    (fun s : BitVec 16 => makeHandle s (c.entries s.toNat).generation) ''
      {s | s ∈ slotSet ∧ (c.entries s.toNat).active = true} := by
  ext h
  rw [mem_live, Option.isSome_iff_exists]
  constructor
  · rintro ⟨e, he⟩
    obtain ⟨slot, hs, rfl, hact, rfl⟩ := liveEntry_eq_some.1 he
    exact ⟨slot, ⟨hs, hact⟩, rfl⟩
  · rintro ⟨slot, ⟨hs, hact⟩, rfl⟩
    exact ⟨_, liveEntry_eq_some.2 ⟨slot, hs, rfl, hact, rfl⟩⟩

theorem live_ncard : (capabilityMap c).live.ncard =
    {s | s ∈ slotSet ∧ (c.entries s.toNat).active = true}.ncard := by
  rw [live_eq_image]
  apply Set.InjOn.ncard_image
  rintro s ⟨hs, -⟩ s' ⟨hs', -⟩ he
  exact (makeHandle_inj hs he hs').1

/-- A free slot is left exactly when fewer than 4096 handles are live. -/
theorem FreeRep.count_pos_iff (hr : FreeRep c) :
    0 < c.free.count ↔ (capabilityMap c).live.ncard < capabilityTableSize := by
  rw [live_ncard, ← slotSet_ncard]
  constructor
  · intro hc
    obtain ⟨hs, hin⟩ := hr.top_inactive hc
    apply Set.ncard_lt_ncard _ slotSet_finite
    refine ⟨fun s hs => hs.1, fun hsub => ?_⟩
    have := (hsub hs : c.free.top ∈ slotSet ∧ _).2
    simp [hin] at this
  · intro hlt
    rw [Nat.pos_iff_ne_zero]
    intro h0
    have hall : slotSet ⊆ {s | s ∈ slotSet ∧ (c.entries s.toNat).active = true} := by
      intro s hs
      refine ⟨hs, ?_⟩
      have hnm : s ∉ c.free.toList := by simp [ArrayStack.toList, h0]
      cases ha : (c.entries s.toNat).active with
      | true => rfl
      | false => exact absurd ((hr.mem_free s).2 ⟨hs, ha⟩) hnm
    have := Set.ncard_le_ncard hall (slotSet_finite.subset fun s hs => hs.1)
    omega

/-- One call of the code is one call of the abstract map, with the same result. -/
theorem capability_simulates (hr : FreeRep c) (e : CapabilityCall) :
    CapabilityMap.Spec (capabilityMap c) e (capabilityResult c e) (capabilityMap (capabilityStep c e)) := by
  cases e with
  | create o t op p r =>
    simp only [capabilityResult, capabilityStep, CapabilityMap.Spec]
    have hcond : (Grantable o t op p r ∧ 0 < c.free.count) ↔ CapabilityMap.ValidGrant ⟨o, t, op, p, r⟩ ∧
        (capabilityMap c).live.ncard < capabilityTableSize := by rw [grantable_iff, hr.count_pos_iff]
    by_cases h : Grantable o t op p r ∧ 0 < c.free.count
    · obtain ⟨hs, hin⟩ := hr.top_inactive h.2
      rw [if_pos (hcond.1 h), capabilityMap_create hr h.1 h.2]
      rw [capabilityCreate_granted h.1 h.2]
      refine ⟨makeHandle_ne_zero hs _, ?_, rfl⟩
      simp [mem_live, liveEntry_makeHandle hs, hin]
    · rw [if_neg (fun hv => h (hcond.2 hv)), capabilityCreate_refused h]
      exact ⟨rfl, rfl⟩
  | revoke h =>
    simp only [capabilityResult, capabilityStep, CapabilityMap.Spec, mem_live]
    cases hl : liveEntry c h with
    | none => simp [capabilityRevoke_refused hl]
    | some e =>
      obtain ⟨slot, hs, rfl, hact, rfl⟩ := liveEntry_eq_some.1 hl
      rw [capabilityMap_revoke hs hact, capabilityRevoke_live hs hact]
      simp
  | check current h t op p r =>
    simp only [capabilityResult, capabilityStep, CapabilityMap.Spec, true_and, capabilityCheck_eq_true]
    constructor
    · rintro ⟨e, hl, hp, hcur, ho, ht, hop, hres, hperm⟩
      refine ⟨⟨e.owner, e.target, e.operation, e.permissions, e.resource⟩, ?_, ht, hop, hres, ho, hcur, hp,
        bitSubset_iff.2 hperm⟩
      simp only [capabilityMap, hl, Option.map_some]
    · rintro ⟨k, hk, ht, hop, hres, ho, hcur, hp, hperm⟩
      simp only [capabilityMap, Option.map_eq_some_iff] at hk
      obtain ⟨e, hl, rfl⟩ := hk
      exact ⟨e, hl, hp, hcur, ho, ht, hop, hres, bitSubset_iff.1 hperm⟩

end

theorem capabilityMap_init : capabilityMap capabilityInit = fun _ => none := by
  funext h
  unfold capabilityMap liveEntry
  cases decodeHandle h with
  | none => rfl
  | some sg => simp [capabilityInit, CapabilityEntry.cleared]

/-- **The table and its free stack refine the finite map**: every run of `create`, `revoke` and
`check` calls after `lettuce_capability_init` is, call by call and result by result, a run of
the abstract map from the empty map, and `capabilityMap` reads the current map off the table. -/
theorem capability_table_refines_map {h : List (CapabilityTable × CapabilityCall)} {c : CapabilityTable}
    (r : Run anyStep capabilityStep capabilityInit h c) :
    SpecRun CapabilityMap.Spec (fun _ => none) (h.map fun p => (p.2, capabilityResult p.1 p.2)) (capabilityMap c) := by
  rw [← capabilityMap_init]
  exact r.refines (I := FreeRep) capabilityInit_freeRep (fun c e _ hr => hr.step e)
    (fun c e _ hr => capability_simulates hr e)

/-- A grant and a check under it: the run exists, so the refinement speaks about it. -/
theorem capability_table_refines_map_grant :
    SpecRun CapabilityMap.Spec (fun _ => none)
      [(.check 10 0x00010001 20 1 1 30, .accepted true), (.create 10 20 1 3 30, .handle 0x00010001)]
      (capabilityMap (capabilityCreate capabilityInit 10 20 1 3 30).1) := by
  have r : Run anyStep capabilityStep capabilityInit _ _ :=
    Run.next (Run.next Run.start (.create 10 20 1 3 30) trivial) (.check 10 0x00010001 20 1 1 30) trivial
  have h1 : capabilityResult capabilityInit (.create 10 20 1 3 30) = .handle 0x00010001 := by decide
  have h2 : capabilityResult (capabilityCreate capabilityInit 10 20 1 3 30).1 (.check 10 0x00010001 20 1 1 30) =
      .accepted true := by decide
  simpa only [List.map_cons, List.map_nil, capabilityStep, h1, h2] using capability_table_refines_map r

end Lettuce
