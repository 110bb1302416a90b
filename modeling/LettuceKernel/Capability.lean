import LettuceKernel.Types
import LettuceKernel.Lib.ArrayStack
import LettuceKernel.Lib.SlotHandle
/-!
# The supervisor capability table (`kernel/main/capability.c`)

| here | there |
| --- | --- |
| `CapabilityEntry`   | `LettuceCapabilityEntry` (capability_internal.h:38), without the pad byte |
| `CapabilityTable`   | `capability_table`, `free_slots` and `free_slot_count` (capability.c:42-44) |
| `makeHandle`, `decodeHandle` | capability.c:46, :52 |
| `capabilityInit`    | `lettuce_capability_init` (capability.c:71) |
| `capabilityCreate`  | `lettuce_capability_create` (capability.c:87) |
| `capabilityRevoke`  | `lettuce_capability_revoke` (capability.c:117) |
| `capabilityCheck`   | `lettuce_capability_check` (capability.c:145); the current service id is an argument |

The table is a function of the slot number; only slots below `capabilityTableSize` are ever
decoded from a handle. The free stack is the array `free_slots` with its counter.
-/

namespace Lettuce

/-- `LETTUCE_CAPABILITY_TABLE_SIZE` (capability_internal.h:23). -/
def capabilityTableSize : Nat := 4096

def capCall : BitVec 32 := 1#32 <<< 0
def capRead : BitVec 32 := 1#32 <<< 1
def capWrite : BitVec 32 := 1#32 <<< 2
def capMap : BitVec 32 := 1#32 <<< 3
def capSignal : BitVec 32 := 1#32 <<< 4
def capCritical : BitVec 32 := 1#32 <<< 5

/-- `LETTUCE_CAPABILITY_KNOWN_PERMISSIONS` (capability.c:38). -/
def knownPermissions : BitVec 32 :=
  capCall ||| capRead ||| capWrite ||| capMap ||| capSignal ||| capCritical

structure CapabilityEntry where
  generation : BitVec 16
  active : Bool
  owner : ServiceId
  target : ServiceId
  operation : OperationId
  resource : ResourceId
  permissions : BitVec 32
deriving DecidableEq, Repr

structure CapabilityTable where
  entries : Nat → CapabilityEntry
  free : ArrayStack (BitVec 16)

def makeHandle (slot generation : BitVec 16) : CapabilityHandle :=
  PackedWord.pack generation (slot.setWidth 32 + 1)

/-- Slot and generation of a handle; `none` is the C function's `false`. -/
def decodeHandle (handle : CapabilityHandle) : Option (BitVec 16 × BitVec 16) :=
  if handle = 0 then none
  else
    let encodedSlot := PackedWord.low handle
    if encodedSlot = 0 then none
    else
      let decodedSlot := encodedSlot - 1
      if decodedSlot.toNat ≥ capabilityTableSize then none
      else some (decodedSlot.setWidth 16, PackedWord.high handle)

/-- The entry value both `lettuce_capability_init` and the zeroed fields of `revoke` write. -/
def CapabilityEntry.cleared (generation : BitVec 16) : CapabilityEntry :=
  { generation, active := false, owner := 0, target := 0, operation := 0, resource := 0, permissions := 0 }

def capabilityInit : CapabilityTable where
  entries := fun _ => .cleared 1
  free := { cells := fun i => BitVec.ofNat 16 (capabilityTableSize - 1 - i), count := capabilityTableSize }

/-- The static storage before `lettuce_capability_init` runs: all zero, no free slot. -/
def capabilityBoot : CapabilityTable where
  entries := fun _ => .cleared 0
  free := { cells := fun _ => 0, count := 0 }

def capabilityCreate (c : CapabilityTable) (owner target : ServiceId) (operation : OperationId)
    (permissions : BitVec 32) (resource : ResourceId) : CapabilityTable × CapabilityHandle :=
  if owner = 0 ∨ target = 0 ∨ operation = 0 ∨ resource = 0 then (c, 0)
  else if permissions = 0 ∨ permissions &&& ~~~knownPermissions ≠ 0 then (c, 0)
  else if c.free.count = 0 then (c, 0)
  else
    let slot := c.free.top
    let entry := c.entries slot.toNat
    ({ entries := Function.update c.entries slot.toNat
         { entry with owner, target, operation, resource, permissions, active := true }
       free := c.free.pop },
     makeHandle slot entry.generation)

/-- `entry->generation += 1u; if (entry->generation == 0u) entry->generation = 1u;` -/
def nextGeneration (g : BitVec 16) : BitVec 16 := if g + 1 = 0 then 1 else g + 1

def capabilityRevoke (c : CapabilityTable) (handle : CapabilityHandle) : CapabilityTable × Bool :=
  match decodeHandle handle with
  | none => (c, false)
  | some (slot, generation) =>
    let entry := c.entries slot.toNat
    if !entry.active || entry.generation != generation then (c, false)
    else
      ({ entries := Function.update c.entries slot.toNat (.cleared (nextGeneration entry.generation))
         free := c.free.push slot }, true)

def capabilityCheck (c : CapabilityTable) (currentServiceId : ServiceId) (handle : CapabilityHandle)
    (target : ServiceId) (operation : OperationId) (permission : BitVec 32) (resource : ResourceId) : Bool :=
  if permission = 0 then false
  else match decodeHandle handle with
    | none => false
    | some (slot, generation) =>
      let entry := c.entries slot.toNat
      if !entry.active || entry.generation != generation then false
      else if currentServiceId = 0 then false
      else if entry.owner ≠ currentServiceId then false
      else if entry.target ≠ target then false
      else if entry.operation ≠ operation then false
      else if resource ≠ entry.resource then false
      else if entry.permissions &&& permission ≠ permission then false
      else true

/-! ## Generations -/

theorem nextGeneration_ne_zero (g : BitVec 16) : nextGeneration g ≠ 0 := by
  unfold nextGeneration
  split
  · decide
  · assumption

theorem nextGeneration_toNat {g : BitVec 16} (hg : g ≠ 0xFFFF) : (nextGeneration g).toNat = g.toNat + 1 := by
  have hlt : g.toNat + 1 < 65536 := by
    have hl := g.isLt
    have hne : g.toNat ≠ 65535 := fun he => hg (BitVec.eq_of_toNat_eq (by simpa using he))
    omega
  have hsum : (g + 1).toNat = g.toNat + 1 := by
    rw [BitVec.toNat_add, show (1 : BitVec 16).toNat = 1 from rfl, Nat.mod_eq_of_lt (by omega)]
  have hne : g + 1 ≠ 0 := fun h0 => by rw [h0] at hsum; simp at hsum
  rw [nextGeneration, if_neg hne, hsum]

/-! ## The handle codec -/

/-- The handles are those of `SlotHandle`, with the slot in 16 bits. -/
theorem makeHandle_eq (slot g : BitVec 16) : makeHandle slot g = SlotHandle.make slot.toNat g := by
  have hslot : slot.setWidth 32 + 1 = BitVec.ofNat 32 (slot.toNat + 1) := by
    apply BitVec.eq_of_toNat_eq
    have hlt := slot.isLt
    rw [BitVec.toNat_add, BitVec.toNat_setWidth, BitVec.toNat_ofNat, show (1 : BitVec 32).toNat = 1 from rfl]
    omega
  rw [makeHandle, SlotHandle.make, hslot]

theorem decodeHandle_eq (handle : CapabilityHandle) :
    decodeHandle handle =
      (SlotHandle.decode capabilityTableSize handle).map fun x => (BitVec.ofNat 16 x.1, x.2) := by
  unfold decodeHandle SlotHandle.decode
  by_cases h0 : handle = 0
  · rw [if_pos h0, if_pos (Or.inl h0), Option.map_none]
  · by_cases henc : PackedWord.low handle = 0
    · simp only [if_neg h0, if_pos henc, if_pos (show handle = 0 ∨ PackedWord.low handle = 0 from Or.inr henc),
        Option.map_none]
    · have hne : ¬ (handle = 0 ∨ PackedWord.low handle = 0) := fun h => h.elim h0 henc
      simp only [if_neg h0, if_neg henc, if_neg hne]
      by_cases hsize : (PackedWord.low handle - 1).toNat < capabilityTableSize
      · rw [if_neg (by omega), if_pos hsize, Option.map_some]
        rfl
      · rw [if_pos (by omega), if_neg hsize, Option.map_none]

theorem makeHandle_toNat {slot : BitVec 16} (hs : slot.toNat < capabilityTableSize) (g : BitVec 16) :
    (makeHandle slot g).toNat = g.toNat * 65536 + (slot.toNat + 1) := by
  rw [makeHandle_eq, SlotHandle.make_toNat (by unfold capabilityTableSize at hs; omega)]

/-- A handle decodes exactly when it was built from a slot of the table. -/
theorem decodeHandle_eq_some {handle : CapabilityHandle} {slot g : BitVec 16} :
    decodeHandle handle = some (slot, g) ↔ slot.toNat < capabilityTableSize ∧ handle = makeHandle slot g := by
  rw [decodeHandle_eq, makeHandle_eq, Option.map_eq_some_iff]
  constructor
  · rintro ⟨⟨s, c⟩, hdecode, heq⟩
    obtain ⟨hs, rfl⟩ := (SlotHandle.decode_eq_some (by decide)).1 hdecode
    obtain ⟨rfl, rfl⟩ := Prod.mk.inj heq
    have hslot : (BitVec.ofNat 16 s).toNat = s := by
      unfold capabilityTableSize at hs
      rw [BitVec.toNat_ofNat]
      omega
    rw [hslot]
    exact ⟨hs, rfl⟩
  · rintro ⟨hs, rfl⟩
    refine ⟨(slot.toNat, g), (SlotHandle.decode_eq_some (by decide)).2 ⟨hs, rfl⟩, ?_⟩
    rw [BitVec.ofNat_toNat, BitVec.setWidth_eq]

theorem makeHandle_ne_zero {slot : BitVec 16} (hs : slot.toNat < capabilityTableSize) (g : BitVec 16) :
    makeHandle slot g ≠ 0 := by
  intro h0
  have hmk := makeHandle_toNat hs g
  rw [h0, show (0 : BitVec 32).toNat = 0 from rfl] at hmk
  omega

theorem makeHandle_inj {s s' g g' : BitVec 16} (hs : s.toNat < capabilityTableSize)
    (h : makeHandle s g = makeHandle s' g') (hs' : s'.toNat < capabilityTableSize) : s = s' ∧ g = g' := by
  have h1 : decodeHandle (makeHandle s g) = some (s, g) := decodeHandle_eq_some.2 ⟨hs, rfl⟩
  rw [decodeHandle_eq_some.2 ⟨hs', h⟩] at h1
  simp only [Option.some.injEq, Prod.mk.injEq] at h1
  exact ⟨h1.1.symm, h1.2.symm⟩

/-! ## One equation per operation -/

/-- The entry a handle names: decoded slot, active, same generation. -/
def liveEntry (c : CapabilityTable) (handle : CapabilityHandle) : Option CapabilityEntry :=
  match decodeHandle handle with
  | none => none
  | some (slot, generation) =>
    let entry := c.entries slot.toNat
    if !entry.active || entry.generation != generation then none else some entry

theorem liveEntry_eq_some {c : CapabilityTable} {handle : CapabilityHandle} {e : CapabilityEntry} :
    liveEntry c handle = some e ↔ ∃ slot : BitVec 16, slot.toNat < capabilityTableSize ∧
      c.entries slot.toNat = e ∧ e.active = true ∧ handle = makeHandle slot e.generation := by
  unfold liveEntry
  constructor
  · intro h
    split at h
    · cases h
    · rename_i slot g hd
      obtain ⟨hs, rfl⟩ := decodeHandle_eq_some.1 hd
      dsimp only at h
      split at h
      · cases h
      · rename_i hact
        simp only [Bool.not_eq_true, Bool.or_eq_false_iff, Bool.not_eq_false', bne_eq_false_iff_eq] at hact
        cases h
        exact ⟨slot, hs, rfl, hact.1, by rw [hact.2]⟩
  · rintro ⟨slot, hs, rfl, hact, rfl⟩
    rw [decodeHandle_eq_some.2 ⟨hs, rfl⟩]
    simp [hact]

/-- What `lettuce_capability_create` demands of its arguments. -/
def Grantable (owner target : ServiceId) (operation : OperationId) (permissions : BitVec 32)
    (resource : ResourceId) : Prop :=
  owner ≠ 0 ∧ target ≠ 0 ∧ operation ≠ 0 ∧ resource ≠ 0 ∧ permissions ≠ 0 ∧
    permissions &&& ~~~knownPermissions = 0

instance (o t : ServiceId) (op : OperationId) (p : BitVec 32) (r : ResourceId) : Decidable (Grantable o t op p r) :=
  inferInstanceAs (Decidable (_ ∧ _))

section
variable {c : CapabilityTable} {owner target current : ServiceId} {operation : OperationId}
  {permissions : BitVec 32} {resource : ResourceId} {handle : CapabilityHandle}

theorem capabilityCreate_refused (h : ¬ (Grantable owner target operation permissions resource ∧ 0 < c.free.count)) :
    capabilityCreate c owner target operation permissions resource = (c, 0) := by
  unfold capabilityCreate
  split
  · rfl
  · split
    · rfl
    · split
      · rfl
      · rename_i h1 h2 h3
        simp only [not_or, not_not] at h1 h2
        exact absurd ⟨⟨h1.1, h1.2.1, h1.2.2.1, h1.2.2.2, h2.1, h2.2⟩, by omega⟩ h

theorem capabilityCreate_granted (hg : Grantable owner target operation permissions resource)
    (hc : 0 < c.free.count) :
    capabilityCreate c owner target operation permissions resource =
      ({ entries := Function.update c.entries c.free.top.toNat
           { generation := (c.entries c.free.top.toNat).generation, active := true,
             owner, target, operation, resource, permissions }
         free := c.free.pop },
       makeHandle c.free.top (c.entries c.free.top.toNat).generation) := by
  obtain ⟨h1, h2, h3, h4, h5, h6⟩ := hg
  have hids : ¬ (owner = 0 ∨ target = 0 ∨ operation = 0 ∨ resource = 0) := by simp only [not_or]; exact ⟨h1, h2, h3, h4⟩
  have hperm : ¬ (permissions = 0 ∨ permissions &&& ~~~knownPermissions ≠ 0) := by
    simp only [not_or, not_not]; exact ⟨h5, h6⟩
  unfold capabilityCreate
  rw [if_neg hids, if_neg hperm, if_neg (by omega)]

theorem capabilityRevoke_refused (h : liveEntry c handle = none) : capabilityRevoke c handle = (c, false) := by
  unfold liveEntry at h
  unfold capabilityRevoke
  split at h
  · rfl
  · dsimp only at h ⊢
    split at h
    · rename_i hbad; simp only [hbad, ↓reduceIte]
    · cases h

/-- A live handle is revoked: its slot is cleared, the generation moves on, the slot is free. -/
theorem capabilityRevoke_live {slot : BitVec 16} (hs : slot.toNat < capabilityTableSize)
    (hact : (c.entries slot.toNat).active = true) :
    capabilityRevoke c (makeHandle slot (c.entries slot.toNat).generation) =
      ({ entries := Function.update c.entries slot.toNat
           (.cleared (nextGeneration (c.entries slot.toNat).generation))
         free := c.free.push slot }, true) := by
  unfold capabilityRevoke
  rw [decodeHandle_eq_some.2 ⟨hs, rfl⟩]
  simp [hact]

theorem capabilityRevoke_eq_true : (capabilityRevoke c handle).2 = true ↔ (liveEntry c handle).isSome := by
  cases hl : liveEntry c handle with
  | none => simp [capabilityRevoke_refused hl]
  | some e =>
    obtain ⟨slot, hs, rfl, hact, rfl⟩ := liveEntry_eq_some.1 hl
    simp [capabilityRevoke_live hs hact]

/-- `lettuce_capability_check` reads the live entry and compares every field. -/
theorem capabilityCheck_eq_true :
    capabilityCheck c current handle target operation permissions resource = true ↔
      ∃ e, liveEntry c handle = some e ∧ permissions ≠ 0 ∧ current ≠ 0 ∧ e.owner = current ∧ e.target = target ∧
        e.operation = operation ∧ e.resource = resource ∧ e.permissions &&& permissions = permissions := by
  unfold capabilityCheck liveEntry
  by_cases hp : permissions = 0
  · simp [hp]
  · rw [if_neg hp]
    cases decodeHandle handle with
    | none => simp
    | some sg =>
      obtain ⟨slot, g⟩ := sg
      dsimp only
      by_cases hlive : (!(c.entries slot.toNat).active || (c.entries slot.toNat).generation != g) = true
      · simp [hlive]
      · rw [if_neg hlive, if_neg hlive]
        simp only [Option.some.injEq, exists_eq_left']
        grind

end

end Lettuce
