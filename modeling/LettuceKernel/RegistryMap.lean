import LettuceKernel.Registry
import LettuceKernel.Lib.Run
/-!
# Registry and dispatch table as one finite map

The abstract component is a pair of maps (`ServiceMap`): service ids to descriptors, and pairs
of a service and an operation to the address of a non-null entry. `ServiceMap.call` says what
each call does to it and answers. The 256 x 64 cells refine it: `ServiceTable.toMap` reads the
maps off the cells, with none of the guards of the C lookups, and every run of calls from
`lettuce_service_registry_init` is a run of the abstract machine with the same answers.

`ServiceTable.WellFormed` is the representation invariant, and what the call gates rely on
without checking it: an active operation has a non-null entry and belongs to a registered
service that is active, and a slot that is not registered is all zero.
-/

namespace Lettuce

open Runs

/-- A call of the registry or dispatch interface. -/
inductive RegistryCall where
  | register (d : ServiceDescriptor)
  | unregister (id : ServiceId)
  | dispatchRegister (id : ServiceId) (op : OperationId) (entry : Reg)
  | dispatchUnregister (id : ServiceId) (op : OperationId)
  | lookup (id : ServiceId)
  | entry (id : ServiceId)
  | dispatchLookup (id : ServiceId) (op : OperationId)
deriving DecidableEq, Repr

/-- What a call returns; of a pointer, what it points to. -/
inductive RegistryAnswer where
  | flag (b : Bool)
  | descriptor (d : Option ServiceDescriptor)
  | entry (e : Option RegistryEntry)
  | operation (e : Option DispatchEntry)

def registryCallStep (s : ServiceTable) : RegistryCall → ServiceTable
  | .register d => (registryRegister s d).1
  | .unregister id => (registryUnregister s id).1
  | .dispatchRegister id op entry => (dispatchRegister s id op entry).1
  | .dispatchUnregister id op => (dispatchUnregister s id op).1
  | _ => s

def registryCallAnswer (s : ServiceTable) : RegistryCall → RegistryAnswer
  | .register d => .flag (registryRegister s d).2
  | .unregister id => .flag (registryUnregister s id).2
  | .dispatchRegister id op entry => .flag (dispatchRegister s id op entry).2
  | .dispatchUnregister id op => .flag (dispatchUnregister s id op).2
  | .lookup id => .descriptor (registryLookup s id)
  | .entry id => .entry (registryEntry s id)
  | .dispatchLookup id op => .operation (dispatchLookup s id op)

/-! ## The abstract component -/

@[ext]
structure ServiceMap where
  services : ServiceId → Option ServiceDescriptor
  operations : ServiceId → OperationId → Option Reg

namespace ServiceMap

def empty : ServiceMap := { services := fun _ => none, operations := fun _ _ => none }

def insert (m : ServiceMap) (d : ServiceDescriptor) : ServiceMap :=
  { m with services := Function.update m.services d.id (some d) }

/-- A service goes with all its operations. -/
def erase (m : ServiceMap) (id : ServiceId) : ServiceMap :=
  { services := Function.update m.services id none, operations := Function.update m.operations id fun _ => none }

def setOperation (m : ServiceMap) (id : ServiceId) (op : OperationId) (entry : Option Reg) : ServiceMap :=
  { m with operations := Function.update m.operations id (Function.update (m.operations id) op entry) }

/-- The 64 cells of a service, as the table holds them. -/
def cells (ops : OperationId → Option Reg) (j : Nat) : DispatchEntry :=
  match if j < dispatchOperationLimit then ops (BitVec.ofNat 32 j) else none with
  | some entry => { entry, active := true }
  | none => .zero

/-- What `dispatch_register` asks for beyond its service being registered. -/
def Dispatchable (m : ServiceMap) (id : ServiceId) (op : OperationId) (entry : Reg) : Prop :=
  ∃ d, m.services id = some d ∧ d.isActive = true ∧ op ≠ 0 ∧ op.toNat < dispatchOperationLimit ∧ entry ≠ 0 ∧
    m.operations id op = none

open Classical in
/-- One call on the maps. -/
noncomputable def call (m : ServiceMap) : RegistryCall → ServiceMap × RegistryAnswer
  | .register d =>
    if Registrable d ∧ m.services d.id = none then (m.insert d, .flag true) else (m, .flag false)
  | .unregister id => if m.services id ≠ none then (m.erase id, .flag true) else (m, .flag false)
  | .dispatchRegister id op entry =>
    if m.Dispatchable id op entry then (m.setOperation id op (some entry), .flag true) else (m, .flag false)
  | .dispatchUnregister id op =>
    if m.operations id op ≠ none then (m.setOperation id op none, .flag true) else (m, .flag false)
  | .lookup id => (m, .descriptor (m.services id))
  | .entry id => (m, .entry ((m.services id).map fun d => { descriptor := d, operations := cells (m.operations id) }))
  | .dispatchLookup id op => (m, .operation ((m.operations id op).map fun entry => { entry, active := true }))

def Spec (m : ServiceMap) (c : RegistryCall) (a : RegistryAnswer) (m' : ServiceMap) : Prop := m.call c = (m', a)

/-- `m'` is `m` changed the way the call asks for. -/
def Changed (m : ServiceMap) : RegistryCall → ServiceMap → Prop
  | .register d, m' => m.services d.id = none ∧ m' = m.insert d
  | .unregister id, m' => m.services id ≠ none ∧ m' = m.erase id
  | .dispatchRegister id op entry, m' => m.operations id op = none ∧ m' = m.setOperation id op (some entry)
  | .dispatchUnregister id op, m' => m.operations id op ≠ none ∧ m' = m.setOperation id op none
  | _, _ => False

end ServiceMap

/-! ## The representation -/

namespace ServiceTable

def toMap (s : ServiceTable) : ServiceMap where
  services := fun id =>
    if id.toNat < serviceTableSize ∧ (s id.toNat).descriptor.id ≠ 0 then some (s id.toNat).descriptor else none
  operations := fun id op =>
    if id.toNat < serviceTableSize ∧ op.toNat < dispatchOperationLimit ∧
      ((s id.toNat).operations op.toNat).active = true then some ((s id.toNat).operations op.toNat).entry else none

end ServiceTable

/-- What slot `i` of the table may hold. -/
structure RegistryEntry.WellFormed (i : Nat) (e : RegistryEntry) : Prop where
  /-- Id 0 or id `i`. -/
  slot : e.descriptor.id ≠ 0 → e.descriptor.id.toNat = i ∧ i < serviceTableSize
  layer : e.descriptor.layer ≤ layerL4
  /-- An active operation is in range, has an entry and belongs to an active service. -/
  operation : ∀ j, (e.operations j).active = true → j ≠ 0 ∧ j < dispatchOperationLimit ∧ (e.operations j).entry ≠ 0 ∧
    e.descriptor.id ≠ 0 ∧ e.descriptor.isActive = true
  /-- A slot that is not registered is all zero. -/
  unregistered : e.descriptor.id = 0 → e = .zero
  /-- So is the cell of an operation that is not active. -/
  inactive : ∀ j, (e.operations j).active = false → e.operations j = .zero

def ServiceTable.WellFormed (s : ServiceTable) : Prop := ∀ i, (s i).WellFormed i

theorem RegistryEntry.zero_wellFormed (i : Nat) : RegistryEntry.zero.WellFormed i where
  slot := fun h => absurd rfl h
  layer := show (0 : BitVec 8) ≤ layerL4 by decide
  operation := fun _ h => by cases h
  unregistered := fun _ => rfl
  inactive := fun _ _ => rfl

section
variable {s : ServiceTable} {id : ServiceId} {op : OperationId}

namespace ServiceTable

/-- Slot 0 is never registered. -/
theorem WellFormed.slotZero (hw : s.WellFormed) : s 0 = .zero := by
  apply (hw 0).unregistered
  by_contra hne
  exact hne (BitVec.eq_of_toNat_eq ((hw 0).slot hne).1)

theorem toMap_services_eq_some {d : ServiceDescriptor} :
    s.toMap.services id = some d ↔ id.toNat < serviceTableSize ∧ d.id ≠ 0 ∧ (s id.toNat).descriptor = d := by
  simp only [toMap]
  split
  · rename_i h
    rw [Option.some.injEq]
    exact ⟨fun he => he ▸ ⟨h.1, h.2, rfl⟩, fun he => he.2.2⟩
  · rename_i h
    constructor
    · intro he
      cases he
    · rintro ⟨hsz, h0, rfl⟩
      exact absurd ⟨hsz, h0⟩ h

theorem toMap_operations_eq_some {entry : Reg} :
    s.toMap.operations id op = some entry ↔
      id.toNat < serviceTableSize ∧ op.toNat < dispatchOperationLimit ∧
        (s id.toNat).operations op.toNat = { entry, active := true } := by
  simp only [toMap]
  split
  · rename_i h
    rw [Option.some.injEq]
    refine ⟨fun he => ⟨h.1, h.2.1, ?_⟩, fun he => by rw [he.2.2]⟩
    rw [← he, ← h.2.2]
  · rename_i h
    constructor
    · intro he
      cases he
    · rintro ⟨hsz, hop, hcell⟩
      exact absurd ⟨hsz, hop, by rw [hcell]⟩ h

/-! ## The lookups read the map -/

theorem WellFormed.registryLookup_eq (hw : s.WellFormed) (id : ServiceId) :
    registryLookup s id = s.toMap.services id := by
  apply Option.ext
  intro d
  rw [registryLookup_eq_some, toMap_services_eq_some]
  constructor
  · rintro ⟨h0, hsz, hd, hs⟩
    exact ⟨hsz, by rw [hd]; exact h0, hs⟩
  · rintro ⟨hsz, h0, hs⟩
    have hid : d.id = id := by
      rw [← hs] at h0 ⊢
      exact BitVec.eq_of_toNat_eq ((hw _).slot h0).1
    exact ⟨hid ▸ h0, hsz, hid, hs⟩

theorem WellFormed.dispatchLookup_eq (hw : s.WellFormed) (id : ServiceId) (op : OperationId) :
    dispatchLookup s id op = (s.toMap.operations id op).map fun entry => { entry, active := true } := by
  apply Option.ext
  intro e
  rw [dispatchLookup_eq_some, Option.map_eq_some_iff]
  constructor
  · rintro ⟨-, hop, hreg, he, hact⟩
    obtain ⟨d, hd⟩ := Option.isSome_iff_exists.1 hreg
    have hsz := (registryLookup_eq_some.1 hd).2.1
    exact ⟨e.entry, toMap_operations_eq_some.2 ⟨hsz, hop, by rw [he, ← hact]⟩, by rw [← hact]⟩
  · rintro ⟨entry, hentry, rfl⟩
    obtain ⟨hsz, hop, hcell⟩ := toMap_operations_eq_some.1 hentry
    obtain ⟨hj, -, -, hid, -⟩ := (hw id.toNat).operation op.toNat (by rw [hcell])
    refine ⟨fun h0 => hj (by rw [h0]; rfl), hop, ?_, hcell, rfl⟩
    rw [hw.registryLookup_eq, toMap_services_eq_some.2 ⟨hsz, hid, rfl⟩]
    rfl

theorem WellFormed.cells_eq (hw : s.WellFormed) (hsz : id.toNat < serviceTableSize) :
    ServiceMap.cells (s.toMap.operations id) = (s id.toNat).operations := by
  funext j
  have hzero : ((s id.toNat).operations j).active = false ∨ ((s id.toNat).operations j).active = true := by
    cases ((s id.toNat).operations j).active <;> simp
  rcases hzero with hf | ht
  · have hnone : (if j < dispatchOperationLimit then s.toMap.operations id (BitVec.ofNat 32 j) else none) = none := by
      split
      · rename_i hj
        have hmod : (BitVec.ofNat 32 j).toNat = j := by
          simp only [dispatchOperationLimit] at hj
          rw [BitVec.toNat_ofNat]
          omega
        simp [toMap, hmod, hf]
      · rfl
    simp only [ServiceMap.cells, hnone]
    exact ((hw _).inactive _ hf).symm
  · obtain ⟨-, hj, -, -, -⟩ := (hw _).operation _ ht
    have hmod : (BitVec.ofNat 32 j).toNat = j := by
      simp only [dispatchOperationLimit] at hj
      rw [BitVec.toNat_ofNat]
      omega
    simp only [ServiceMap.cells, hj, ↓reduceIte]
    have hsome : s.toMap.operations id (BitVec.ofNat 32 j) = some ((s id.toNat).operations j).entry := by
      rw [toMap_operations_eq_some, hmod]
      exact ⟨hsz, hj, by rw [← ht]⟩
    rw [hsome, ← ht]

theorem WellFormed.registryEntry_eq (hw : s.WellFormed) (id : ServiceId) :
    registryEntry s id =
      (s.toMap.services id).map fun d => { descriptor := d, operations := ServiceMap.cells (s.toMap.operations id) } := by
  rw [← hw.registryLookup_eq]
  apply Option.ext
  intro e
  rw [registryEntry_eq_some, Option.map_eq_some_iff]
  constructor
  · rintro ⟨h0, hsz, hd, hs⟩
    refine ⟨e.descriptor, registryLookup_eq_some.2 ⟨h0, hsz, hd, by rw [hs]⟩, ?_⟩
    rw [hw.cells_eq hsz, hs]
  · rintro ⟨d, hd, rfl⟩
    obtain ⟨h0, hsz, hid, hs⟩ := registryLookup_eq_some.1 hd
    refine ⟨h0, hsz, hid, ?_⟩
    rw [hw.cells_eq hsz, ← hs]

/-! ## The map after a change of the cells -/

theorem toMap_register {d : ServiceDescriptor} (h0 : d.id ≠ 0) (hsz : d.id.toNat < serviceTableSize) :
    ServiceTable.toMap (Function.update s d.id.toNat { s d.id.toNat with descriptor := d }) = s.toMap.insert d := by
  ext1
  · funext id
    by_cases hid : id = d.id
    · subst hid
      simpa [toMap, ServiceMap.insert, hsz] using h0
    · have hidx : id.toNat ≠ d.id.toNat := fun he => hid (BitVec.eq_of_toNat_eq he)
      simp [toMap, ServiceMap.insert, Function.update_of_ne hid, Function.update_of_ne hidx]
  · funext id op
    by_cases hidx : id.toNat = d.id.toNat
    · simp [toMap, ServiceMap.insert, hidx]
    · simp [toMap, ServiceMap.insert, Function.update_of_ne hidx]

theorem toMap_unregister (s : ServiceTable) (id : ServiceId) :
    ServiceTable.toMap (Function.update s id.toNat .zero) = s.toMap.erase id := by
  ext1
  · funext x
    by_cases hid : x = id
    · subst hid
      simp [toMap, ServiceMap.erase, RegistryEntry.zero]
    · have hidx : x.toNat ≠ id.toNat := fun he => hid (BitVec.eq_of_toNat_eq he)
      simp [toMap, ServiceMap.erase, Function.update_of_ne hid, Function.update_of_ne hidx]
  · funext x op
    by_cases hid : x = id
    · subst hid
      simp [toMap, ServiceMap.erase, RegistryEntry.zero, DispatchEntry.zero]
    · have hidx : x.toNat ≠ id.toNat := fun he => hid (BitVec.eq_of_toNat_eq he)
      simp [toMap, ServiceMap.erase, Function.update_of_ne hid, Function.update_of_ne hidx]

/-- Storing `e` in a cell of the table, seen in the map. -/
theorem toMap_setOperation (hsz : id.toNat < serviceTableSize) (hop : op.toNat < dispatchOperationLimit)
    (e : DispatchEntry) :
    (setOperation s id op e).toMap = s.toMap.setOperation id op (if e.active = true then some e.entry else none) := by
  ext1
  · funext x
    simp [toMap, ServiceMap.setOperation]
  · funext x y
    by_cases hid : x = id
    · subst hid
      by_cases hy : y = op
      · subst hy
        simp [toMap, ServiceMap.setOperation, setOperation_operations, hsz, hop]
      · have hidx : y.toNat ≠ op.toNat := fun he => hy (BitVec.eq_of_toNat_eq he)
        simp [toMap, ServiceMap.setOperation, setOperation_operations, hidx, Function.update_of_ne hy]
    · have hidx : x.toNat ≠ id.toNat := fun he => hid (BitVec.eq_of_toNat_eq he)
      simp [toMap, ServiceMap.setOperation, setOperation_operations, hidx, Function.update_of_ne hid]

/-! ## Each call on the cells is the call on the map -/

theorem registryRegister_accepts {d : ServiceDescriptor} (hd : Registrable d) (hfree : s.toMap.services d.id = none) :
    registryRegister s d = (Function.update s d.id.toNat { s d.id.toNat with descriptor := d }, true) := by
  have hslot : (s d.id.toNat).descriptor.id = 0 := by
    by_contra hne
    rw [toMap_services_eq_some.2 ⟨hd.2.1, hne, rfl⟩] at hfree
    cases hfree
  have hid : ¬ (d.id = 0 ∨ d.id.toNat ≥ serviceTableSize) := by
    simp only [not_or, Nat.not_le]
    exact ⟨hd.1, hd.2.1⟩
  rw [registryRegister, if_neg hid, if_neg (by simpa using hd.2.2), if_neg (not_not.2 hslot)]

theorem registryRegister_refuses {d : ServiceDescriptor} (h : ¬ (Registrable d ∧ s.toMap.services d.id = none)) :
    registryRegister s d = (s, false) := by
  rcases registryRegister_cases s d with hr | ⟨hd, hfree, -⟩
  · exact hr
  · refine absurd ⟨hd, ?_⟩ h
    simp only [toMap, hfree, ne_eq, not_true_eq_false, and_false, ↓reduceIte]

theorem registryUnregister_accepts (hw : s.WellFormed) (h : s.toMap.services id ≠ none) :
    registryUnregister s id = (Function.update s id.toNat .zero, true) := by
  rcases registryUnregister_cases s id with ⟨-, hnone⟩ | ⟨-, -, hr⟩
  · rw [hw.registryLookup_eq] at hnone
    exact absurd hnone h
  · exact hr

theorem registryUnregister_refuses (h : s.toMap.services id = none) : registryUnregister s id = (s, false) := by
  unfold registryUnregister
  split
  · rfl
  · rename_i hid
    simp only [not_or, Nat.not_le] at hid
    split
    · rfl
    · rename_i hne
      rw [toMap_services_eq_some.2 ⟨hid.2, hne, rfl⟩] at h
      cases h

theorem dispatchRegister_accepts (hw : s.WellFormed) {entry : Reg} (h : s.toMap.Dispatchable id op entry) :
    dispatchRegister s id op entry = (setOperation s id op { entry, active := true }, true) := by
  obtain ⟨d, hd, hact, h0, hop, hentry, hnone⟩ := h
  rw [← hw.registryLookup_eq] at hd
  obtain ⟨hid, hsz, hdid, hs⟩ := registryLookup_eq_some.1 hd
  have hcell : ((s id.toNat).operations op.toNat).active = false := by
    simpa [toMap, hsz, hop] using hnone
  have hargs : ¬ (id = 0 ∨ op = 0 ∨ op.toNat ≥ dispatchOperationLimit ∨ entry = 0) := by
    simp only [not_or, Nat.not_le]
    exact ⟨hid, h0, hop, hentry⟩
  rw [dispatchRegister, if_neg hargs, registryEntry_eq_some.2 ⟨hid, hsz, by rw [hs, hdid], rfl⟩]
  simp [hs, hact, hcell]

theorem dispatchRegister_refuses {entry : Reg} (h : ¬ s.toMap.Dispatchable id op entry) :
    dispatchRegister s id op entry = (s, false) := by
  unfold dispatchRegister
  split
  · rfl
  · rename_i hargs
    simp only [not_or, Nat.not_le] at hargs
    split
    · rfl
    · rename_i service hservice
      obtain ⟨h0, hsz, hd, rfl⟩ := registryEntry_eq_some.1 hservice
      split
      · rfl
      · rename_i hact
        split
        · rfl
        · rename_i hcell
          refine absurd ⟨(s id.toNat).descriptor, toMap_services_eq_some.2 ⟨hsz, by rw [hd]; exact h0, rfl⟩,
            by simpa using hact, hargs.2.1, hargs.2.2.1, hargs.2.2.2, ?_⟩ h
          simp [toMap, hcell]

theorem dispatchUnregister_accepts (hw : s.WellFormed) (h : s.toMap.operations id op ≠ none) :
    dispatchUnregister s id op = (setOperation s id op .zero, true) := by
  rcases dispatchUnregister_cases s id op with ⟨-, hnone⟩ | ⟨-, -, hr⟩
  · rw [hw.dispatchLookup_eq, Option.map_eq_none_iff] at hnone
    exact absurd hnone h
  · exact hr

theorem dispatchUnregister_refuses (h : s.toMap.operations id op = none) :
    dispatchUnregister s id op = (s, false) := by
  unfold dispatchUnregister
  split
  · rfl
  · rename_i hop
    simp only [not_or, Nat.not_le] at hop
    split
    · rfl
    · rename_i service hservice
      obtain ⟨-, hsz, -, rfl⟩ := registryEntry_eq_some.1 hservice
      split
      · rfl
      · rename_i hact
        simp [toMap, hsz, hop.2, show ((s id.toNat).operations op.toNat).active = true by simpa using hact] at h

/-- Forward simulation, one call at a time. -/
theorem WellFormed.simulates (hw : s.WellFormed) (c : RegistryCall) :
    s.toMap.call c = ((registryCallStep s c).toMap, registryCallAnswer s c) := by
  cases c with
  | register d =>
    simp only [ServiceMap.call, registryCallStep, registryCallAnswer]
    split
    · rename_i h
      rw [registryRegister_accepts h.1 h.2, toMap_register h.1.1 h.1.2.1]
    · rename_i h
      rw [registryRegister_refuses h]
  | unregister id =>
    simp only [ServiceMap.call, registryCallStep, registryCallAnswer]
    split
    · rename_i h
      rw [registryUnregister_accepts hw h, toMap_unregister]
    · rename_i h
      rw [registryUnregister_refuses (not_not.1 h)]
  | dispatchRegister id op entry =>
    simp only [ServiceMap.call, registryCallStep, registryCallAnswer]
    split
    · rename_i h
      have hsz : id.toNat < serviceTableSize := by
        obtain ⟨d, hd, -⟩ := h
        exact (toMap_services_eq_some.1 hd).1
      have hop : op.toNat < dispatchOperationLimit := h.choose_spec.2.2.2.1
      rw [dispatchRegister_accepts hw h, toMap_setOperation hsz hop]
      rfl
    · rename_i h
      rw [dispatchRegister_refuses h]
  | dispatchUnregister id op =>
    simp only [ServiceMap.call, registryCallStep, registryCallAnswer]
    split
    · rename_i h
      obtain ⟨entry, hentry⟩ := Option.ne_none_iff_exists'.1 h
      obtain ⟨hsz, hop, -⟩ := toMap_operations_eq_some.1 hentry
      rw [dispatchUnregister_accepts hw h, toMap_setOperation hsz hop]
      rfl
    · rename_i h
      rw [dispatchUnregister_refuses (not_not.1 h)]
  | lookup id => simp only [ServiceMap.call, registryCallStep, registryCallAnswer, hw.registryLookup_eq]
  | entry id => simp only [ServiceMap.call, registryCallStep, registryCallAnswer, hw.registryEntry_eq]
  | dispatchLookup id op => simp only [ServiceMap.call, registryCallStep, registryCallAnswer, hw.dispatchLookup_eq]

/-! ## The invariant is kept -/

theorem WellFormed.update (hw : s.WellFormed) {i : Nat} {e : RegistryEntry} (he : e.WellFormed i) :
    ServiceTable.WellFormed (Function.update s i e) := by
  intro j
  by_cases hj : j = i
  · subst hj
    rw [Function.update_self]
    exact he
  · rw [Function.update_of_ne hj]
    exact hw j

theorem WellFormed.register (hw : s.WellFormed) (d : ServiceDescriptor) : (registryRegister s d).1.WellFormed := by
  rcases registryRegister_cases s d with hr | ⟨hd, hfree, hr⟩
  · rw [hr]; exact hw
  · rw [hr]
    -- the slot was all zero, so the new service starts without operations
    have hzero := (hw d.id.toNat).unregistered hfree
    refine hw.update ⟨fun _ => ⟨rfl, hd.2.1⟩, hd.2.2, fun j hj => ?_, fun h0 => absurd h0 hd.1, fun j _ => ?_⟩
    · rw [hzero] at hj
      cases hj
    · rw [hzero]
      rfl

theorem WellFormed.unregister (hw : s.WellFormed) (id : ServiceId) : (registryUnregister s id).1.WellFormed := by
  rcases registryUnregister_cases s id with ⟨hr, -⟩ | ⟨-, -, hr⟩
  · rw [hr]; exact hw
  · rw [hr]
    exact hw.update (RegistryEntry.zero_wellFormed _)

/-- Storing a zero cell, or an entry for an operation that `dispatch_register` accepts. -/
theorem WellFormed.setOperation (hw : s.WellFormed) {e : DispatchEntry} (hid : (s id.toNat).descriptor.id ≠ 0)
    (hact : e.active = true → op.toNat ≠ 0 ∧ op.toNat < dispatchOperationLimit ∧ e.entry ≠ 0 ∧
      (s id.toNat).descriptor.isActive = true) (hinact : e.active = false → e = .zero) :
    (setOperation s id op e).WellFormed := by
  have hs := hw id.toNat
  refine hw.update ⟨hs.slot, hs.layer, fun j hj => ?_, fun h0 => absurd h0 hid, fun j hj => ?_⟩
  · by_cases hjop : j = op.toNat
    · subst hjop
      simp only [Function.update_self] at hj ⊢
      obtain ⟨h0, hop, hentry, hactive⟩ := hact hj
      exact ⟨h0, hop, hentry, hid, hactive⟩
    · simp only [Function.update_of_ne hjop] at hj ⊢
      exact hs.operation j hj
  · by_cases hjop : j = op.toNat
    · subst hjop
      simp only [Function.update_self] at hj ⊢
      exact hinact hj
    · simp only [Function.update_of_ne hjop] at hj ⊢
      exact hs.inactive j hj

theorem WellFormed.dispatchRegister (hw : s.WellFormed) (id : ServiceId) (op : OperationId) (entry : Reg) :
    (dispatchRegister s id op entry).1.WellFormed := by
  by_cases h : s.toMap.Dispatchable id op entry
  · rw [dispatchRegister_accepts hw h]
    obtain ⟨d, hd, hact, h0, hop, hentry, -⟩ := h
    obtain ⟨-, hid, rfl⟩ := toMap_services_eq_some.1 hd
    refine hw.setOperation hid (fun _ => ⟨?_, hop, hentry, hact⟩) fun hf => by cases hf
    exact fun h => h0 (BitVec.eq_of_toNat_eq h)
  · rw [dispatchRegister_refuses h]
    exact hw

theorem WellFormed.dispatchUnregister (hw : s.WellFormed) (id : ServiceId) (op : OperationId) :
    (dispatchUnregister s id op).1.WellFormed := by
  rcases dispatchUnregister_cases s id op with ⟨hr, -⟩ | ⟨hreg, -, hr⟩
  · rw [hr]; exact hw
  · rw [hr]
    obtain ⟨d, hd⟩ := Option.isSome_iff_exists.1 hreg
    exact hw.setOperation (registryLookup_descriptor_ne hd) (fun h => by cases h) fun _ => rfl

theorem WellFormed.step (hw : s.WellFormed) (c : RegistryCall) : (registryCallStep s c).WellFormed := by
  cases c with
  | register d => exact hw.register d
  | unregister id => exact hw.unregister id
  | dispatchRegister id op entry => exact hw.dispatchRegister id op entry
  | dispatchUnregister id op => exact hw.dispatchUnregister id op
  | _ => exact hw

end ServiceTable

end

/-! ## What a call returns -/

/-- On the maps, `true` says exactly that the requested change was made. -/
theorem ServiceMap.call_flag (m : ServiceMap) (c : RegistryCall) :
    (m.call c).2 = .flag true ↔ m.Changed c (m.call c).1 := by
  cases c with
  | register d =>
    simp only [ServiceMap.call, Changed]
    split
    · rename_i h
      exact iff_of_true rfl ⟨h.2, rfl⟩
    · refine iff_of_false (by simp) ?_
      rintro ⟨hnone, heq⟩
      have hat : m.services d.id = (m.insert d).services d.id := congrArg (fun x => x.services d.id) heq
      simp [hnone, insert] at hat
  | unregister id =>
    simp only [ServiceMap.call, Changed]
    split
    · rename_i h
      exact iff_of_true rfl ⟨h, rfl⟩
    · rename_i h
      exact iff_of_false (by simp) fun hc => h hc.1
  | dispatchRegister id op entry =>
    simp only [ServiceMap.call, Changed]
    split
    · rename_i h
      obtain ⟨d, -, -, -, -, -, hnone⟩ := h
      exact iff_of_true rfl ⟨hnone, rfl⟩
    · refine iff_of_false (by simp) ?_
      rintro ⟨hnone, heq⟩
      have hat : m.operations id op = (m.setOperation id op (some entry)).operations id op :=
        congrArg (fun x => x.operations id op) heq
      simp [hnone, setOperation] at hat
  | dispatchUnregister id op =>
    simp only [ServiceMap.call, Changed]
    split
    · rename_i h
      exact iff_of_true rfl ⟨h, rfl⟩
    · rename_i h
      exact iff_of_false (by simp) fun hc => h hc.1
  | _ => simp [ServiceMap.call, Changed]

/-- A call that answers `false` has written nothing. -/
theorem registryCallStep_refused {s : ServiceTable} {c : RegistryCall} (h : registryCallAnswer s c = .flag false) :
    registryCallStep s c = s := by
  cases c with
  | register d =>
    simp only [registryCallStep, registryCallAnswer, RegistryAnswer.flag.injEq] at h ⊢
    rcases registryRegister_cases s d with hr | ⟨-, -, hr⟩
    · rw [hr]
    · rw [hr] at h; cases h
  | unregister id =>
    simp only [registryCallStep, registryCallAnswer, RegistryAnswer.flag.injEq] at h ⊢
    rcases registryUnregister_cases s id with ⟨hr, -⟩ | ⟨-, -, hr⟩
    · rw [hr]
    · rw [hr] at h; cases h
  | dispatchRegister id op entry =>
    simp only [registryCallStep, registryCallAnswer, RegistryAnswer.flag.injEq] at h ⊢
    rcases dispatchRegister_cases s id op entry with hr | ⟨-, -, -, -, hr⟩
    · rw [hr]
    · rw [hr] at h; cases h
  | dispatchUnregister id op =>
    simp only [registryCallStep, registryCallAnswer, RegistryAnswer.flag.injEq] at h ⊢
    rcases dispatchUnregister_cases s id op with ⟨hr, -⟩ | ⟨-, -, hr⟩
    · rw [hr]
    · rw [hr] at h; cases h
  | _ => rfl

/-- A service that has just been registered has no operation. -/
theorem ServiceTable.WellFormed.register_fresh {s : ServiceTable} (hw : s.WellFormed) {d : ServiceDescriptor}
    (h : (registryRegister s d).2 = true) (op : OperationId) :
    dispatchLookup (registryRegister s d).1 d.id op = none := by
  rw [(hw.register d).dispatchLookup_eq, Option.map_eq_none_iff]
  rcases registryRegister_cases s d with hr | ⟨-, hfree, hr⟩
  · rw [hr] at h; cases h
  · rw [hr]
    simp [ServiceTable.toMap, (hw d.id.toNat).unregistered hfree, RegistryEntry.zero, DispatchEntry.zero]

theorem registryInit_toMap : registryInit.toMap = .empty := by
  ext1
  · funext id
    simp [ServiceTable.toMap, ServiceMap.empty, registryInit, RegistryEntry.zero]
  · funext id op
    simp [ServiceTable.toMap, ServiceMap.empty, registryInit, RegistryEntry.zero, DispatchEntry.zero]

/-- The table `s`, reached by the calls `h`, represents a map and is used as one. -/
structure RepresentsMap (h : List (ServiceTable × RegistryCall)) (s : ServiceTable) : Prop where
  wellFormed : s.WellFormed
  slotZero : s 0 = .zero
  /-- The calls of the run, with their answers, are a run on the maps. -/
  refines : SpecRun ServiceMap.Spec .empty (h.map fun p => (p.2, registryCallAnswer p.1 p.2)) s.toMap
  lookup : ∀ id, registryLookup s id = s.toMap.services id
  entry : ∀ id, registryEntry s id =
    (s.toMap.services id).map fun d => { descriptor := d, operations := ServiceMap.cells (s.toMap.operations id) }
  dispatchLookup : ∀ id op, dispatchLookup s id op =
    (s.toMap.operations id op).map fun entry => { entry, active := true }
  accepted : ∀ c, registryCallAnswer s c = .flag true ↔ s.toMap.Changed c (registryCallStep s c).toMap
  refused : ∀ c, registryCallAnswer s c = .flag false → registryCallStep s c = s
  fresh : ∀ d, (registryRegister s d).2 = true → ∀ op, Lettuce.dispatchLookup (registryRegister s d).1 d.id op = none

/-- **Registry and dispatch table are a finite map**: after every run of calls from
`lettuce_service_registry_init` the cells are well formed, the answers given so far and the
contents are those of the abstract maps, a call returns true exactly if it made the requested
change, and a service registered again starts without operations. -/
theorem registry_refines_map {h : List (ServiceTable × RegistryCall)} {s : ServiceTable}
    (r : Run anyStep registryCallStep registryInit h s) : RepresentsMap h s := by
  have h0 : registryInit.WellFormed := fun i => RegistryEntry.zero_wellFormed i
  have hw : s.WellFormed := r.invariant (I := ServiceTable.WellFormed) h0 fun _ c _ hs => hs.step c
  have hrun : SpecRun ServiceMap.Spec registryInit.toMap
      (h.map fun p => (p.2, registryCallAnswer p.1 p.2)) s.toMap :=
    r.refines (I := ServiceTable.WellFormed) h0 (fun _ c _ hs => hs.step c) fun _ c _ hs => hs.simulates c
  rw [registryInit_toMap] at hrun
  refine ⟨hw, hw.slotZero, hrun, hw.registryLookup_eq, hw.registryEntry_eq, hw.dispatchLookup_eq, fun c => ?_,
    fun c hc => registryCallStep_refused hc, fun d hd op => hw.register_fresh hd op⟩
  have hflag := s.toMap.call_flag c
  rwa [hw.simulates c] at hflag

/-- A service, one operation, the service gone and another under the same id. -/
def recycledService : List (ServiceTable × RegistryCall) × ServiceTable :=
  traceFrom registryCallStep [] registryInit
    [.register ⟨20, 1, 200, 1⟩, .dispatchRegister 20 3 0x1000, .dispatchLookup 20 3, .unregister 20]

theorem registry_refines_map_recycled :
    (registryRegister recycledService.2 ⟨20, 2, 500, 1⟩).2 = true ∧
      dispatchLookup (registryRegister recycledService.2 ⟨20, 2, 500, 1⟩).1 20 3 = none := by
  have r : Run anyStep registryCallStep registryInit recycledService.1 recycledService.2 :=
    Run.start.trace (admits_anyStep _ _)
  have hacc : (registryRegister recycledService.2 ⟨20, 2, 500, 1⟩).2 = true := by decide +kernel
  exact ⟨hacc, (registry_refines_map r).fresh _ hacc 3⟩

end Lettuce
