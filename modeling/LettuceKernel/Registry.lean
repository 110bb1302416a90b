import LettuceKernel.Types
import Mathlib.Logic.Function.Basic
/-!
# Service registry and dispatch table (`kernel/main/kernel.c`, `kernel/main/dispatch.c`)

| here | there |
| --- | --- |
| `DispatchEntry`, `RegistryEntry` | `LettuceDispatchEntry`, `LettuceServiceRegistryEntry` (kernel.h:32, :42) |
| `ServiceTable`       | `service_table` (kernel.c:18), a function of the index |
| `registryInit` .. `registryLookup` | `lettuce_service_registry_*` (kernel.c:20-88) |
| `dispatchRegister`, `dispatchUnregister`, `dispatchLookup` | dispatch.c:17, :37, :51 |

The operations of a service live inside its registry entry, so `unregister` takes them away
with the descriptor, while `register` writes the descriptor only and relies on the operations
already being empty.
-/

namespace Lettuce

/-- `LETTUCE_SERVICE_TABLE_SIZE` (kernel.h:29). -/
def serviceTableSize : Nat := 256

/-- `LETTUCE_DISPATCH_OPERATION_LIMIT` (kernel.h:30). -/
def dispatchOperationLimit : Nat := 64

/-- One operation of a service; `entry` is the function pointer, 0 for NULL. -/
structure DispatchEntry where
  entry : Reg
  active : Bool
deriving DecidableEq, Repr

structure RegistryEntry where
  descriptor : ServiceDescriptor
  operations : Nat → DispatchEntry

abbrev ServiceTable := Nat → RegistryEntry

def DispatchEntry.zero : DispatchEntry := { entry := 0, active := false }

def RegistryEntry.zero : RegistryEntry :=
  { descriptor := { id := 0, layer := 0, domain := 0, flags := 0 }, operations := fun _ => .zero }

/-- Also the static storage before `lettuce_service_registry_init` runs. -/
def registryInit : ServiceTable := fun _ => .zero

def registryRegister (s : ServiceTable) (d : ServiceDescriptor) : ServiceTable × Bool :=
  if d.id = 0 ∨ d.id.toNat ≥ serviceTableSize then (s, false)
  else if d.layer > layerL4 then (s, false)
  else if (s d.id.toNat).descriptor.id ≠ 0 then (s, false)
  else (Function.update s d.id.toNat { s d.id.toNat with descriptor := d }, true)

def registryUnregister (s : ServiceTable) (id : ServiceId) : ServiceTable × Bool :=
  if id = 0 ∨ id.toNat ≥ serviceTableSize then (s, false)
  else if (s id.toNat).descriptor.id = 0 then (s, false)
  else (Function.update s id.toNat .zero, true)

/-- `lettuce_service_registry_entry` and its `_mutable` twin; `none` is NULL. -/
def registryEntry (s : ServiceTable) (id : ServiceId) : Option RegistryEntry :=
  if id = 0 ∨ id.toNat ≥ serviceTableSize then none
  else if (s id.toNat).descriptor.id = id then some (s id.toNat) else none

def registryLookup (s : ServiceTable) (id : ServiceId) : Option ServiceDescriptor :=
  if id = 0 ∨ id.toNat ≥ serviceTableSize then none
  else if (s id.toNat).descriptor.id = id then some (s id.toNat).descriptor else none

def setOperation (s : ServiceTable) (id : ServiceId) (op : OperationId) (e : DispatchEntry) : ServiceTable :=
  Function.update s id.toNat
    { s id.toNat with operations := Function.update (s id.toNat).operations op.toNat e }

def dispatchRegister (s : ServiceTable) (id : ServiceId) (op : OperationId) (entry : Reg) : ServiceTable × Bool :=
  if id = 0 ∨ op = 0 ∨ op.toNat ≥ dispatchOperationLimit ∨ entry = 0 then (s, false)
  else match registryEntry s id with
    | none => (s, false)
    | some service =>
      if !service.descriptor.isActive then (s, false)
      else if (service.operations op.toNat).active then (s, false)
      else (setOperation s id op { entry, active := true }, true)

def dispatchUnregister (s : ServiceTable) (id : ServiceId) (op : OperationId) : ServiceTable × Bool :=
  if op = 0 ∨ op.toNat ≥ dispatchOperationLimit then (s, false)
  else match registryEntry s id with
    | none => (s, false)
    | some service =>
      if !(service.operations op.toNat).active then (s, false)
      else (setOperation s id op .zero, true)

def dispatchLookup (s : ServiceTable) (id : ServiceId) (op : OperationId) : Option DispatchEntry :=
  if op = 0 ∨ op.toNat ≥ dispatchOperationLimit then none
  else match registryEntry s id with
    | none => none
    | some service =>
      if !(service.operations op.toNat).active then none else some (service.operations op.toNat)

/-! ## Lookups -/

section
variable {s : ServiceTable} {id : ServiceId} {op : OperationId}

theorem registryLookup_eq_some {d : ServiceDescriptor} :
    registryLookup s id = some d ↔
      id ≠ 0 ∧ id.toNat < serviceTableSize ∧ d.id = id ∧ (s id.toNat).descriptor = d := by
  unfold registryLookup
  constructor
  · intro h
    split at h
    · cases h
    · rename_i hid
      split at h
      · rename_i hd
        cases h
        simp only [not_or, Nat.not_le] at hid
        exact ⟨hid.1, hid.2, hd, rfl⟩
      · cases h
  · rintro ⟨h0, hsz, hd, rfl⟩
    rw [if_neg (by simp only [not_or, Nat.not_le]; exact ⟨h0, hsz⟩), if_pos hd]

theorem registryEntry_eq_some {e : RegistryEntry} :
    registryEntry s id = some e ↔
      id ≠ 0 ∧ id.toNat < serviceTableSize ∧ e.descriptor.id = id ∧ s id.toNat = e := by
  unfold registryEntry
  constructor
  · intro h
    split at h
    · cases h
    · rename_i hid
      split at h
      · rename_i hd
        cases h
        simp only [not_or, Nat.not_le] at hid
        exact ⟨hid.1, hid.2, hd, rfl⟩
      · cases h
  · rintro ⟨h0, hsz, hd, rfl⟩
    rw [if_neg (by simp only [not_or, Nat.not_le]; exact ⟨h0, hsz⟩), if_pos hd]

/-- The slot of a registered service holds a non-null id. -/
theorem registryLookup_descriptor_ne {d : ServiceDescriptor} (h : registryLookup s id = some d) :
    (s id.toNat).descriptor.id ≠ 0 := by
  obtain ⟨h0, -, hd, hs⟩ := registryLookup_eq_some.1 h
  rw [hs, hd]
  exact h0

theorem dispatchLookup_eq_some {e : DispatchEntry} :
    dispatchLookup s id op = some e ↔
      op ≠ 0 ∧ op.toNat < dispatchOperationLimit ∧ (registryLookup s id).isSome ∧
        (s id.toNat).operations op.toNat = e ∧ e.active = true := by
  unfold dispatchLookup
  constructor
  · intro h
    split at h
    · cases h
    · rename_i hop
      simp only [not_or, Nat.not_le] at hop
      split at h
      · cases h
      · rename_i service hservice
        obtain ⟨h0, hsz, hd, rfl⟩ := registryEntry_eq_some.1 hservice
        split at h
        · cases h
        · rename_i hact
          cases h
          refine ⟨hop.1, hop.2, ?_, rfl, by simpa using hact⟩
          rw [registryLookup_eq_some.2 ⟨h0, hsz, hd, rfl⟩]
          rfl
  · rintro ⟨h0, hsz, hl, rfl, hact⟩
    obtain ⟨d, hd⟩ := Option.isSome_iff_exists.1 hl
    obtain ⟨hi0, hisz, hdid, hdd⟩ := registryLookup_eq_some.1 hd
    rw [if_neg (by simp only [not_or, Nat.not_le]; exact ⟨h0, hsz⟩),
      registryEntry_eq_some.2 ⟨hi0, hisz, by rw [hdd, hdid], rfl⟩]
    simp [hact]

/-! ## One equation per operation -/

/-- What `lettuce_service_registry_register` demands, apart from a free slot. -/
def Registrable (d : ServiceDescriptor) : Prop := d.id ≠ 0 ∧ d.id.toNat < serviceTableSize ∧ d.layer ≤ layerL4

instance (d : ServiceDescriptor) : Decidable (Registrable d) := inferInstanceAs (Decidable (_ ∧ _))

theorem registryRegister_cases (s : ServiceTable) (d : ServiceDescriptor) :
    registryRegister s d = (s, false) ∨
      (Registrable d ∧ (s d.id.toNat).descriptor.id = 0 ∧
        registryRegister s d = (Function.update s d.id.toNat { s d.id.toNat with descriptor := d }, true)) := by
  unfold registryRegister
  split
  · exact Or.inl rfl
  · rename_i hid
    simp only [not_or, Nat.not_le] at hid
    split
    · exact Or.inl rfl
    · rename_i hlayer
      split
      · exact Or.inl rfl
      · rename_i hfree
        exact Or.inr ⟨⟨hid.1, hid.2, by simpa using hlayer⟩, by simpa using hfree, rfl⟩

theorem registryUnregister_cases (s : ServiceTable) (id : ServiceId) :
    (registryUnregister s id = (s, false) ∧ registryLookup s id = none) ∨
      (id ≠ 0 ∧ id.toNat < serviceTableSize ∧
        registryUnregister s id = (Function.update s id.toNat .zero, true)) := by
  unfold registryUnregister registryLookup
  split
  · exact Or.inl ⟨rfl, rfl⟩
  · rename_i hid
    simp only [not_or, Nat.not_le] at hid
    split
    · rename_i hfree
      left
      refine ⟨rfl, ?_⟩
      rw [hfree, if_neg (Ne.symm hid.1)]
    · exact Or.inr ⟨hid.1, hid.2, rfl⟩

theorem dispatchRegister_cases (s : ServiceTable) (id : ServiceId) (op : OperationId) (entry : Reg) :
    dispatchRegister s id op entry = (s, false) ∨
      ((registryLookup s id).isSome ∧ op ≠ 0 ∧ op.toNat < dispatchOperationLimit ∧ entry ≠ 0 ∧
        dispatchRegister s id op entry = (setOperation s id op { entry, active := true }, true)) := by
  unfold dispatchRegister
  split
  · exact Or.inl rfl
  · rename_i hargs
    simp only [not_or, Nat.not_le] at hargs
    split
    · exact Or.inl rfl
    · rename_i service hservice
      obtain ⟨h0, hsz, hd, rfl⟩ := registryEntry_eq_some.1 hservice
      split
      · exact Or.inl rfl
      · split
        · exact Or.inl rfl
        · right
          refine ⟨?_, hargs.2.1, hargs.2.2.1, hargs.2.2.2, rfl⟩
          rw [registryLookup_eq_some.2 ⟨h0, hsz, hd, rfl⟩]
          rfl

theorem dispatchUnregister_cases (s : ServiceTable) (id : ServiceId) (op : OperationId) :
    (dispatchUnregister s id op = (s, false) ∧ dispatchLookup s id op = none) ∨
      ((registryLookup s id).isSome ∧ op.toNat < dispatchOperationLimit ∧
        dispatchUnregister s id op = (setOperation s id op .zero, true)) := by
  unfold dispatchUnregister dispatchLookup
  split
  · exact Or.inl ⟨rfl, rfl⟩
  · rename_i hop
    simp only [not_or, Nat.not_le] at hop
    split
    · exact Or.inl ⟨rfl, rfl⟩
    · rename_i service hservice
      obtain ⟨h0, hsz, hd, rfl⟩ := registryEntry_eq_some.1 hservice
      split
      · exact Or.inl ⟨rfl, rfl⟩
      · right
        refine ⟨?_, hop.2, rfl⟩
        rw [registryLookup_eq_some.2 ⟨h0, hsz, hd, rfl⟩]
        rfl

/-- Storing an operation leaves every descriptor alone. -/
@[simp] theorem setOperation_descriptor (e : DispatchEntry) (i : Nat) :
    (setOperation s id op e i).descriptor = (s i).descriptor := by
  unfold setOperation
  by_cases hi : i = id.toNat
  · subst hi; simp
  · simp [Function.update_of_ne hi]

@[simp] theorem registryLookup_setOperation (e : DispatchEntry) (x : ServiceId) :
    registryLookup (setOperation s id op e) x = registryLookup s x := by
  simp [registryLookup]

theorem setOperation_operations (e : DispatchEntry) (i j : Nat) :
    (setOperation s id op e i).operations j =
      if i = id.toNat ∧ j = op.toNat then e else (s i).operations j := by
  unfold setOperation
  by_cases hi : i = id.toNat
  · subst hi
    by_cases hj : j = op.toNat
    · subst hj; simp
    · simp [hj]
  · simp [hi]

end

end Lettuce
