import LettuceKernel.Capability
import LettuceKernel.Registry
import LettuceKernel.Lib.Run
/-!
# Mediated calls: the three validators and gates

| here | there |
| --- | --- |
| `Kernel`             | `service_table`, the capability table and `g_current_service_id` (context.c:20) |
| `sameLayerValidate`  | `lettuce_same_layer_validate` (ipc/same_layer/validate.c:20) |
| `crossLayerValidate` | `lettuce_cross_layer_validate` (ipc/cross_layer/call.c:24) |
| `elevatorPolicy`     | `lettuce_elevator_policy` (ipc/elevator/policy.c:18) |
| `gateResolve`        | the part of each `lettuce_*_gate` before the entry is called (gate.c:20, call.c:59, elevator.c:21) |
| `contextEnter`, `contextLeave` | context.c:37, :49 |
| `Protection`, `hostProtection` | the two builds of protection.c |
| `gateStep`           | one kernel operation, gate call or return of an entry |

A gate calls `resolution.entry->entry()`, which may perform any further operation before it
returns, so a gate call is two steps here: `gate` (validate, enter the target's context,
invoke the entry) and `entryReturn` (the innermost invoked entry returns, the gate leaves the
context). Whatever happens between them is further steps of the same machine. `resolution`
is never NULL in the callers and the out-parameter is the result.
-/

namespace Lettuce

/-- The tables every validator reads, and the identity it trusts. -/
structure Kernel where
  services : ServiceTable
  caps : CapabilityTable
  currentServiceId : ServiceId

/-- `LettuceCallResolution` (kernel.h:51): what the three pointers point to. -/
structure CallResolution where
  caller : ServiceDescriptor
  target : ServiceDescriptor
  entry : DispatchEntry
deriving DecidableEq, Repr

def Kernel.capabilityCheck (k : Kernel) (handle : CapabilityHandle) (target : ServiceId) (op : OperationId)
    (permission : BitVec 32) (resource : ResourceId) : Bool :=
  Lettuce.capabilityCheck k.caps k.currentServiceId handle target op permission resource

def sameLayerValidate (k : Kernel) (targetServiceId : ServiceId) (operationId : OperationId)
    (resourceId : ResourceId) (capabilityHandle : CapabilityHandle) : Except Status CallResolution :=
  if k.currentServiceId = 0 then .error .invalidService
  else match registryLookup k.services k.currentServiceId with
    | none => .error .invalidService
    | some caller =>
      if !caller.isActive then .error .inactiveService
      else if targetServiceId = 0 then .error .invalidService
      else match registryLookup k.services targetServiceId with
        | none => .error .invalidService
        | some target =>
          if !target.isActive then .error .inactiveService
          else if caller.layer ≠ target.layer then .error .differentLayer
          else if operationId = 0 then .error .invalidOperation
          else if resourceId = 0 then .error .invalidResource
          else if capabilityHandle = 0 then .error .capabilityDenied
          else if !k.capabilityCheck capabilityHandle targetServiceId operationId capCall resourceId then
            .error .capabilityDenied
          else match dispatchLookup k.services targetServiceId operationId with
            | none => .error .invalidOperation
            | some entry => .ok { caller, target, entry }

/-- A NULL message is `none`. -/
def crossLayerValidate (k : Kernel) : Option CallMessage → Except Status CallResolution
  | none => .error .invalidArgument
  | some m =>
    match registryLookup k.services k.currentServiceId with
    | none => .error .invalidService
    | some caller =>
      if !caller.isActive then .error .inactiveService
      else match registryLookup k.services m.targetServiceId with
        | none => .error .invalidService
        | some target =>
          if !target.isActive then .error .inactiveService
          else if caller.layer = target.layer then .error .invalidState
          else if m.operationId = 0 then .error .invalidOperation
          else if m.resourceId = 0 then .error .invalidResource
          else if !k.capabilityCheck m.capabilityHandle m.targetServiceId m.operationId capCall m.resourceId then
            .error .capabilityDenied
          else match dispatchLookup k.services m.targetServiceId m.operationId with
            | none => .error .invalidTargetEntry
            | some entry =>
              if entry.entry = 0 then .error .invalidTargetEntry else .ok { caller, target, entry }

def elevatorPolicy (k : Kernel) : Option CallMessage → Except Status CallResolution
  | none => .error .invalidArgument
  | some m =>
    match registryLookup k.services k.currentServiceId, registryLookup k.services m.targetServiceId with
    | some caller, some target =>
      if !caller.isActive || !target.isActive then .error .inactiveService
      else if m.operationId = 0 then .error .invalidOperation
      else if m.resourceId = 0 then .error .invalidResource
      else if !k.capabilityCheck m.capabilityHandle m.targetServiceId m.operationId (capCall ||| capCritical)
          m.resourceId then .error .capabilityDenied
      else match dispatchLookup k.services m.targetServiceId m.operationId with
        | none => .error .invalidTargetEntry
        | some entry =>
          if entry.entry = 0 then .error .invalidTargetEntry else .ok { caller, target, entry }
    | _, _ => .error .invalidService

/-! ## The gates -/

inductive GateKind where
  | sameLayer | crossLayer | elevator
deriving DecidableEq, Repr

/-- A gate with its arguments. -/
inductive GateCall where
  | sameLayer (m : CallMessage)
  | crossLayer (m : Option CallMessage)
  | elevator (m : Option CallMessage)
deriving DecidableEq, Repr

def GateCall.kind : GateCall → GateKind
  | .sameLayer _ => .sameLayer
  | .crossLayer _ => .crossLayer
  | .elevator _ => .elevator

def GateCall.message : GateCall → Option CallMessage
  | .sameLayer m => some m
  | .crossLayer m => m
  | .elevator m => m

/-- The permissions each gate asks the capability table for. -/
def GateKind.permissions : GateKind → BitVec 32
  | .sameLayer => capCall
  | .crossLayer => capCall
  | .elevator => capCall ||| capCritical

/-- Everything a gate does before it enters the target: the same-layer gate checks the entry
pointer itself (gate.c:40), the other two validators already did. -/
def gateResolve (k : Kernel) : GateCall → Except Status CallResolution
  | .sameLayer m =>
    match sameLayerValidate k m.targetServiceId m.operationId m.resourceId m.capabilityHandle with
    | .error status => .error status
    | .ok resolution => if resolution.entry.entry = 0 then .error .invalidTargetEntry else .ok resolution
  | .crossLayer m => crossLayerValidate k m
  | .elevator m => elevatorPolicy k m

/-- A backend of `lettuce_protection_*` over its own state. -/
structure Protection (P : Type) where
  current : P → DomainId
  enter : DomainId → P → P
  leave : DomainId → P → P

/-- The hosted build (protection.c:37-60): the domain is a variable, 0 is not entered. -/
def hostProtection : Protection DomainId where
  current := id
  enter := fun target d => if target ≠ 0 then target else d
  leave := fun previous _ => previous

/-- `LettuceExecutionContext` (context.h:23). -/
structure ExecutionContext where
  serviceId : ServiceId
  domainId : DomainId
deriving DecidableEq, Repr

/-- The kernel, the protection state and the contexts saved by gate calls still running,
innermost first. -/
structure GateState (P : Type) extends Kernel where
  protection : P
  calls : List ExecutionContext

inductive KernelEvent where
  | registryInit
  | registryRegister (descriptor : ServiceDescriptor)
  | registryUnregister (id : ServiceId)
  | dispatchRegister (id : ServiceId) (op : OperationId) (entry : Reg)
  | dispatchUnregister (id : ServiceId) (op : OperationId)
  | capabilityInit
  | capabilityCreate (owner target : ServiceId) (op : OperationId) (permissions : BitVec 32) (resource : ResourceId)
  | capabilityRevoke (handle : CapabilityHandle)
  | setCurrentServiceId (id : ServiceId)
  | gate (call : GateCall)
  | entryReturn
deriving DecidableEq, Repr

section
variable {P : Type} (π : Protection P)

/-- `lettuce_context_enter`; the saved context goes to the pending calls. -/
def contextEnter (s : GateState P) (targetServiceId : ServiceId) (targetDomainId : DomainId) : GateState P :=
  { s with
    currentServiceId := targetServiceId
    protection := π.enter targetDomainId s.protection
    calls := { serviceId := s.currentServiceId, domainId := π.current s.protection } :: s.calls }

def contextLeave (s : GateState P) (previous : ExecutionContext) (calls : List ExecutionContext) : GateState P :=
  { s with
    protection := π.leave previous.domainId s.protection
    currentServiceId := previous.serviceId
    calls := calls }

def gateStep (s : GateState P) : KernelEvent → GateState P
  | .registryInit => { s with services := registryInit }
  | .registryRegister d => { s with services := (registryRegister s.services d).1 }
  | .registryUnregister id => { s with services := (registryUnregister s.services id).1 }
  | .dispatchRegister id op entry => { s with services := (dispatchRegister s.services id op entry).1 }
  | .dispatchUnregister id op => { s with services := (dispatchUnregister s.services id op).1 }
  | .capabilityInit => { s with caps := capabilityInit }
  | .capabilityCreate o t op p r => { s with caps := (capabilityCreate s.caps o t op p r).1 }
  | .capabilityRevoke h => { s with caps := (capabilityRevoke s.caps h).1 }
  | .setCurrentServiceId id => { s with currentServiceId := id }
  | .gate call =>
    match gateResolve s.toKernel call with
    | .error _ => s
    | .ok r => contextEnter π s r.target.id r.target.domain
  | .entryReturn =>
    match s.calls with
    | [] => s
    | previous :: calls => contextLeave π s previous calls

end

/-- Static storage at power-on: every table zero, no current service. -/
def kernelBoot : Kernel := { services := registryInit, caps := capabilityBoot, currentServiceId := 0 }

/-! ## What a step does to each table -/

def servicesStep (s : ServiceTable) : KernelEvent → ServiceTable
  | .registryInit => registryInit
  | .registryRegister d => (registryRegister s d).1
  | .registryUnregister id => (registryUnregister s id).1
  | .dispatchRegister id op entry => (dispatchRegister s id op entry).1
  | .dispatchUnregister id op => (dispatchUnregister s id op).1
  | _ => s

def capsStep (c : CapabilityTable) : KernelEvent → CapabilityTable
  | .capabilityInit => capabilityInit
  | .capabilityCreate o t op p r => (capabilityCreate c o t op p r).1
  | .capabilityRevoke h => (capabilityRevoke c h).1
  | _ => c

theorem gateStep_tables {P : Type} (π : Protection P) (s : GateState P) (e : KernelEvent) :
    (gateStep π s e).services = servicesStep s.services e ∧ (gateStep π s e).caps = capsStep s.caps e := by
  cases e with
  | gate call =>
    simp only [gateStep, servicesStep, capsStep]
    split <;> exact ⟨rfl, rfl⟩
  | entryReturn =>
    simp only [gateStep, servicesStep, capsStep]
    split <;> exact ⟨rfl, rfl⟩
  | _ => exact ⟨rfl, rfl⟩

/-- What entering and leaving a domain keep, every kernel operation keeps. -/
theorem gateStep_protection {P : Type} {π : Protection P} {I : P → Prop} (henter : ∀ d p, I p → I (π.enter d p))
    (hleave : ∀ d p, I p → I (π.leave d p)) {s : GateState P} (hs : I s.protection) (e : KernelEvent) :
    I (gateStep π s e).protection := by
  cases e with
  | gate call =>
    simp only [gateStep]
    split
    · exact hs
    · exact henter _ _ hs
  | entryReturn =>
    simp only [gateStep]
    split
    · exact hs
    · exact hleave _ _ hs
  | _ => exact hs

/-! ## What a resolved call has passed -/

/-- What all three validators check, for the permissions and layer rule of `kind`. -/
structure Resolved (k : Kernel) (kind : GateKind) (m : CallMessage) (r : CallResolution) : Prop where
  caller : registryLookup k.services k.currentServiceId = some r.caller
  callerActive : r.caller.isActive = true
  target : registryLookup k.services m.targetServiceId = some r.target
  targetActive : r.target.isActive = true
  sameLayer : kind = .sameLayer → r.caller.layer = r.target.layer
  crossLayer : kind = .crossLayer → r.caller.layer ≠ r.target.layer
  capability : k.capabilityCheck m.capabilityHandle m.targetServiceId m.operationId kind.permissions m.resourceId = true
  dispatch : dispatchLookup k.services m.targetServiceId m.operationId = some r.entry
  entry : r.entry.entry ≠ 0

section
variable {k : Kernel} {r : CallResolution}

theorem sameLayerValidate_ok {m : CallMessage}
    (h : sameLayerValidate k m.targetServiceId m.operationId m.resourceId m.capabilityHandle = .ok r)
    (he : r.entry.entry ≠ 0) : Resolved k .sameLayer m r := by
  unfold sameLayerValidate at h
  split at h
  · cases h
  · split at h
    · cases h
    · rename_i caller hcaller
      split at h
      · cases h
      · rename_i hca
        split at h
        · cases h
        · split at h
          · cases h
          · rename_i target htarget
            split at h
            · cases h
            · rename_i hta
              iterate 5 (split at h; · cases h)
              rename_i hlayer _ _ _ hcheck
              split at h
              · cases h
              · rename_i entry hentry
                cases h
                exact ⟨hcaller, by simpa using hca, htarget, by simpa using hta, fun _ => by simpa using hlayer,
                  by rintro ⟨⟩, by simpa [GateKind.permissions] using hcheck, hentry, he⟩

theorem crossLayerValidate_ok {m : CallMessage} (h : crossLayerValidate k (some m) = .ok r) :
    Resolved k .crossLayer m r := by
  simp only [crossLayerValidate] at h
  split at h
  · cases h
  · rename_i caller hcaller
    split at h
    · cases h
    · rename_i hca
      split at h
      · cases h
      · rename_i target htarget
        split at h
        · cases h
        · rename_i hta
          iterate 4 (split at h; · cases h)
          rename_i hlayer _ _ hcheck
          split at h
          · cases h
          · rename_i entry hentry
            split at h
            · cases h
            · rename_i he
              cases h
              exact ⟨hcaller, by simpa using hca, htarget, by simpa using hta, by rintro ⟨⟩, fun _ => hlayer,
                by simpa [GateKind.permissions] using hcheck, hentry, he⟩

theorem elevatorPolicy_ok {m : CallMessage} (h : elevatorPolicy k (some m) = .ok r) : Resolved k .elevator m r := by
  simp only [elevatorPolicy] at h
  split at h
  · rename_i caller target hcaller htarget
    split at h
    · cases h
    · rename_i hact
      simp only [Bool.or_eq_true, Bool.not_eq_true', not_or, Bool.not_eq_false] at hact
      iterate 3 (split at h; · cases h)
      rename_i _ _ hcheck
      split at h
      · cases h
      · rename_i entry hentry
        split at h
        · cases h
        · rename_i he
          cases h
          exact ⟨hcaller, hact.1, htarget, hact.2, by rintro ⟨⟩, by rintro ⟨⟩,
            by simpa [GateKind.permissions] using hcheck, hentry, he⟩
  · cases h

/-- A gate that goes on to invoke an entry has passed every check for its kind. -/
theorem gateResolve_ok {call : GateCall} (h : gateResolve k call = .ok r) :
    ∃ m, call.message = some m ∧ Resolved k call.kind m r := by
  cases call with
  | sameLayer m =>
    simp only [gateResolve] at h
    split at h
    · cases h
    · rename_i res hres
      split at h
      · cases h
      · rename_i he
        cases h
        exact ⟨m, rfl, sameLayerValidate_ok hres he⟩
  | crossLayer m =>
    cases m with
    | none => cases h
    | some m => exact ⟨m, rfl, crossLayerValidate_ok h⟩
  | elevator m =>
    cases m with
    | none => cases h
    | some m => exact ⟨m, rfl, elevatorPolicy_ok h⟩

end

end Lettuce
