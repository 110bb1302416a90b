import Mathlib.Logic.Basic
/-!
# Public identifiers and status values (`include/lettuce/types.h`, `errors.h`, `service.h`, `message.h`)

Every identifier is a 32-bit word compared for equality; 0 is the invalid one in each
family. Registers and code addresses are 64-bit words, a null pointer is 0.
-/

namespace Lettuce

abbrev ServiceId := BitVec 32
abbrev ResourceId := BitVec 32
abbrev DomainId := BitVec 32
abbrev OperationId := BitVec 32
abbrev CapabilityHandle := BitVec 32
/-- A 64-bit register or address. -/
abbrev Reg := BitVec 64

/-- `LettuceStatus` (errors.h:31). -/
inductive Status where
  | ok | error | invalidArgument | denied | notFound | busy | timeout | unavailable | notSupported
  | aborted | overflow | internal | invalidState | invalidService | inactiveService
  | differentLayer | capabilityDenied | invalidOperation | invalidResource | invalidTargetEntry
deriving DecidableEq, Repr

/-- The numeric value a status has in a register. -/
def Status.code (s : Status) : Reg := BitVec.ofNat 64 s.ctorIdx

/-- `LETTUCE_LAYER_L4` (service.h:41), the largest layer the registry accepts. -/
def layerL4 : BitVec 8 := 4

/-- `LETTUCE_SERVICE_FLAG_ACTIVE` (service.h:49). -/
def serviceFlagActive : BitVec 32 := 1

/-- `LettuceServiceDescriptor` (service.h:62) without its padding bytes. -/
structure ServiceDescriptor where
  id : ServiceId
  layer : BitVec 8
  domain : DomainId
  flags : BitVec 32
deriving DecidableEq, Repr

/-- `descriptor->flags & LETTUCE_SERVICE_FLAG_ACTIVE`, the test every caller makes. -/
def ServiceDescriptor.isActive (d : ServiceDescriptor) : Bool := d.flags &&& serviceFlagActive != 0

/-- `LettuceCallMessage` (message.h:25). -/
structure CallMessage where
  targetServiceId : ServiceId
  operationId : OperationId
  resourceId : ResourceId
  capabilityHandle : CapabilityHandle
deriving DecidableEq, Repr

end Lettuce
