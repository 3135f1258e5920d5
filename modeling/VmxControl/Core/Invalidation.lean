import VmxControl.Core
import VmxControl.Machine
import VmxControl.Tag

/-!
# Invalidating translations

An invalidation is executed only in a scope that the processor announces. The host's tag can be
dropped only together with all others, and the processor is not asked for anything else.
-/

namespace VmxControl.Core.Root

variable {P : Type} [Processor P]

def invalidateEpt (c : Root) (pointer : UInt64) (scope : EptScope) (s : Machine P) :
    Except Failure Unit × Machine P :=
  if c.caps.isolation.supportsInvept scope then
    match s.attempt (Processor.invept scope ⟨pointer, 0⟩) with
    | (.ok (), s) => (.ok (), s.note c.id (.eptInvalidated scope pointer))
    | (.error e, s) => (.error e, s)
  else (.error (.unsupported "INVEPT type"), s)

/-- The address matters only in the scope of one address. -/
def invalidateVpid (c : Root) (tag : Tag) (scope : VpidScope) (address : UInt64) (s : Machine P) :
    Except Failure Unit × Machine P :=
  if c.caps.isolation.supportsInvvpid scope then
    if tag.isHost ∧ scope ≠ .allContexts then (.error (.valid .invalidInvalidationOperand), s)
    else
      match s.attempt (Processor.invvpid scope ⟨tag.value.toUInt64, address⟩) with
      | (.ok (), s) => (.ok (), s.note c.id (.vpidInvalidated scope tag.debug))
      | (.error e, s) => (.error e, s)
  else (.error (.unsupported "INVVPID type"), s)

end VmxControl.Core.Root
