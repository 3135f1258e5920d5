import VmxControl.Region

/-!
# Cores

Where a logical core stands with respect to VMX operation. Each mode is a type of its own, so that a
transition can be asked only of the mode it starts from. A core in root operation owns the region it
was given for that, and the control structure that is current on it.
-/

namespace VmxControl

structure Identity where
  id : UInt64
  caps : Capabilities
  deriving DecidableEq, Repr

/-- The control structure that is current on a core. -/
structure Current where
  region : Region .vmcs
  launched : Bool
  deriving DecidableEq, Repr

/-- CR4.VMXE is clear. -/
structure Core.Disabled extends Identity
  deriving DecidableEq, Repr

/-- CR4.VMXE is set and the processor was found fit for VMX operation. -/
structure Core.Enabled extends Identity
  deriving DecidableEq, Repr

structure Core.Root extends Identity where
  vmxon : Region .vmxon
  current : Option Current
  deriving DecidableEq, Repr

inductive Core where
  | disabled (c : Core.Disabled)
  | enabled (c : Core.Enabled)
  | root (c : Core.Root)
  deriving DecidableEq, Repr

/-- A transition that did not happen hands back all that it was given. -/
structure Rejected (κ : Type) where
  given : κ
  why : Failure
  deriving DecidableEq, Repr

/-- A control structure that a core did not take. -/
structure Refused where
  region : Region .vmcs
  why : Failure
  deriving DecidableEq, Repr

inductive Mode where
  | disabled
  | enabled
  | root
  deriving DecidableEq, Repr

def Mode.name : Mode → String
  | .disabled => "Disabled"
  | .enabled => "Enabled"
  | .root => "Root"

namespace Core.Root

def region? (c : Root) : Option (Region .vmcs) := c.current.map (·.region)

def launched (c : Root) : Bool := c.current.any (·.launched)

end Core.Root

namespace Core

def new (id : UInt64) (caps : Capabilities) : Disabled := ⟨⟨id, caps⟩⟩

def identity : Core → Identity
  | .disabled c => c.toIdentity
  | .enabled c => c.toIdentity
  | .root c => c.toIdentity

def mode : Core → Mode
  | .disabled _ => .disabled
  | .enabled _ => .enabled
  | .root _ => .root

def root? : Core → Option Root
  | .root c => some c
  | _ => none

def debug (c : Core) : String :=
  Text.record "VmxCpu" [("cpu_id", toString c.identity.id.toNat), ("mode", c.mode.name),
    ("vmxon", Text.option (c.root?.map fun r => r.vmxon.debug)),
    ("current", Text.option ((c.root?.bind Root.region?).map fun r => r.debug)),
    ("launched", toString (c.root?.any Root.launched))]

end Core

end VmxControl
