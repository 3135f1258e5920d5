import VmxControl.ExitReason
import VmxControl.Failure
import VmxControl.Invalidation
import VmxControl.Memory

/-!
# Notes

What the control plane says about its work, in the order in which it happens. A note has a level
and a line of text; the notes about one core name the core.
-/

namespace VmxControl

inductive Level where
  | warn
  | info
  | debug
  | trace
  deriving DecidableEq, Repr

def Level.name : Level → String
  | .warn => "WARN"
  | .info => "INFO"
  | .debug => "DEBUG"
  | .trace => "TRACE"

/-- What can be said of one core. -/
inductive CoreNote where
  | enabled
  | cannotEnable (why : Failure)
  | disabled
  | vmxonFailed (region : PhysAddr) (why : Failure)
  | enteredRoot
  | vmxoffWithCurrent
  | vmxoffFailed (why : Failure)
  | leftRoot
  | droppedInRoot
  | vmptrldFailed (region : PhysAddr) (why : Failure)
  | hostStateFailed (why : Failure)
  | vmclearFailed (region : PhysAddr) (why : Failure)
  | loaded (region : PhysAddr)
  | cleared (region : PhysAddr)
  | entryFailed (why : Failure)
  | entryFailedBy (reason : UInt16)
  | exited (reason : UInt16)
  | eptInvalidated (scope : EptScope) (pointer : UInt64)
  | vpidInvalidated (scope : VpidScope) (tag : String)
  deriving DecidableEq, Repr

namespace CoreNote

def level : CoreNote → Level
  | .enabled | .disabled | .enteredRoot | .leftRoot => .info
  | .loaded _ | .cleared _ => .debug
  | .exited _ | .eptInvalidated _ _ | .vpidInvalidated _ _ => .trace
  | _ => .warn

def text : CoreNote → String
  | .enabled => "enabled VMX (CR4.VMXE set)"
  | .cannotEnable why => "cannot enable VMX: " ++ why.message
  | .disabled => "disabled VMX"
  | .vmxonFailed a why => "VMXON " ++ Text.address a ++ " failed: " ++ why.message
  | .enteredRoot => "entered VMX root operation"
  | .vmxoffWithCurrent => "VMXOFF with a current VMCS"
  | .vmxoffFailed why => "VMXOFF failed: " ++ why.message
  | .leftRoot => "left VMX root operation"
  | .droppedInRoot => "dropped in VMX root operation"
  | .vmptrldFailed a why => "VMPTRLD " ++ Text.address a ++ " failed: " ++ why.message
  | .hostStateFailed why => "host state setup failed: " ++ why.message
  | .vmclearFailed a why =>
    "VMCLEAR " ++ Text.address a ++ " after failed load failed: " ++ why.message
  | .loaded a => "loaded VMCS " ++ Text.address a
  | .cleared a => "cleared VMCS " ++ Text.address a
  | .entryFailed why => "VM entry failed: " ++ why.message
  | .entryFailedBy reason => "VM entry failed with exit reason " ++ toString reason.toNat
  | .exited reason => "VM exit reason " ++ toString reason.toNat
  | .eptInvalidated s p => "INVEPT " ++ s.name ++ " " ++ Text.hex p.toNat
  | .vpidInvalidated s tag => "INVVPID " ++ s.name ++ " " ++ tag

end CoreNote

inductive Note where
  | core (id : UInt64) (n : CoreNote)
  | frameMisaligned (a : PhysAddr)
  | frameAllocated (a : PhysAddr)
  | frameReleased (a : PhysAddr)
  | stamped (kind : String) (a : PhysAddr) (revision : UInt32)
  | notPresent
  | detected (revision : UInt32) (trueControls ept vpid : Bool)
  | tagsExhausted
  deriving DecidableEq, Repr

namespace Note

def level : Note → Level
  | .core _ n => n.level
  | .frameMisaligned _ | .notPresent | .tagsExhausted => .warn
  | _ => .debug

def text : Note → String
  | .core id n => "CPU " ++ toString id.toNat ++ " " ++ n.text
  | .frameMisaligned a => "frame " ++ Text.address a ++ " is not 4K aligned"
  | .frameAllocated a => "allocated PhysFrame(" ++ Text.address a ++ ")"
  | .frameReleased a => "deallocated PhysFrame(" ++ Text.address a ++ ")"
  | .stamped kind a revision =>
    "stamped " ++ kind ++ " region " ++ Text.address a ++ " with revision " ++
      Text.hex revision.toNat
  | .notPresent => "CPUID reports no VMX support"
  | .detected revision trueControls ept vpid =>
    "capabilities: revision " ++ Text.hex revision.toNat ++ ", true controls " ++
      toString trueControls ++ ", EPT " ++ toString ept ++ ", VPID " ++ toString vpid
  | .tagsExhausted => "VPIDs exhausted"

def line (n : Note) : String := n.level.name ++ " [VMX] " ++ n.text

end Note

end VmxControl
