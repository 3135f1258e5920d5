import VmxControl.Msr

/-!
# Traps

What stops a computation instead of failing it: an access that no correct caller makes, or an
instruction that the processor refuses to decode in its present state.
-/

namespace VmxControl

inductive Trap where
  | illegalRegister (index : UInt8)
  | outOfBounds (length index : Nat)
  | beyondFrame
  | overflow
  | msrWithoutVmx (register : Msr)
  | vmxonWithoutVmxe
  | noVmxonRegion
  deriving DecidableEq, Repr

def Trap.message : Trap → String
  | .illegalRegister i => "Illegal index of GeneralRegisters " ++ toString i.toNat
  | .outOfBounds n i =>
    "index out of bounds: the len is " ++ toString n ++ " but the index is " ++ toString i
  | .beyondFrame => "assertion failed: offset + 4 <= PAGE_SIZE"
  | .overflow => "attempt to add with overflow"
  | .msrWithoutVmx r => r.name ++ " read on a processor without VMX"
  | .vmxonWithoutVmxe =>
    "assertion `left != right` failed: VMXON with CR4.VMXE clear raises #UD\n  left: 0\n right: 0"
  | .noVmxonRegion =>
    "internal error: entered unreachable code: root operation without a VMXON region"

end VmxControl
