import VmxControl.Failure
import VmxControl.Invalidation
import VmxControl.Memory
import VmxControl.Registers

/-!
# Processors

The instructions that the control plane executes. Each takes the state of a processor to its
result and the next state. A failed instruction reports which flag it set. VMXON traps while
CR4.VMXE is clear, for then it is no instruction at all; an entry traps if what the guest left in
its registers cannot be kept.
-/

namespace VmxControl

/-- The two instructions that enter a guest. -/
inductive Entry where
  | launch
  | resume
  deriving DecidableEq, Repr

/-- The two words that an invalidation reads from memory. -/
structure Descriptor where
  first : UInt64
  second : UInt64
  deriving DecidableEq, Repr

class Processor (P : Type) where
  /-- Whether CPUID reports VMX. Registers are read only behind this question. -/
  present : P → Bool × P
  readMsr : Msr → P → UInt64 × P
  writeMsr : Msr → UInt64 → P → P
  readCr0 : P → UInt64
  readCr4 : P → UInt64
  writeCr4 : UInt64 → P → P
  vmxon : PhysAddr → Memory → P → Except Trap (Except VmFail Unit × P)
  vmxoff : P → Except VmFail Unit × P
  vmptrld : PhysAddr → Memory → P → Except VmFail Unit × P
  vmclear : PhysAddr → P → Except VmFail Unit × P
  vmread : UInt32 → P → Except VmFail UInt64 × P
  vmwrite : UInt32 → UInt64 → P → Except VmFail Unit × P
  /-- Returns after the following exit, with the registers the guest left. -/
  enter : Entry → Registers → P → Except Trap (Except VmFail Unit) × Registers × P
  invept : EptScope → Descriptor → P → Except VmFail Unit × P
  invvpid : VpidScope → Descriptor → P → Except VmFail Unit × P
  writeHostState : P → Except VmFail Unit × P
  timestamp : P → UInt64 × P

/-- Bit 13 of CR4 makes VMXON an instruction. -/
def vmxe : UInt64 := 0x2000

end VmxControl
