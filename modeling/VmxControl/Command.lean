import VmxControl.Processor

/-!
# Commands

All that the control plane can ask of a processor, with the operands, and what each command leaves
of the processor that it is given to. VMXON that traps leaves the processor as it was.
-/

namespace VmxControl

inductive Command where
  | present
  | readMsr (r : Msr)
  | writeMsr (r : Msr) (v : UInt64)
  | writeCr4 (v : UInt64)
  | vmxon (region : PhysAddr) (m : Memory)
  | vmxoff
  | vmptrld (region : PhysAddr) (m : Memory)
  | vmclear (region : PhysAddr)
  | vmread (field : UInt32)
  | vmwrite (field : UInt32) (v : UInt64)
  | enter (k : Entry) (regs : Registers)
  | invept (s : EptScope) (d : Descriptor)
  | invvpid (s : VpidScope) (d : Descriptor)
  | writeHostState
  | timestamp

namespace Command

def on {P : Type} [Processor P] (p : P) : Command → P
  | .present => (Processor.present p).2
  | .readMsr r => (Processor.readMsr r p).2
  | .writeMsr r v => Processor.writeMsr r v p
  | .writeCr4 v => Processor.writeCr4 v p
  | .vmxon region m =>
    match Processor.vmxon region m p with
    | .ok (_, q) => q
    | .error _ => p
  | .vmxoff => (Processor.vmxoff p).2
  | .vmptrld region m => (Processor.vmptrld region m p).2
  | .vmclear region => (Processor.vmclear region p).2
  | .vmread field => (Processor.vmread field p).2
  | .vmwrite field v => (Processor.vmwrite field v p).2
  | .enter k regs => (Processor.enter k regs p).2.2
  | .invept s d => (Processor.invept s d p).2
  | .invvpid s d => (Processor.invvpid s d p).2
  | .writeHostState => (Processor.writeHostState p).2
  | .timestamp => (Processor.timestamp p).2

/-- The command sets a register of the processor. -/
def Sets : Command → Prop
  | .writeMsr _ _ | .writeCr4 _ => True
  | _ => False

/-- The command writes a field of its own choice. -/
def Writes : Command → Prop
  | .vmwrite _ _ => True
  | _ => False

/-- What a core in root operation asks for, except that it also writes fields. -/
def Hosts : Command → Prop
  | .vmptrld _ _ | .vmclear _ | .vmread _ | .enter _ _ | .invept _ _ | .invvpid _ _
  | .writeHostState | .timestamp => True
  | _ => False

/-- What it asks for in order to have a guest run, so neither does it invalidate anything. -/
def Guides : Command → Prop
  | .vmptrld _ _ | .vmclear _ | .vmread _ | .enter _ _ | .writeHostState | .timestamp => True
  | _ => False

theorem Guides.hosts {c : Command} (h : c.Guides) : c.Hosts := by
  cases c <;> first | exact trivial | exact h.elim

end Command

end VmxControl
