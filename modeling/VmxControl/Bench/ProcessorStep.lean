import VmxControl.Bench.State

/-!
# Steps on a processor

They work whatever the slot holds, as long as there is a slot. An instruction that is executed
directly shows the flag with which it failed, and nothing looks for the cause.
-/

namespace VmxControl

inductive ProcessorStep where
  | setMsr (number : UInt32) (v : UInt64)
  | setCr0 (v : UInt64)
  | setCr4 (v : UInt64)
  | queueExit (reason : UInt32) (qualification : UInt64)
  | failEntry (code : UInt32)
  | inject (name : String) (field : UInt32) (code : UInt32)
  | force (name : String) (f : VmFail)
  | clock (ticks : List UInt64)
  | guest (ws : List (UInt8 × UInt64))
  | query
  | present
  | rdmsr (number : UInt32)
  | timestamp
  | vmxon (region : String)
  | vmptrld (region : String)
  | vmclear (region : String)
  | vmxoff
  | vmread (field : UInt32)
  | vmwrite (field : UInt32) (v : UInt64)
  | enter (kind : Entry)
  | hostState
  | invept (scope : UInt64) (d : Descriptor)
  | invvpid (scope : UInt64) (d : Descriptor)
  | unknown
  deriving DecidableEq, Repr

namespace Bench

variable {α : Type}

def setRig (b : Bench) (s : Slot) (g : Rig) : Bench :=
  { b with processors := b.processors.set s.processor g }

def onRig (b : Bench) (s : Slot) (f : Rig → Rig) : Reply × Bench :=
  (.done, b.setRig s (f (b.rig s)))

def onEmulator (b : Bench) (s : Slot) (f : Emulator → Emulator) : Reply × Bench :=
  b.onRig s (Rig.onEmulator f)

/-- Executes one instruction and shows what came of it. -/
def execute (b : Bench) (s : Slot) (f : α → Reply) (i : Rig → Except VmFail α × Rig) :
    Reply × Bench :=
  let (r, g) := i (b.rig s)
  (.ofInstruction f r, b.setRig s g)

def executePlain (b : Bench) (s : Slot) (i : Rig → Except VmFail Unit × Rig) : Reply × Bench :=
  b.execute s (fun _ => .done) i

/-- The address of any memory object, whatever its kind. -/
def address (b : Bench) (name : String) : Except Denial PhysAddr :=
  match b.objects.get? name with
  | some o => .ok o.addr
  | none => .error .noRegion

def register (number : UInt32) : Except Denial Msr :=
  match Msr.ofNumber? number with
  | some r => .ok r
  | none => .error .badInput

def readRegister (b : Bench) (s : Slot) (r : Msr) : Reply × Bench :=
  match (b.rig s).emulator.rdmsr r with
  | .ok (v, emulator) => (.word v, b.setRig s { b.rig s with emulator })
  | .error t => (.trapped t, b)

def executeVmxon (b : Bench) (s : Slot) (a : PhysAddr) : Reply × Bench :=
  match Processor.vmxon a b.host.memory (b.rig s) with
  | .ok (r, g) => (.ofInstruction (fun _ => .done) r, b.setRig s g)
  | .error t => (.trapped t, b)

def executeEntry (b : Bench) (s : Slot) (k : Entry) : Reply × Bench :=
  let (r, regs, g) := Processor.enter k b.regs (b.rig s)
  (.ofTrap (Reply.ofInstruction fun _ => .done) r, { b.setRig s g with regs })

def processorStep (b : Bench) (n : Nat) (step : ProcessorStep) :
    Except Denial (Reply × Bench) := do
  let s ← b.slot n
  match step with
  | .setMsr number v => return b.onEmulator s (Emulator.setMsr (← register number) v)
  | .setCr0 v => return b.onEmulator s fun e => { e with cr0 := v }
  | .setCr4 v => return b.onEmulator s (Emulator.writeCr4 v)
  | .queueExit reason qualification =>
    return b.onEmulator s (Emulator.queueExit reason qualification)
  | .failEntry code => return b.onEmulator s (Emulator.failEntry code)
  | .inject name field code =>
    match Injection.ofName? field name with
    | some i => return b.onEmulator s (Emulator.inject i code)
    | none => throw .badInput
  | .force name f =>
    match Mnemonic.ofName? name with
    | some m => return b.onRig s (Rig.force m f)
    | none => return (.done, b)
  | .clock ticks => return b.onRig s fun g => { g with ticks := g.ticks ++ ticks }
  | .guest ws => return b.onRig s fun g => { g with guests := g.guests ++ [ws] }
  | .query => return (.processor (b.rig s).emulator, b)
  | .present =>
    let (present, g) := (b.rig s).present
    return (.truth present, b.setRig s g)
  | .rdmsr number => return b.readRegister s (← register number)
  | .timestamp =>
    let (t, g) := (b.rig s).timestamp
    return (.count t.toNat, b.setRig s g)
  | .vmxon region => return b.executeVmxon s (← b.address region)
  | .vmptrld region =>
    return b.executePlain s (Processor.vmptrld (← b.address region) b.host.memory)
  | .vmclear region => return b.executePlain s (Processor.vmclear (← b.address region))
  | .vmxoff => return b.executePlain s Processor.vmxoff
  | .vmread field => return b.execute s .word (Processor.vmread field)
  | .vmwrite field v => return b.executePlain s (Processor.vmwrite field v)
  | .enter k => return b.executeEntry s k
  | .hostState => return b.executePlain s Processor.writeHostState
  | .invept scope d =>
    match EptScope.ofCode? scope with
    | some scope => return b.executePlain s (Processor.invept scope d)
    | none => throw .badInput
  | .invvpid scope d =>
    match VpidScope.ofCode? scope with
    | some scope => return b.executePlain s (Processor.invvpid scope d)
    | none => throw .badInput
  | .unknown => throw .badInput

end Bench

end VmxControl
