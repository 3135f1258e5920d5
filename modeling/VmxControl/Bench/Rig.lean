import VmxControl.Emulator
import VmxControl.Mnemonic

/-!
# Rigs

A rig stands in front of an emulated processor. An instruction told to fail fails without reaching
the processor, timestamps come from a script as long as it lasts, and a guest that ran leaves the
registers that its script says, after the processor has seen those it was given. A script that
names an illegal register traps there.
-/

namespace VmxControl

structure Rig where
  emulator : Emulator
  forced : List (Mnemonic × VmFail) := []
  ticks : List UInt64 := []
  guests : List (List (UInt8 × UInt64)) := []

namespace Rig

def new (model : Emulator.Model) : Rig := { emulator := .ofModel model }

def force (m : Mnemonic) (f : VmFail) (g : Rig) : Rig := { g with forced := g.forced ++ [(m, f)] }

def onEmulator (f : Emulator → Emulator) (g : Rig) : Rig := { g with emulator := f g.emulator }

variable {α : Type}

/-- A forced failure of the instruction, which does not happen a second time. -/
def takeForced (m : Mnemonic) (g : Rig) : Option (VmFail × Rig) :=
  (Script.take? (fun x => x.1 == m) g.forced).map fun r => (r.1.2, { g with forced := r.2 })

def unlessForced (m : Mnemonic) (i : Emulator → Except VmFail α × Emulator) (g : Rig) :
    Except VmFail α × Rig :=
  match g.takeForced m with
  | some (f, g) => (.error f, g)
  | none =>
    let (r, emulator) := i g.emulator
    (r, { g with emulator })

def vmxon (region : PhysAddr) (m : Memory) (g : Rig) : Except Trap (Except VmFail Unit × Rig) :=
  match g.takeForced .vmxon with
  | some (f, g) => .ok (.error f, g)
  | none =>
    match g.emulator.vmxon region m with
    | .ok (r, emulator) => .ok (r, { g with emulator })
    | .error t => .error t

def entryName : Entry → Mnemonic
  | .launch => .vmlaunch
  | .resume => .vmresume

def enter (k : Entry) (regs : Registers) (g : Rig) :
    Except Trap (Except VmFail Unit) × Registers × Rig :=
  match g.takeForced (entryName k) with
  | some (f, g) => (.ok (.error f), regs, g)
  | none =>
    match g.emulator.enter k regs with
    | (.ok (.ok ()), regs, emulator) =>
      let (r, regs) := regs.setAll (g.guests.head?.getD [])
      (r.map .ok, regs, { g with emulator, guests := g.guests.tail })
    | (r, regs, emulator) => (r, regs, { g with emulator })

def timestamp (g : Rig) : UInt64 × Rig :=
  match g.ticks with
  | t :: rest => (t, { g with ticks := rest })
  | [] =>
    let (t, emulator) := g.emulator.timestamp
    (t, { g with emulator })

def present (g : Rig) : Bool × Rig :=
  let (b, emulator) := g.emulator.present
  (b, { g with emulator })

def readMsr (r : Msr) (g : Rig) : UInt64 × Rig :=
  let (v, emulator) := g.emulator.readMsr r
  (v, { g with emulator })

instance : Processor Rig where
  present := present
  readMsr := readMsr
  writeMsr r v := onEmulator (Emulator.writeMsr r v)
  readCr0 g := g.emulator.cr0
  readCr4 g := g.emulator.cr4
  writeCr4 v := onEmulator (Emulator.writeCr4 v)
  vmxon := vmxon
  vmxoff := unlessForced .vmxoff Emulator.vmxoff
  vmptrld a m := unlessForced .vmptrld (Emulator.vmptrld a m)
  vmclear a := unlessForced .vmclear (Emulator.vmclear a)
  vmread f := unlessForced .vmread (Emulator.vmread f)
  vmwrite f v := unlessForced .vmwrite (Emulator.vmwrite f v)
  enter := enter
  invept s d := unlessForced .invept (Emulator.invept s d)
  invvpid s d := unlessForced .invvpid (Emulator.invvpid s d)
  writeHostState := unlessForced .hostState Emulator.writeHostState
  timestamp := timestamp

end Rig

end VmxControl
