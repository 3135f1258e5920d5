import VmxControl.Command
import VmxControl.Emulator

/-!
# Recorders

A recorder stands in front of an emulated processor and lets every command through. It keeps the
commands that fail, each with the processor that it was given to, the latest first.
-/

namespace VmxControl

structure Recorder where
  emulator : Emulator
  failures : List (Command × Emulator) := []

namespace Recorder

variable {α : Type}

def pass (i : Emulator → α × Emulator) (r : Recorder) : α × Recorder :=
  let (a, emulator) := i r.emulator
  (a, { r with emulator })

def watch (c : Command) (i : Emulator → Except VmFail α × Emulator) (r : Recorder) :
    Except VmFail α × Recorder :=
  match i r.emulator with
  | (.ok a, emulator) => (.ok a, { r with emulator })
  | (.error f, emulator) => (.error f, ⟨emulator, (c, r.emulator) :: r.failures⟩)

def enter (k : Entry) (regs : Registers) (r : Recorder) :
    Except Trap (Except VmFail Unit) × Registers × Recorder :=
  let (x, r) := r.watch (.enter k regs) fun e => (e.count k).tryEnter k regs
  (.ok x, regs, r)

instance : Processor Recorder where
  present := pass Emulator.present
  readMsr m := pass (Emulator.readMsr m)
  writeMsr m v r := { r with emulator := r.emulator.writeMsr m v }
  readCr0 r := r.emulator.cr0
  readCr4 r := r.emulator.cr4
  writeCr4 v r := { r with emulator := r.emulator.writeCr4 v }
  vmxon region m r :=
    (r.emulator.vmxon region m).map fun x => r.watch (.vmxon region m) fun _ => x
  vmxoff := watch .vmxoff Emulator.vmxoff
  vmptrld region m := watch (.vmptrld region m) (Emulator.vmptrld region m)
  vmclear region := watch (.vmclear region) (Emulator.vmclear region)
  vmread field := watch (.vmread field) (Emulator.vmread field)
  vmwrite field v := watch (.vmwrite field v) (Emulator.vmwrite field v)
  enter := enter
  invept s d := watch (.invept s d) (Emulator.invept s d)
  invvpid s d := watch (.invvpid s d) (Emulator.invvpid s d)
  writeHostState := watch .writeHostState Emulator.writeHostState
  timestamp := pass Emulator.timestamp

end Recorder

end VmxControl
