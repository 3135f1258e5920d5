import VmxControl.Bench.Reply
import VmxControl.Native.HostState
import VmxControl.Run

/-!
# Sessions on native instructions

A session drives the instructions of the running processor step by step. Every row shows the
answer and the instructions that the step executed. The host state is copied only if the script
ends the copy before the descriptor tables.
-/

namespace VmxControl.Native

inductive Step where
  | fail (name : String) (field : Option UInt32) (flags : Flags)
  | guest (ws : List (UInt8 × UInt64))
  | rdmsr (number : UInt32)
  | wrmsr (number : UInt32) (v : UInt64)
  | readCr0
  | readCr4
  | writeCr4 (v : UInt64)
  | vmxon (region : PhysAddr)
  | vmptrld (region : PhysAddr)
  | vmclear (region : PhysAddr)
  | vmxoff
  | vmread (field : UInt32)
  | vmwrite (field : UInt32) (v : UInt64)
  | enter (kind : Entry)
  | invept (scope : UInt64) (d : Descriptor)
  | invvpid (scope : UInt64) (d : Descriptor)
  | hostState
  | registers (s : RegisterStep)
  | malformed
  deriving DecidableEq, Repr

structure Session where
  software : Software
  regs : Registers

structure Row where
  reply : Reply
  executed : List Instruction

namespace Session

/-- The answer to an instruction that can fail. -/
def plain (s : Session) (r : Except VmFail Unit × Software) : Reply × Session :=
  (.ofInstruction (fun _ => .done) r.1, { s with software := r.2 })

def word (s : Session) (r : UInt64 × Software) : Reply × Session :=
  (.word r.1, { s with software := r.2 })

def done (s : Session) (software : Software) : Reply × Session := (.done, { s with software })

def bad (s : Session) : Reply × Session := (.denied .badInput, s)

/-- A name that no instruction has is never met. -/
def addFailure (s : Session) (name : String) (field : Option UInt32) (flags : Flags) :
    Reply × Session :=
  match Mnemonic.ofName? name with
  | some m => s.done { s.software with failures := s.software.failures ++ [⟨m, field, flags⟩] }
  | none => (.done, s)

def enter (s : Session) (k : Entry) : Reply × Session :=
  let (r, regs, software) := Native.enter k s.regs s.software
  (.ofInstruction (fun _ => .done) r, { software, regs })

def run (s : Session) : Step → Reply × Session
  | .fail name field flags => s.addFailure name field flags
  | .guest ws => s.done { s.software with guests := s.software.guests ++ [ws] }
  | .rdmsr number =>
    match Msr.ofNumber? number with
    | some r => s.word (s.software.rdmsr r.number)
    | none => s.bad
  | .wrmsr number v =>
    match Msr.ofNumber? number with
    | some r => s.done (s.software.wrmsr r.number v)
    | none => s.bad
  | .readCr0 => s.word s.software.readCr0
  | .readCr4 => s.word s.software.readCr4
  | .writeCr4 v => s.done (s.software.writeCr4 v)
  | .vmxon a => s.plain (s.software.exec (.vmxon a))
  | .vmptrld a => s.plain (s.software.exec (.vmptrld a))
  | .vmclear a => s.plain (s.software.exec (.vmclear a))
  | .vmxoff => s.plain (s.software.exec .vmxoff)
  | .vmread f =>
    let (r, software) := s.software.vmread f
    (.ofInstruction .word r, { s with software })
  | .vmwrite f v => s.plain (s.software.vmwrite f v)
  | .enter k => s.enter k
  | .invept scope d =>
    match EptScope.ofCode? scope with
    | some scope => s.plain (s.software.exec (.invept scope d))
    | none => s.bad
  | .invvpid scope d =>
    match VpidScope.ofCode? scope with
    | some scope => s.plain (s.software.exec (.invvpid scope d))
    | none => s.bad
  | .hostState =>
    if s.software.endsHostCopy then
      let (r, software) := writeHostState .process s.software
      (.ofTrap (.ofInstruction fun _ => .done) r, { s with software })
    else s.bad
  | .registers step =>
    let (r, regs) := step.run s.regs
    (r, { s with regs })
  | .malformed => s.bad

/-- The answer to a step, and what it executed. -/
def answer (s : Session) (step : Step) : Row × Session :=
  let before := s.software.executed.length
  let (reply, s) := s.run step
  (⟨reply, Run.newest s.software.executed before⟩, s)

/-- The rows of the steps, and the registers at the end. -/
def rows (software : Software) (steps : List Step) : List Row × Registers :=
  let (rows, s) := Run.answers answer ⟨software, .zero⟩ steps
  (rows, s.regs)

end Session

end VmxControl.Native
