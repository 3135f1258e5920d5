import VmxControl.Command
import VmxControl.Machine

/-!
# Observers

An observer stands in front of a processor of any kind and lets every command through. It keeps what
it sees, the latest first: what CPUID answers, the words that are read from registers, and all other
commands. CR0 and CR4 are read without leaving anything behind.
-/

namespace VmxControl

/-- What is seen of one command. -/
inductive Sight where
  | asked (present : Bool)
  | read (r : Msr) (word : UInt64)
  | other (c : Command)

structure Observer (P : Type) where
  processor : P
  seen : List Sight := []

namespace Observer

variable {P α : Type} [Processor P]

def see (o : Observer P) (x : Sight) (p : P) : Observer P := ⟨p, x :: o.seen⟩

def pass (c : Command) (i : P → α × P) (o : Observer P) : α × Observer P :=
  let (a, p) := i o.processor
  (a, o.see (.other c) p)

instance : Processor (Observer P) where
  present o :=
    let (b, p) := Processor.present o.processor
    (b, o.see (.asked b) p)
  readMsr r o :=
    let (w, p) := Processor.readMsr r o.processor
    (w, o.see (.read r w) p)
  writeMsr r v o := o.see (.other (.writeMsr r v)) (Processor.writeMsr r v o.processor)
  readCr0 o := Processor.readCr0 o.processor
  readCr4 o := Processor.readCr4 o.processor
  writeCr4 v o := o.see (.other (.writeCr4 v)) (Processor.writeCr4 v o.processor)
  vmxon region m o :=
    (Processor.vmxon region m o.processor).map fun x => (x.1, o.see (.other (.vmxon region m)) x.2)
  vmxoff := pass .vmxoff Processor.vmxoff
  vmptrld region m := pass (.vmptrld region m) (Processor.vmptrld region m)
  vmclear region := pass (.vmclear region) (Processor.vmclear region)
  vmread field := pass (.vmread field) (Processor.vmread field)
  vmwrite field v := pass (.vmwrite field v) (Processor.vmwrite field v)
  enter k regs o :=
    let (r, left, p) := Processor.enter k regs o.processor
    (r, left, o.see (.other (.enter k regs)) p)
  invept s d := pass (.invept s d) (Processor.invept s d)
  invvpid s d := pass (.invvpid s d) (Processor.invvpid s d)
  writeHostState := pass .writeHostState Processor.writeHostState
  timestamp := pass .timestamp Processor.timestamp

/-- The registers that were read, in this order. -/
def registers {P : Type} (o : Observer P) : List Msr :=
  o.seen.reverse.filterMap fun
    | .read r _ => some r
    | _ => none

end Observer

/-- Puts a new observer in front of the processor. -/
def Machine.observed {P : Type} (s : Machine P) : Machine (Observer P) :=
  ⟨{ processor := s.processor }, s.host⟩

end VmxControl
