import VmxControl.Native.TaskSegment
import VmxControl.Native.Trampoline

/-!
# Entering a guest and saving the host

A guest is entered from a process, through the trampoline. The host state is copied field by field,
each source read right before its write, and the first failure ends the copy. The registers come
first; the base of the task segment is looked up in the descriptor table between them and the rest.
-/

namespace VmxControl.Native

def enter (k : Entry) (regs : Registers) (s : Software) :
    Except VmFail Unit × Registers × Software :=
  Caller.process.enter k regs s

/-- What surrounds the code that copies the host state: its segments, the tables that describe them,
and the place at which an exit goes on. -/
structure Surroundings where
  es : UInt16
  cs : UInt16
  ss : UInt16
  ds : UInt16
  fs : UInt16
  gs : UInt16
  task : UInt16
  gdt : DescriptorTable
  gdtBase : UInt64
  idtBase : UInt64
  exitPoint : UInt64

/-- A process sees an empty descriptor table. -/
def Surroundings.process : Surroundings where
  es := 0
  cs := 0x33
  ss := 0x2b
  ds := 0
  fs := 0
  gs := 0
  task := 0x40
  gdt := ⟨[], 0⟩
  gdtBase := 0
  idtBase := 0
  exitPoint := 0x555555556000

/-- Where the value of a host field comes from. -/
inductive Source where
  | msr (r : Msr)
  | cr0
  | cr3
  | cr4
  | selector (value : UInt16)
  | constant (value : UInt64)
  deriving DecidableEq, Repr

/-- The bits of CR3 that hold the address of the page table. -/
def pageTableMask : UInt64 := 0x000ffffffffff000

def Source.fetch (src : Source) (s : Software) : UInt64 × Software :=
  match src with
  | .msr r => s.rdmsr r.number
  | .cr0 => s.readCr0
  | .cr3 =>
    let (v, s) := s.readCr3
    (v &&& pageTableMask, s)
  | .cr4 => s.readCr4
  | .selector v => (v.toUInt64, s)
  | .constant v => (v, s)

/-- The fields that are copied from registers, in the order of their writes. -/
def registerFields (h : Surroundings) : List (UInt32 × Source) :=
  [(Field.hostPat, .msr .pat),
   (Field.hostEfer, .msr .efer),
   (Field.hostCr0, .cr0),
   (Field.hostCr3, .cr3),
   (Field.hostCr4, .cr4),
   (0xc00, .selector h.es),
   (0xc02, .selector h.cs),
   (0xc04, .selector h.ss),
   (0xc06, .selector h.ds),
   (0xc08, .selector h.fs),
   (0xc0a, .selector h.gs),
   (Field.hostFsBase, .msr .fsBase),
   (Field.hostGsBase, .msr .gsBase)]

/-- The fields that follow when the base of the task segment is known. -/
def tableFields (h : Surroundings) (taskBase : UInt64) : List (UInt32 × Source) :=
  [(0xc0c, .selector h.task),
   (0x6c0a, .constant taskBase),
   (0x6c0c, .constant h.gdtBase),
   (0x6c0e, .constant h.idtBase),
   (Field.hostInstructionPointer, .constant h.exitPoint),
   (0x6c10, .constant 0),
   (0x6c12, .constant 0),
   (0x4c00, .constant 0)]

def saveFields : List (UInt32 × Source) → Software → Except VmFail Unit × Software
  | [], s => (.ok (), s)
  | f :: rest, s =>
    let (v, s) := f.2.fetch s
    match s.vmwrite f.1 v with
    | (.ok (), s) => saveFields rest s
    | (.error e, s) => (.error e, s)

/-- A task segment outside of the descriptor table stops the copy. -/
def writeHostState (h : Surroundings) (s : Software) :
    Except Trap (Except VmFail Unit) × Software :=
  match saveFields (registerFields h) s with
  | (.error e, s) => (.ok (.error e), s)
  | (.ok (), s) =>
    match taskBase h.task h.gdt with
    | .error t => (.error t, s)
    | .ok base =>
      let (r, s) := saveFields (tableFields h base) s
      (.ok r, s)

/-- Whether the script can end the copy within the registers. -/
def Software.endsHostCopy (s : Software) : Bool :=
  s.failures.any fun f =>
    f.name == .vmwrite && (f.flags.cf || f.flags.zf) &&
      (match f.field with
        | none => true
        | some e => (registerFields .process).any fun h => h.1 == e)

/-- Fields whose contents belong to the running process and are not shown. -/
def isPrivate (field : UInt32) : Bool :=
  field == Field.hostStackPointer || (0xc00 ≤ field && field ≤ 0xc0c)

end VmxControl.Native
