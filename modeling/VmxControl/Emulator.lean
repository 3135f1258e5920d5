import VmxControl.ExitReason
import VmxControl.Field
import VmxControl.Processor
import VmxControl.Script
import VmxControl.Store

/-!
# The emulated processor

A processor in software that makes the checks on which control of VMX operation depends: revisions
of regions, launch states, and the current control structure. Every call that changes its state is
written to a journal, the latest first. Failures can be injected, and the exits of the guest are
queued.
-/

namespace VmxControl

inductive Op where
  | wrmsr (register : Msr) (value : UInt64)
  | cr4 (value : UInt64)
  | vmxon (region : PhysAddr)
  | vmxoff
  | vmptrld (region : PhysAddr)
  | vmclear (region : PhysAddr)
  | vmwrite (field : UInt32) (value : UInt64)
  | entered (kind : Entry)
  | invept (scope : EptScope) (d : Descriptor)
  | invvpid (scope : VpidScope) (d : Descriptor)
  | hostState
  deriving DecidableEq, Repr

/-- The instructions that can be made to fail. -/
inductive Injection where
  | vmxoff
  | vmclear
  | vmread (field : UInt32)
  | invept
  | invvpid
  | hostState
  deriving DecidableEq, Repr

/-- The instruction by its name; VMREAD is named together with a field. -/
def Injection.ofName? (field : UInt32) (s : String) : Option Injection :=
  match s with
  | "vmxoff" => some .vmxoff
  | "vmclear" => some .vmclear
  | "vmread" => some (.vmread field)
  | "invept" => some .invept
  | "invvpid" => some .invvpid
  | "host_state" => some .hostState
  | _ => none

structure Emulator where
  vmx : Bool
  cpuidQueries : Nat
  msrs : Store Msr UInt64
  msrReads : List Msr
  cr0 : UInt64
  cr4 : UInt64
  vmxonPtr : Option PhysAddr
  current : Option PhysAddr
  launched : Store PhysAddr Bool
  fields : Store (PhysAddr × UInt32) UInt64
  exits : List (UInt32 × UInt64)
  failingEntry : Option UInt32
  injected : List (Injection × UInt32)
  journal : List Op
  clock : UInt64
  launches : Nat
  resumes : Nat
  lastGuest : Registers

namespace Emulator

def revision : UInt32 := 0x12

/-- The exit of a guest for which none is queued: it halted. -/
def defaultExit : UInt32 × UInt64 := (12, 0)

def clockStep : UInt64 := 100

/-- Where every host resumes. -/
def hostEntryPoint : UInt64 := 0xffffffff80000000

/-- Register contents of a recent core. -/
def registers : List (Msr × UInt64) :=
  [(.featureControl, 0x5),
   (.pat, 0x0007040600070406),
   (.vmxBasic, 0x00da040000000012),
   (.vmxPinbasedCtls, 0x0000007f00000016),
   (.vmxProcbasedCtls, 0xfff9fffe0401e172),
   (.vmxExitCtls, 0x01ffffff00036dff),
   (.vmxEntryCtls, 0x0003ffff000011ff),
   (.vmxMisc, 0x000000007004c1e7),
   (.vmxCr0Fixed0, 0x80000021),
   (.vmxCr0Fixed1, 0xffffffff),
   (.vmxCr4Fixed0, 0x2000),
   (.vmxCr4Fixed1, 0x003727ff),
   (.vmxProcbasedCtls2, 0x00537fff00000000),
   (.vmxEptVpidCap, 0x00000f0106734141),
   (.vmxTruePinbasedCtls, 0x0000007f00000016),
   (.vmxTrueProcbasedCtls, 0xfff9fffe04006172),
   (.vmxTrueExitCtls, 0x01ffffff00036dfb),
   (.vmxTrueEntryCtls, 0x0003ffff000011fb),
   (.vmxVmfunc, 0x1),
   (.efer, 0xd01),
   (.fsBase, 0),
   (.gsBase, 0xffff88807fc00000)]

def new : Emulator where
  vmx := true
  cpuidQueries := 0
  msrs := .ofList 0 registers
  msrReads := []
  cr0 := 0x80050033
  cr4 := 0x620
  vmxonPtr := none
  current := none
  launched := .const false
  fields := .const 0
  exits := []
  failingEntry := none
  injected := []
  journal := []
  clock := 0
  launches := 0
  resumes := 0
  lastGuest := .zero

def record (e : Emulator) (o : Op) : Emulator := { e with journal := o :: e.journal }

def setMsr (r : Msr) (v : UInt64) (e : Emulator) : Emulator := { e with msrs := e.msrs.put r v }

def inRoot (e : Emulator) : Bool := e.vmxonPtr.isSome

/-- Entries that reached the guest. -/
def entries (e : Emulator) : Nat :=
  e.journal.countP fun o => o == .entered .launch || o == .entered .resume

/-- The next instruction of this kind fails with this number. -/
def inject (i : Injection) (code : UInt32) (e : Emulator) : Emulator :=
  { e with injected := e.injected ++ [(i, code)] }

/-- The next entry fails with this number. -/
def failEntry (code : UInt32) (e : Emulator) : Emulator := { e with failingEntry := some code }

def queueExit (reason : UInt32) (qualification : UInt64) (e : Emulator) : Emulator :=
  { e with exits := e.exits ++ [(reason, qualification)] }

def present (e : Emulator) : Bool × Emulator :=
  (e.vmx, { e with cpuidQueries := e.cpuidQueries + 1 })

def readMsr (r : Msr) (e : Emulator) : UInt64 × Emulator :=
  (e.msrs.get r, { e with msrReads := r :: e.msrReads })

/-- Without VMX none of the registers can be read. -/
def rdmsr (r : Msr) (e : Emulator) : Except Trap (UInt64 × Emulator) :=
  if e.vmx then .ok (e.readMsr r) else .error (.msrWithoutVmx r)

def writeMsr (r : Msr) (v : UInt64) (e : Emulator) : Emulator := (e.record (.wrmsr r v)).setMsr r v

def writeCr4 (v : UInt64) (e : Emulator) : Emulator := { e.record (.cr4 v) with cr4 := v }

variable {α : Type}

/-- The number of a failure has a place only in the current control structure. -/
def fail (e : Emulator) (code : UInt32) : Except VmFail α × Emulator :=
  match e.current with
  | some vmcs =>
    (.error .valid, { e with fields := e.fields.put (vmcs, Field.instructionError) code.toUInt64 })
  | none => (.error .invalid, e)

/-- An injected failure of the instruction comes before its effect. -/
def unlessInjected (e : Emulator) (i : Injection) (effect : Except VmFail α × Emulator) :
    Except VmFail α × Emulator :=
  match Script.take? (fun x => x.1 == i) e.injected with
  | some (x, rest) => { e with injected := rest }.fail x.2
  | none => effect

def vmxon (region : PhysAddr) (m : Memory) (e : Emulator) :
    Except Trap (Except VmFail Unit × Emulator) :=
  if e.cr4 &&& vmxe = 0 then .error .vmxonWithoutVmxe
  else if e.inRoot then .ok (e.fail 15)
  else if m.readWord region ≠ revision then .ok (.error .invalid, e)
  else .ok (.ok (), { e.record (.vmxon region) with vmxonPtr := some region })

def vmxoff (e : Emulator) : Except VmFail Unit × Emulator :=
  if e.inRoot then
    e.unlessInjected .vmxoff (.ok (), { e.record .vmxoff with vmxonPtr := none, current := none })
  else (.error .invalid, e)

def vmptrld (region : PhysAddr) (m : Memory) (e : Emulator) : Except VmFail Unit × Emulator :=
  match e.vmxonPtr with
  | none => (.error .invalid, e)
  | some on =>
    if on = region then e.fail 10
    else if m.readWord region ≠ revision then e.fail 11
    else (.ok (), { e.record (.vmptrld region) with current := some region })

def vmclear (region : PhysAddr) (e : Emulator) : Except VmFail Unit × Emulator :=
  match e.vmxonPtr with
  | none => (.error .invalid, e)
  | some on =>
    if on = region then e.fail 3
    else
      e.unlessInjected .vmclear (.ok (),
        { e.record (.vmclear region) with
          launched := e.launched.put region false
          current := if e.current = some region then none else e.current })

def vmread (field : UInt32) (e : Emulator) : Except VmFail UInt64 × Emulator :=
  match e.current with
  | none => (.error .invalid, e)
  | some vmcs => e.unlessInjected (.vmread field) (.ok (e.fields.get (vmcs, field)), e)

def vmwrite (field : UInt32) (v : UInt64) (e : Emulator) : Except VmFail Unit × Emulator :=
  match e.current with
  | none => (.error .invalid, e)
  | some vmcs =>
    if Area.ofEncoding field = .readOnly then e.fail 13
    else (.ok (), { e.record (.vmwrite field v) with fields := e.fields.put (vmcs, field) v })

/-- An attempt to enter counts whatever becomes of it. -/
def count (k : Entry) (e : Emulator) : Emulator :=
  match k with
  | .launch => { e with launches := e.launches + 1 }
  | .resume => { e with resumes := e.resumes + 1 }

/-- The exit that the next entry will end in. -/
def nextExit (e : Emulator) : UInt32 × UInt64 := e.exits.head?.getD defaultExit

/-- The guest runs up to the next queued exit. An exit that stands for a failed entry leaves the
launch state as it was. -/
def runGuest (k : Entry) (vmcs : PhysAddr) (regs : Registers) (e : Emulator) : Emulator :=
  let (reason, qualification) := e.nextExit
  let fields := e.fields.put (vmcs, Field.exitReason) reason.toUInt64
  let e := { e with
    exits := e.exits.tail
    fields := fields.put (vmcs, Field.exitQualification) qualification
    lastGuest := regs }
  if RawExit.entryFailure ⟨reason⟩ then e
  else { e.record (.entered k) with launched := e.launched.put vmcs true }

/-- The number with which an entry fails because of the launch state. -/
def misplaced? (k : Entry) (vmcs : PhysAddr) (e : Emulator) : Option UInt32 :=
  match k, e.launched.get vmcs with
  | .resume, false => some 5
  | .launch, true => some 4
  | _, _ => none

def tryEnter (k : Entry) (regs : Registers) (e : Emulator) : Except VmFail Unit × Emulator :=
  match e.current with
  | none => (.error .invalid, e)
  | some vmcs =>
    match e.misplaced? k vmcs, e.failingEntry with
    | some code, _ => e.fail code
    | none, some code => { e with failingEntry := none }.fail code
    | none, none => (.ok (), e.runGuest k vmcs regs)

def enter (k : Entry) (regs : Registers) (e : Emulator) :
    Except Trap (Except VmFail Unit) × Registers × Emulator :=
  let (r, e) := (e.count k).tryEnter k regs
  (.ok r, regs, e)

def invept (s : EptScope) (d : Descriptor) (e : Emulator) : Except VmFail Unit × Emulator :=
  if e.inRoot then e.unlessInjected .invept (.ok (), e.record (.invept s d))
  else (.error .invalid, e)

/-- Tag 0 is the host's and can be dropped only along with all others. -/
def invvpid (s : VpidScope) (d : Descriptor) (e : Emulator) : Except VmFail Unit × Emulator :=
  if e.inRoot then
    if d.first = 0 ∧ s ≠ .allContexts then e.fail 28
    else e.unlessInjected .invvpid (.ok (), e.record (.invvpid s d))
  else (.error .invalid, e)

def writeHostState (e : Emulator) : Except VmFail Unit × Emulator :=
  match e.current with
  | none => (.error .invalid, e)
  | some vmcs =>
    e.unlessInjected .hostState (.ok (),
      { e.record .hostState with
        fields := e.fields.put (vmcs, Field.hostInstructionPointer) hostEntryPoint })

def timestamp (e : Emulator) : UInt64 × Emulator :=
  (e.clock + clockStep, { e with clock := e.clock + clockStep })

instance : Processor Emulator where
  present := present
  readMsr := readMsr
  writeMsr := writeMsr
  readCr0 e := e.cr0
  readCr4 e := e.cr4
  writeCr4 := writeCr4
  vmxon := vmxon
  vmxoff := vmxoff
  vmptrld := vmptrld
  vmclear := vmclear
  vmread := vmread
  vmwrite := vmwrite
  enter := enter
  invept := invept
  invvpid := invvpid
  writeHostState := writeHostState
  timestamp := timestamp

/-- What may differ between two emulated processors when they are switched on. -/
structure Model where
  vmx : Bool := true
  msrs : List (Msr × UInt64) := []
  cr0 : Option UInt64 := none
  cr4 : Option UInt64 := none

def ofModel (d : Model) : Emulator :=
  let e := d.msrs.foldl (fun e r => e.setMsr r.1 r.2) { new with vmx := d.vmx }
  let e := { e with cr0 := d.cr0.getD e.cr0 }
  match d.cr4 with
  | some v => e.writeCr4 v
  | none => e

end Emulator

end VmxControl
