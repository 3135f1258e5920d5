import VmxControl.Field
import VmxControl.Mnemonic
import VmxControl.Processor
import VmxControl.Script
import VmxControl.Store

/-!
# A processor for native instructions

Executes the instructions of the running processor one by one and keeps what it executed, the
latest first. It checks neither modes nor operands: an instruction fails only if a scripted
failure says so, and a scripted failure that sets neither flag is a success after all.
-/

namespace VmxControl.Native

inductive Instruction where
  | rdmsr (register : UInt32)
  | wrmsr (register : UInt32) (value : UInt64)
  | readCr0
  | readCr3
  | readCr4
  | writeCr4 (value : UInt64)
  | vmread (field : UInt32)
  | vmwrite (field : UInt32) (value : UInt64)
  | vmxon (region : PhysAddr)
  | vmxoff
  | vmptrld (region : PhysAddr)
  | vmclear (region : PhysAddr)
  | invept (scope : EptScope) (d : Descriptor)
  | invvpid (scope : VpidScope) (d : Descriptor)
  | enter (kind : Entry) (loaded : Registers)
  deriving DecidableEq, Repr

structure Flags where
  cf : Bool
  zf : Bool
  deriving DecidableEq, Repr

namespace Flags

def clear : Flags := ⟨false, false⟩

def outcome (f : Flags) : Except VmFail Unit := VmFail.ofFlags f.cf f.zf

end Flags

structure ScriptedFailure where
  name : Mnemonic
  /-- Restricts the failure to accesses of one field. -/
  field : Option UInt32
  flags : Flags
  deriving DecidableEq, Repr

structure Software where
  msrs : Store UInt32 UInt64 := .const 0
  cr0 : UInt64 := 0
  cr3 : UInt64 := 0
  cr4 : UInt64 := 0
  fields : Store UInt32 UInt64 := .const 0
  failures : List ScriptedFailure := []
  /-- What each guest leaves in the registers. -/
  guests : List (List (UInt8 × UInt64)) := []
  executed : List Instruction := []

namespace Instruction

/-- The name and field by which a scripted failure finds the instruction. -/
def target : Instruction → Option (Mnemonic × Option UInt32)
  | .vmread f => some (.vmread, some f)
  | .vmwrite f _ => some (.vmwrite, some f)
  | .vmxon _ => some (.vmxon, none)
  | .vmxoff => some (.vmxoff, none)
  | .vmptrld _ => some (.vmptrld, none)
  | .vmclear _ => some (.vmclear, none)
  | .invept _ _ => some (.invept, none)
  | .invvpid _ _ => some (.invvpid, none)
  | .enter .launch _ => some (.vmlaunch, none)
  | .enter .resume _ => some (.vmresume, none)
  | _ => none

end Instruction

def ScriptedFailure.fits (f : ScriptedFailure) (i : Instruction) : Bool :=
  match i.target with
  | some (name, field) => f.name == name && (f.field.isNone || f.field == field)
  | none => false

namespace Software

def record (s : Software) (i : Instruction) : Software := { s with executed := i :: s.executed }

/-- An instruction of the VMX family leaves the flags of the earliest scripted failure that fits it,
and clear ones if there is none. -/
def perform (s : Software) (i : Instruction) : Flags × Software :=
  let s := s.record i
  match Script.take? (fun f => f.fits i) s.failures with
  | some (f, rest) => (f.flags, { s with failures := rest })
  | none => (.clear, s)

def exec (s : Software) (i : Instruction) : Except VmFail Unit × Software :=
  let (flags, s) := s.perform i
  (flags.outcome, s)

def rdmsr (r : UInt32) (s : Software) : UInt64 × Software := (s.msrs.get r, s.record (.rdmsr r))

def wrmsr (r : UInt32) (v : UInt64) (s : Software) : Software :=
  { s.record (.wrmsr r v) with msrs := s.msrs.put r v }

def readCr0 (s : Software) : UInt64 × Software := (s.cr0, s.record .readCr0)

def readCr3 (s : Software) : UInt64 × Software := (s.cr3, s.record .readCr3)

def readCr4 (s : Software) : UInt64 × Software := (s.cr4, s.record .readCr4)

def writeCr4 (v : UInt64) (s : Software) : Software := { s.record (.writeCr4 v) with cr4 := v }

def vmread (f : UInt32) (s : Software) : Except VmFail UInt64 × Software :=
  match s.exec (.vmread f) with
  | (.ok (), s) => (.ok (s.fields.get f), s)
  | (.error e, s) => (.error e, s)

/-- VMWRITE up to the flags that it leaves. A write that fails stores nothing. -/
def store (f : UInt32) (v : UInt64) (s : Software) : Flags × Software :=
  let (flags, s) := s.perform (.vmwrite f v)
  (flags, if flags = .clear then { s with fields := s.fields.put f v } else s)

def vmwrite (f : UInt32) (v : UInt64) (s : Software) : Except VmFail Unit × Software :=
  let (flags, s) := s.store f v
  (flags.outcome, s)

/-- A guest that was let in runs with the registers it was given and leaves its own. -/
def runGuest (regs : Registers) (s : Software) : Registers × Software :=
  (regs.load (s.guests.head?.getD []), { s with guests := s.guests.tail })

end Software

end VmxControl.Native
