import VmxControl.Core
import VmxControl.Machine

/-!
# Transitions

Enabling, entering root operation, and the way back. A transition that is rejected gives its
cause and hands back what it was given. Dropping a core takes it out of VMX operation as far as the
processor lets it.
-/

namespace VmxControl

variable {P : Type} [Processor P]

/-- Bits of the feature-control register: locked, and VMXON allowed outside of safer mode. -/
def lockBit : UInt64 := 1
def outsideSmxBit : UInt64 := 4

/-- Firmware that left the register unlocked leaves the choice to us. -/
def permitVmxon (s : Machine P) : Except Failure Unit × Machine P :=
  let (control, p) := Processor.readMsr .featureControl s.processor
  if control &&& lockBit = 0 then
    (.ok (), { s with
      processor := Processor.writeMsr .featureControl (control ||| lockBit ||| outsideSmxBit) p })
  else if control &&& outsideSmxBit = 0 then
    (.error (.unsupported "VMX disabled by BIOS"), { s with processor := p })
  else (.ok (), { s with processor := p })

namespace Capabilities

/-- The CR4 value with which a core of these capabilities can start VMX operation. -/
def prepare (caps : Capabilities) (cr0 cr4 : UInt64) : Except Failure UInt64 :=
  if !caps.cr0.admits cr0 then .error (.fixedBitsViolated "CR0")
  else if !caps.cr4.admits (cr4 ||| vmxe) then .error (.fixedBitsViolated "CR4")
  else if caps.basic.regionSize > 4096 then
    .error (.unsupported "VMX region size larger than 4K")
  else if caps.basic.memoryType ≠ BasicInfo.writeBack then
    .error (.unsupported "VMX memory type is not write-back")
  else if caps.basic.addr32 then .error (.unsupported "32-bit VMX regions")
  else .ok (cr4 ||| vmxe)

end Capabilities

namespace Core

namespace Disabled

def check (c : Disabled) (s : Machine P) : Except Failure UInt64 × Machine P :=
  if c.caps.supported then
    let (present, p) := Processor.present s.processor
    let s := { s with processor := p }
    if present then
      match permitVmxon s with
      | (.ok (), s) =>
        (c.caps.prepare (Processor.readCr0 s.processor) (Processor.readCr4 s.processor), s)
      | (.error e, s) => (.error e, s)
    else (.error (.unsupported "VMX"), s)
  else (.error (.unsupported "VMX"), s)

def enable (c : Disabled) (s : Machine P) : Except (Rejected Disabled) Enabled × Machine P :=
  match c.check s with
  | (.ok cr4, s) => (.ok ⟨c.toIdentity⟩, (s.writeCr4 cr4).note c.id .enabled)
  | (.error e, s) => (.error ⟨c, e⟩, s.note c.id (.cannotEnable e))

end Disabled

namespace Enabled

def disable (c : Enabled) (s : Machine P) : Disabled × Machine P :=
  (⟨c.toIdentity⟩, s.clearVmxe.note c.id .disabled)

def drop (_ : Enabled) (s : Machine P) : Machine P := s.clearVmxe

/-- A trap takes the region and the core with it. -/
def enterRoot (c : Enabled) (region : Region .vmxon) (s : Machine P) :
    Except Trap (Except (Rejected (Enabled × Region .vmxon)) Root) × Machine P :=
  match Processor.vmxon region.addr s.host.memory s.processor with
  | .error t => (.error t, c.drop (s.release region.frame))
  | .ok (.ok (), p) =>
    (.ok (.ok ⟨c.toIdentity, region, none⟩), { s with processor := p }.note c.id .enteredRoot)
  | .ok (.error f, p) =>
    let (why, s) := { s with processor := p }.diagnose f
    (.ok (.error ⟨(c, region), why⟩), s.note c.id (.vmxonFailed region.addr why))

end Enabled

namespace Root

/-- The current control structure has to be cleared first. -/
def exitRoot (c : Root) (s : Machine P) :
    Except (Rejected Root) (Enabled × Region .vmxon) × Machine P :=
  if c.current.isSome then (.error ⟨c, .regionBusy⟩, s.note c.id .vmxoffWithCurrent)
  else
    match s.attempt Processor.vmxoff with
    | (.ok (), s) => (.ok (⟨c.toIdentity⟩, c.vmxon), s.note c.id .leftRoot)
    | (.error e, s) => (.error ⟨c, e⟩, s.note c.id (.vmxoffFailed e))

/-- Clears and frees the current control structure, whether or not the clearing succeeds. -/
def dropCurrent (c : Root) (s : Machine P) : Machine P :=
  match c.current with
  | none => s
  | some cur => (s.exec (Processor.vmclear cur.region.addr)).2.release cur.region.frame

/-- A processor that does not leave VMX operation may still use the region, which is then never
given back. -/
def drop (c : Root) (s : Machine P) : Machine P :=
  match (c.dropCurrent (s.note c.id .droppedInRoot)).exec Processor.vmxoff with
  | (.ok (), s) => s.clearVmxe.release c.vmxon.frame
  | (.error _, s) => s

end Root

def drop (c : Core) (s : Machine P) : Machine P :=
  match c with
  | .disabled _ => s
  | .enabled c => c.drop s
  | .root c => c.drop s

end Core

end VmxControl
