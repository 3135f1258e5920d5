import VmxControl.Capability
import VmxControl.Machine

/-!
# Detection

No capability register is read unless CPUID reports VMX, and none that an earlier word does not
announce. What was detected first at boot is what every later question gets.
-/

namespace VmxControl

variable {P : Type} [Processor P]

/-- Reads the register only if it is announced. -/
def readIf (announced : Bool) (r : Msr) (p : P) : Option UInt64 × P :=
  if announced then
    let (w, p) := Processor.readMsr r p
    (some w, p)
  else (none, p)

namespace Announcement

def read (p : P) : Announcement × P :=
  let (basic, p) := Processor.readMsr .vmxBasic p
  let exact := (BasicInfo.ofWord basic).trueControls
  let (pin, p) := Processor.readMsr (if exact then .vmxTruePinbasedCtls else .vmxPinbasedCtls) p
  let (primary, p) :=
    Processor.readMsr (if exact then .vmxTrueProcbasedCtls else .vmxProcbasedCtls) p
  let (exit, p) := Processor.readMsr (if exact then .vmxTrueExitCtls else .vmxExitCtls) p
  let (entry, p) := Processor.readMsr (if exact then .vmxTrueEntryCtls else .vmxEntryCtls) p
  let (cr0Fixed0, p) := Processor.readMsr .vmxCr0Fixed0 p
  let (cr0Fixed1, p) := Processor.readMsr .vmxCr0Fixed1 p
  let (cr4Fixed0, p) := Processor.readMsr .vmxCr4Fixed0 p
  let (cr4Fixed1, p) := Processor.readMsr .vmxCr4Fixed1 p
  let (secondary, p) :=
    readIf ((Controls.ofWord .primary primary).allows secondaryControlsBit) .vmxProcbasedCtls2 p
  let controls := Capabilities.secondaryControls secondary
  let (eptVpid, p) :=
    readIf (controls.allows eptControl || controls.allows vpidControl) .vmxEptVpidCap p
  let (vmFunctions, p) := readIf (controls.allows vmFunctionsControl) .vmxVmfunc p
  ({ basic, pin, primary, exit, entry, cr0Fixed0, cr0Fixed1, cr4Fixed0, cr4Fixed1, secondary,
     eptVpid, vmFunctions }, p)

end Announcement

namespace Capabilities

def detect (s : Machine P) : Except Failure Capabilities × Machine P :=
  let (present, p) := Processor.present s.processor
  if present then
    let (words, p) := Announcement.read p
    let c := ofAnnouncement words
    (.ok c, ⟨p, s.host.note
      (.detected c.basic.revision c.basic.trueControls c.isolation.ept c.isolation.vpid)⟩)
  else (.error (.unsupported "VMX"), ⟨p, s.host.note .notPresent⟩)

end Capabilities

/-- The capabilities found at boot, once there are some. -/
structure BootSnapshot where
  found : Option Capabilities := none

namespace BootSnapshot

/-- Capabilities do not change while a processor runs, so it is asked only until it has answered. -/
def get (b : BootSnapshot) (s : Machine P) :
    Except Failure Capabilities × BootSnapshot × Machine P :=
  match b.found with
  | some c => (.ok c, b, s)
  | none =>
    match Capabilities.detect s with
    | (.ok c, s) => (.ok c, ⟨some c⟩, s)
    | (.error e, s) => (.error e, b, s)

end BootSnapshot

end VmxControl
