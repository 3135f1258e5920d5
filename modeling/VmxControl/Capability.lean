import VmxControl.Control
import VmxControl.Invalidation

/-!
# Capabilities

What a processor announces about VMX operation: the format of its regions, its control groups, the
fixed bits of CR0 and CR4, and how finely it can drop cached translations. `Announcement` holds the
words as they are read, `Capabilities` what they mean.
-/

namespace VmxControl

/-- The basic word: the format of regions and two optional features. -/
structure BasicInfo where
  revision : UInt32
  regionSize : UInt16
  addr32 : Bool
  memoryType : UInt8
  ioExitInfo : Bool
  trueControls : Bool
  deriving DecidableEq, Repr

namespace BasicInfo

def writeBack : UInt8 := 6

def ofWord (w : UInt64) : BasicInfo where
  revision := (w &&& 0x7fffffff).toUInt32
  regionSize := (w >>> 32 &&& 0x1fff).toUInt16
  addr32 := w >>> 48 &&& 1 == 1
  memoryType := (w >>> 50 &&& 0xf).toUInt8
  ioExitInfo := w >>> 54 &&& 1 == 1
  trueControls := w >>> 55 &&& 1 == 1

def debug (b : BasicInfo) : String :=
  Text.record "VmxBasic" [("revision_id", toString b.revision.toNat),
    ("region_size", toString b.regionSize.toNat), ("is_32bit_address", toString b.addr32),
    ("mem_type", toString b.memoryType.toNat), ("io_exit_info", toString b.ioExitInfo),
    ("true_controls", toString b.trueControls)]

end BasicInfo

/-- The abilities of extended page tables and tags that are looked at; other bits are dropped. -/
structure IsolationFlags where
  bits : UInt64
  deriving DecidableEq, Repr

namespace IsolationFlags

def bit (n : UInt64) : UInt64 := (1 : UInt64) <<< n

/-- Name and bit of each ability. -/
def table : List (String × UInt64) :=
  [("EXECUTE_ONLY", 0),
   ("PAGE_WALK_4", 6),
   ("MEMORY_TYPE_UC", 8),
   ("MEMORY_TYPE_WB", 14),
   ("PAGE_2M", 16),
   ("PAGE_1G", 17),
   ("INVEPT", 20),
   ("ACCESSED_DIRTY", 21),
   ("INVEPT_SINGLE_CONTEXT", 25),
   ("INVEPT_ALL_CONTEXTS", 26),
   ("INVVPID", 32),
   ("INVVPID_INDIVIDUAL_ADDRESS", 40),
   ("INVVPID_SINGLE_CONTEXT", 41),
   ("INVVPID_ALL_CONTEXTS", 42),
   ("INVVPID_SINGLE_CONTEXT_RETAINING_GLOBALS", 43)].map fun e => (e.1, bit e.2)

/-- All abilities of the table. -/
def known : UInt64 := table.foldl (fun m e => m ||| e.2) 0

def ofWord (w : UInt64) : IsolationFlags := ⟨w &&& known⟩

def empty : IsolationFlags := ⟨0⟩

def contains (f : IsolationFlags) (mask : UInt64) : Bool := f.bits &&& mask == mask

def names (f : IsolationFlags) : List String := (table.filter fun e => f.contains e.2).map (·.1)

def invept : UInt64 := bit 20

def invvpid : UInt64 := bit 32

def eptBit : EptScope → UInt64
  | .singleContext => bit 25
  | .allContexts => bit 26

def vpidBit : VpidScope → UInt64
  | .individualAddress => bit 40
  | .singleContext => bit 41
  | .allContexts => bit 42
  | .singleContextRetainingGlobals => bit 43

def debug (f : IsolationFlags) : String :=
  "EptVpidCaps(" ++ (if f.bits = 0 then Text.hex 0 else " | ".intercalate f.names) ++ ")"

end IsolationFlags

structure Isolation where
  ept : Bool
  vpid : Bool
  flags : IsolationFlags
  deriving DecidableEq, Repr

namespace Isolation

def supportsInvept (i : Isolation) (s : EptScope) : Bool :=
  i.ept && i.flags.contains (IsolationFlags.invept ||| IsolationFlags.eptBit s)

def supportsInvvpid (i : Isolation) (s : VpidScope) : Bool :=
  i.vpid && i.flags.contains (IsolationFlags.invvpid ||| IsolationFlags.vpidBit s)

def debug (i : Isolation) : String :=
  Text.record "IsolationCapabilities"
    [("ept", toString i.ept), ("vpid", toString i.vpid), ("flags", i.flags.debug)]

end Isolation

/-- The capability words of a processor. A word that is not announced is not there. -/
structure Announcement where
  basic : UInt64
  pin : UInt64
  primary : UInt64
  exit : UInt64
  entry : UInt64
  cr0Fixed0 : UInt64
  cr0Fixed1 : UInt64
  cr4Fixed0 : UInt64
  cr4Fixed1 : UInt64
  secondary : Option UInt64
  eptVpid : Option UInt64
  vmFunctions : Option UInt64
  deriving DecidableEq, Repr

structure Capabilities where
  supported : Bool
  basic : BasicInfo
  pin : Controls
  primary : Controls
  secondary : Controls
  exit : Controls
  entry : Controls
  cr0 : FixedBits
  cr4 : FixedBits
  isolation : Isolation
  unrestrictedGuest : Bool
  vmFunctions : Option UInt64
  deriving DecidableEq, Repr

/-- Controls by their bit: one in the primary group, four in the secondary. -/
def secondaryControlsBit : UInt32 := (1 : UInt32) <<< 31
def eptControl : UInt32 := (1 : UInt32) <<< 1
def vpidControl : UInt32 := (1 : UInt32) <<< 5
def unrestrictedGuestControl : UInt32 := (1 : UInt32) <<< 7
def vmFunctionsControl : UInt32 := (1 : UInt32) <<< 13

namespace Capabilities

def secondaryControls : Option UInt64 → Controls
  | some w => .ofWord .secondary w
  | none => .absent .secondary

def ofAnnouncement (a : Announcement) : Capabilities :=
  let secondary := secondaryControls a.secondary
  { supported := true
    basic := .ofWord a.basic
    pin := .ofWord .pinBased a.pin
    primary := .ofWord .primary a.primary
    secondary
    exit := .ofWord .exit a.exit
    entry := .ofWord .entry a.entry
    cr0 := .ofWords a.cr0Fixed0 a.cr0Fixed1
    cr4 := .ofWords a.cr4Fixed0 a.cr4Fixed1
    isolation := {
      ept := secondary.allows eptControl
      vpid := secondary.allows vpidControl
      flags := match a.eptVpid with
        | some w => .ofWord w
        | none => .empty }
    unrestrictedGuest := secondary.allows unrestrictedGuestControl
    vmFunctions := a.vmFunctions }

def controls (c : Capabilities) : ControlGroup → Controls
  | .pinBased => c.pin
  | .primary => c.primary
  | .secondary => c.secondary
  | .exit => c.exit
  | .entry => c.entry

def extendedFunctions (c : Capabilities) : Bool := c.vmFunctions.isSome

end Capabilities

end VmxControl
