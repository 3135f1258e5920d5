import VmxControl.Capability
import VmxControl.Frame

/-!
# Regions

VMX operation needs one region for a core and one for each virtual machine. A raw region is a
frame set aside for one of the two kinds. Stamping it zeroes the frame, writes the revision of the
processor into its first word, and makes it a region that the processor may be given.
-/

namespace VmxControl

inductive RegionKind where
  | vmxon
  | vmcs
  deriving DecidableEq, Repr

namespace RegionKind

def name : RegionKind → String
  | .vmxon => "VMXON"
  | .vmcs => "VMCS"

def ofName? (s : String) : Option RegionKind := [vmxon, vmcs].find? fun k => k.name == s

end RegionKind

structure RawRegion (kind : RegionKind) where
  frame : Frame
  deriving DecidableEq, Repr

structure Region (kind : RegionKind) where
  frame : Frame
  revision : UInt32
  deriving DecidableEq, Repr

namespace RawRegion

variable {kind : RegionKind}

def addr (r : RawRegion kind) : PhysAddr := r.frame.addr

def allocate (kind : RegionKind) (h : Host) : Except Failure (RawRegion kind) × Host :=
  match h.allocateZeroed with
  | (.ok f, h) => (.ok ⟨f⟩, h)
  | (.error e, h) => (.error e, h)

/-- Bit 31 of the first word marks a shadow structure, so it stays clear. -/
def stampOf (revision : UInt32) : UInt32 := revision &&& 0x7fffffff

def stamp (r : RawRegion kind) (caps : Capabilities) (h : Host) : Region kind × Host :=
  let revision := stampOf caps.basic.revision
  let h := h.fill r.frame 0
  let h := { h with memory := h.memory.writeWord r.addr revision }
  (⟨r.frame, revision⟩, h.note (.stamped kind.name r.addr revision))

def debug (r : RawRegion kind) : String :=
  Text.record "RawRegion" [("kind", Text.quoted kind.name), ("paddr", Text.address r.addr)]

end RawRegion

namespace Region

variable {kind : RegionKind}

def addr (r : Region kind) : PhysAddr := r.frame.addr

/-- The word that the region carries now. -/
def stored (r : Region kind) (m : Memory) : UInt32 := m.readWord r.addr

def toRaw (r : Region kind) : RawRegion kind := ⟨r.frame⟩

def release (r : Region kind) (h : Host) : Host := h.release r.frame

def debug (r : Region kind) : String :=
  Text.record "Region" [("kind", Text.quoted kind.name), ("paddr", Text.address r.addr),
    ("revision", toString r.revision.toNat)]

end Region

end VmxControl
