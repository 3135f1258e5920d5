import VmxControl.Bench.Reply
import VmxControl.Bench.Rig
import VmxControl.Detection
import VmxControl.Holder

/-!
# Benches

A bench has numbered slots for cores, each with a processor, and keeps memory objects, capability
snapshots and tags under names. Two slots may share one processor. Every slot remembers how much
of its processor's journal it has shown.
-/

namespace VmxControl

inductive Occupant where
  | core (c : Core)
  | holder (h : Holder)

namespace Occupant

def mode : Occupant → Mode
  | .core c => c.mode
  | .holder h => h.mode

def root? : Occupant → Option Core.Root
  | .core c => c.root?
  | .holder h => h.root?

/-- The same occupant after its core in root operation has changed. -/
def withRoot (o : Occupant) (c : Core.Root) : Occupant :=
  match o with
  | .core _ => .core (.root c)
  | .holder _ => .holder ⟨some (.root c)⟩

def debug : Occupant → String
  | .core c => c.debug
  | .holder h => h.debug

def drop (o : Occupant) (s : Machine Rig) : Machine Rig :=
  match o with
  | .core c => c.drop s
  | .holder h => h.drop s

end Occupant

structure Slot where
  processor : Nat
  shownOps : Nat := 0
  shownReads : Nat := 0
  occupant : Option Occupant := none

structure Bench where
  slots : Named Nat Slot := []
  processors : List Rig := []
  objects : Named String MemoryObject := []
  snapshots : Named String Capabilities := []
  tags : Named String Tag := []
  pool : TagPool := {}
  telemetry : Telemetry := {}
  regs : Registers := .zero
  host : Host := {}
  shownTraffic : Nat := 0
  shownNotes : Nat := 0

namespace Bench

def rig (b : Bench) (s : Slot) : Rig := b.processors[s.processor]?.getD (.new {})

/-- The processor of a slot with the host of the bench. -/
def machine (b : Bench) (s : Slot) : Machine Rig := ⟨b.rig s, b.host⟩

def restore (b : Bench) (s : Slot) (m : Machine Rig) : Bench :=
  { b with processors := b.processors.set s.processor m.processor, host := m.host }

def occupy (b : Bench) (n : Nat) (s : Slot) (o : Option Occupant) : Bench :=
  { b with slots := b.slots.put n { s with occupant := o } }

/-- The slot after its occupant and its machine have changed. -/
def settle (b : Bench) (n : Nat) (s : Slot) (o : Occupant) (m : Machine Rig) : Bench :=
  (b.restore s m).occupy n s (some o)

def slot (b : Bench) (n : Nat) : Except Denial Slot :=
  match b.slots.get? n with
  | some s => .ok s
  | none => .error .noCore

def occupied (b : Bench) (n : Nat) : Except Denial (Slot × Occupant) :=
  match b.slots.get? n with
  | some s =>
    match s.occupant with
    | some o => .ok (s, o)
    | none => .error .noCore
  | none => .error .noCore

def core (b : Bench) (n : Nat) : Except Denial (Slot × Core) :=
  match b.occupied n with
  | .ok (s, .core c) => .ok (s, c)
  | .ok (_, .holder _) => .error .wrongState
  | .error d => .error d

def holder (b : Bench) (n : Nat) : Except Denial (Slot × Holder) :=
  match b.occupied n with
  | .ok (s, .holder h) => .ok (s, h)
  | .ok (_, .core _) => .error .wrongState
  | .error d => .error d

/-- A core in root operation, on its own or in a holder. -/
def root (b : Bench) (n : Nat) : Except Denial (Slot × Occupant × Core.Root) :=
  match b.occupied n with
  | .ok (s, o) =>
    match o.root? with
    | some c => .ok (s, o, c)
    | none => .error .wrongState
  | .error d => .error d

def region (b : Bench) (kind : RegionKind) (name : String) : Except Denial (Region kind) :=
  match (b.objects.get? name).bind (MemoryObject.region? kind) with
  | some r => .ok r
  | none => .error .wrongKind

def release (b : Bench) (o : MemoryObject) : Bench :=
  { b with host := b.host.release o.heldFrame }

/-- A new object of the same name displaces the old one, which is then given back. -/
def keep (b : Bench) (name : String) (o : MemoryObject) : Bench :=
  let b' := { b with objects := b.objects.put name o }
  match b.objects.get? name with
  | some old => b'.release old
  | none => b'

/-- An object that was handed back has its name again. -/
def takeBack (b : Bench) (name : String) (o : MemoryObject) : Bench :=
  { b with objects := b.objects.put name o }

def forget (b : Bench) (name : String) : Bench := { b with objects := b.objects.erase name }

def replyObject (b : Bench) (o : MemoryObject) : Reply :=
  .object o (b.host.memory.readWord o.addr)

def defaultSnapshot : String := "default"

/-- A snapshot by its name. The default one is detected on a processor of its own when it is first
asked for. -/
def snapshot (b : Bench) (name : String) : Except Denial (Capabilities × Bench) :=
  match b.snapshots.get? name with
  | some c => .ok (c, b)
  | none =>
    if name = defaultSnapshot then
      match Capabilities.detect ⟨Emulator.new, b.host⟩ with
      | (.ok c, m) => .ok (c, { b with snapshots := b.snapshots.put name c, host := m.host })
      | (.error _, _) => .error .badInput
    else .error .badInput

/-- A tag that was never allocated is the host's. -/
def tag (b : Bench) (name : String) : Tag := (b.tags.get? name).getD .host

def dropOccupant (b : Bench) (n : Nat) (s : Slot) : Bench :=
  match s.occupant with
  | some o => (b.restore s (o.drop (b.machine s))).occupy n s none
  | none => b

end Bench

end VmxControl
