import VmxControl.Note
import VmxControl.Trap

/-!
# Frames

A frame belongs to whoever holds its value until it is given back. The host is what all cores
share: memory and the notes taken so far, the latest first. A word is accessed only where it ends
inside the frame, and the sum that says where it ends is itself checked, unless the program is built
to let sums wrap.
-/

namespace VmxControl

structure Host where
  memory : Memory := {}
  notes : List Note := []

structure Frame where
  addr : PhysAddr
  deriving DecidableEq, Repr

/-- What becomes of a sum that is too large for its word. A program can be built either way. -/
inductive Arithmetic where
  | checked
  | wrapping
  deriving DecidableEq, Repr

def Arithmetic.add : Arithmetic → UInt64 → UInt64 → Except Trap UInt64
  | .checked, a, b => if a + b < a then .error .overflow else .ok (a + b)
  | .wrapping, a, b => .ok (a + b)

namespace Host

def note (h : Host) (n : Note) : Host := { h with notes := n :: h.notes }

/-- A frame that is not aligned is of no use and goes back at once. -/
def allocate (h : Host) : Except Failure Frame × Host :=
  match h.memory.request with
  | (none, m) => (.error .noMemory, { h with memory := m })
  | (some a, m) =>
    let h := { h with memory := m }
    if a &&& 0xfff = 0 then (.ok ⟨a⟩, h.note (.frameAllocated a))
    else
      let h := h.note (.frameMisaligned a)
      (.error .noMemory, { h with memory := h.memory.giveBack a })

def release (h : Host) (f : Frame) : Host :=
  { h with memory := h.memory.giveBack f.addr }.note (.frameReleased f.addr)

def fill (h : Host) (f : Frame) (b : UInt8) : Host :=
  { h with memory := h.memory.fill f.addr b }

def allocateZeroed (h : Host) : Except Failure Frame × Host :=
  match h.allocate with
  | (.ok f, h) => (.ok f, h.fill f 0)
  | (.error e, h) => (.error e, h)

end Host

namespace Frame

/-- Where in memory the word at an offset lies. -/
def locate (f : Frame) (offset : UInt64) (sums : Arithmetic := .checked) : Except Trap PhysAddr :=
  match sums.add offset 4 with
  | .error t => .error t
  | .ok stop =>
    if stop ≤ Memory.frameSize then .ok (f.addr + offset) else .error .beyondFrame

def read (f : Frame) (offset : UInt64) (m : Memory) (sums : Arithmetic := .checked) :
    Except Trap UInt32 :=
  (f.locate offset sums).map m.readWord

def write (f : Frame) (offset : UInt64) (v : UInt32) (m : Memory)
    (sums : Arithmetic := .checked) : Except Trap Memory :=
  (f.locate offset sums).map fun a => m.writeWord a v

/-- Sum of the words of the frame. -/
def sum (f : Frame) (m : Memory) : Nat :=
  (List.range 1024).foldl (fun s i => s + (m.readWord (f.addr + 4 * i.toUInt64)).toNat) 0

end Frame

end VmxControl
