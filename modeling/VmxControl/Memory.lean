/-!
# Physical memory

Memory is handed out in frames of 4096 bytes and is otherwise a byte at every address. Each
request for a frame takes one answer from a script and is granted a fresh frame when the script is
empty. The traffic with the collaborator that owns the frames is kept, the latest first.
-/

namespace VmxControl

abbrev PhysAddr := UInt64

/-- How a request for a frame is answered. -/
inductive Grant where
  | fresh
  | refused
  /-- The address of a fresh frame moved up, so that it need not be aligned. -/
  | shifted (distance : UInt64)
  deriving DecidableEq, Repr

inductive Traffic where
  | requested (granted : Option PhysAddr)
  | returned (a : PhysAddr)
  deriving DecidableEq, Repr

structure Memory where
  granted : Nat := 0
  returned : Nat := 0
  script : List Grant := []
  bytes : PhysAddr → UInt8 := fun _ => 0
  traffic : List Traffic := []

namespace Memory

def frameSize : UInt64 := 4096

/-- Address of the frame that is granted after `n` others. -/
def frameAddr (n : Nat) : PhysAddr := 0x100000 + n.toUInt64 * frameSize

/-- Frames that are out. -/
def live (m : Memory) : Nat := m.granted - m.returned

def fill (m : Memory) (a : PhysAddr) (b : UInt8) : Memory :=
  { m with bytes := fun x => if x - a < frameSize then b else m.bytes x }

/-- Little-endian, like every word in memory. -/
def readWord (m : Memory) (a : PhysAddr) : UInt32 :=
  (m.bytes a).toUInt32 ||| (m.bytes (a + 1)).toUInt32 <<< 8 |||
    (m.bytes (a + 2)).toUInt32 <<< 16 ||| (m.bytes (a + 3)).toUInt32 <<< 24

def writeWord (m : Memory) (a : PhysAddr) (v : UInt32) : Memory :=
  { m with
    bytes := fun x =>
      if x = a then v.toUInt8
      else if x = a + 1 then (v >>> 8).toUInt8
      else if x = a + 2 then (v >>> 16).toUInt8
      else if x = a + 3 then (v >>> 24).toUInt8
      else m.bytes x }

/-- A fresh frame holds zeros whatever was there before. -/
def handOut (m : Memory) (distance : UInt64) : PhysAddr × Memory :=
  let a := frameAddr m.granted
  (a + distance,
    { m.fill a 0 with
      granted := m.granted + 1
      traffic := .requested (some (a + distance)) :: m.traffic })

def request (m : Memory) : Option PhysAddr × Memory :=
  let rest := { m with script := m.script.tail }
  match m.script.head? with
  | none => rest.handOut 0 |>.map some id
  | some .fresh => rest.handOut 0 |>.map some id
  | some (.shifted d) => rest.handOut d |>.map some id
  | some .refused => (none, { rest with traffic := .requested none :: rest.traffic })

def giveBack (m : Memory) (a : PhysAddr) : Memory :=
  { m with returned := m.returned + 1, traffic := .returned a :: m.traffic }

/-- A core sees physical memory where it lies. -/
def virtual (a : PhysAddr) : UInt64 := a

end Memory

end VmxControl
