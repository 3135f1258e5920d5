import VmxControl.Bench.State

/-!
# Steps on memory objects

A step on an object that is not there is denied first. One that changes what an object is leaves
it under its name. The snapshot that such a step names is looked up even where only stamping uses
it.
-/

namespace VmxControl

inductive ObjectStep where
  | stamp (caps : String)
  | toRaw (caps : String)
  | toFrame (caps : String)
  | ofFrame (caps : String) (kind : RegionKind)
  | show
  | drop
  | fill (byte : UInt8)
  | write (offset : UInt64) (v : UInt32)
  | read (offset : UInt64)
  | sum
  | unknown
  deriving DecidableEq, Repr

inductive MemoryStep where
  | frame (name : String) (zero : Bool)
  | raw (name : String) (kind : RegionKind)
  | on (name : String) (step : ObjectStep)
  deriving DecidableEq, Repr

namespace Bench

/-- Puts a changed object in the place of what it was. -/
def become (b : Bench) (name : String) (o : MemoryObject) : Reply × Bench :=
  let b := { b with objects := b.objects.put name o }
  (b.replyObject o, b)

def addObject (b : Bench) (name : String) : Except Failure MemoryObject × Host → Reply × Bench
  | (.ok o, host) =>
    let b := { b with host }.keep name o
    (b.replyObject o, b)
  | (.error e, host) => (.failed e, { b with host })

def newFrame (b : Bench) (name : String) (zero : Bool) : Reply × Bench :=
  let (r, host) := if zero then b.host.allocateZeroed else b.host.allocate
  b.addObject name (r.map .frame, host)

def newRaw (b : Bench) (name : String) (kind : RegionKind) : Reply × Bench :=
  let (r, host) := RawRegion.allocate kind b.host
  b.addObject name (r.map (.raw kind), host)

def dropObject (b : Bench) (name : String) (o : MemoryObject) : Reply × Bench :=
  (.done, (b.forget name).release o)

def wrongKind (b : Bench) : Reply × Bench := (.denied .wrongKind, b)

def stampObject (b : Bench) (name : String) (o : MemoryObject) (caps : Capabilities) :
    Reply × Bench :=
  match o with
  | .raw kind r =>
    let (region, host) := r.stamp caps b.host
    { b with host }.become name (.stamped kind region)
  | _ => b.wrongKind

def rawObject (b : Bench) (name : String) (o : MemoryObject) : Reply × Bench :=
  match o with
  | .stamped kind r => b.become name (.raw kind r.toRaw)
  | _ => b.wrongKind

def frameObject (b : Bench) (name : String) (o : MemoryObject) : Reply × Bench :=
  match o with
  | .raw _ r => b.become name (.frame r.frame)
  | _ => b.wrongKind

def regionObject (b : Bench) (name : String) (o : MemoryObject) (kind : RegionKind) :
    Reply × Bench :=
  match o with
  | .frame f => b.become name (.raw kind ⟨f⟩)
  | _ => b.wrongKind

def onFrame (b : Bench) (o : MemoryObject) (step : Frame → Reply × Bench) : Reply × Bench :=
  match o.frame? with
  | some f => step f
  | none => b.wrongKind

def Aligned (offset : UInt64) : Prop := offset % 4 = 0

instance (offset : UInt64) : Decidable (Aligned offset) := inferInstanceAs (Decidable (_ = _))

def writeFrame (b : Bench) (offset : UInt64) (v : UInt32) (f : Frame) : Reply × Bench :=
  if Aligned offset then
    match f.write offset v b.host.memory with
    | .ok memory => (.done, { b with host := { b.host with memory } })
    | .error t => (.trapped t, b)
  else b.wrongKind

def readFrame (b : Bench) (offset : UInt64) (f : Frame) : Reply × Bench :=
  if Aligned offset then
    (.ofTrap (fun v => .word v.toUInt64) (f.read offset b.host.memory), b)
  else b.wrongKind

def objectStep (b : Bench) (name : String) (o : MemoryObject) :
    ObjectStep → Except Denial (Reply × Bench)
  | .stamp caps => do
    let (caps, b) ← b.snapshot caps
    return b.stampObject name o caps
  | .toRaw caps => do
    let (_, b) ← b.snapshot caps
    return b.rawObject name o
  | .toFrame caps => do
    let (_, b) ← b.snapshot caps
    return b.frameObject name o
  | .ofFrame caps kind => do
    let (_, b) ← b.snapshot caps
    return b.regionObject name o kind
  | .show => return (b.replyObject o, b)
  | .drop => return b.dropObject name o
  | .fill byte => return b.onFrame o fun f => (.done, { b with host := b.host.fill f byte })
  | .write offset v => return b.onFrame o (b.writeFrame offset v)
  | .read offset => return b.onFrame o (b.readFrame offset)
  | .sum => return b.onFrame o fun f => (.word (f.sum b.host.memory).toUInt64, b)
  | .unknown => throw .badInput

def memoryStep (b : Bench) : MemoryStep → Except Denial (Reply × Bench)
  | .frame name zero => return b.newFrame name zero
  | .raw name kind => return b.newRaw name kind
  | .on name step =>
    match b.objects.get? name with
    | some o => b.objectStep name o step
    | none => throw .noRegion

end Bench

end VmxControl
