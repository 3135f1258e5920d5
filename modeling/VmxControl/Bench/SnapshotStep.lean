import VmxControl.Bench.State

/-!
# Steps on capability snapshots

A snapshot is detected on a processor of its own and may then have two of its parts overwritten.
Instead of being kept it can be compared with one that was kept before.
-/

namespace VmxControl

/-- What is overwritten in a snapshot after its detection. -/
structure Override where
  revision : Option UInt32 := none
  supported : Option Bool := none
  deriving DecidableEq, Repr

def Override.apply (o : Override) (c : Capabilities) : Capabilities :=
  { c with
    basic := { c.basic with revision := o.revision.getD c.basic.revision }
    supported := o.supported.getD c.supported }

inductive SnapshotStep where
  | make (name : String) (model : Emulator.Model) (o : Override)
  | compare (name : String) (model : Emulator.Model) (o : Override)
  | show (name : String)
  | adjust (name : String) (group : ControlGroup) (requested : UInt32)

namespace Bench

def detect (b : Bench) (model : Emulator.Model) (o : Override) :
    Except Failure Capabilities × Bench :=
  let (r, m) := Capabilities.detect ⟨Emulator.ofModel model, b.host⟩
  (r.map o.apply, { b with host := m.host })

def snapshotStep (b : Bench) : SnapshotStep → Except Denial (Reply × Bench)
  | .make name model o =>
    match b.detect model o with
    | (.ok c, b) => return (.done, { b with snapshots := b.snapshots.put name c })
    | (.error e, b) => return (.failed e, b)
  | .compare name model o =>
    match b.detect model o with
    | (.ok c, b) => do
      let (other, b) ← b.snapshot name
      return (.truth (c == other), b)
    | (.error e, b) => return (.failed e, b)
  | .show name => do
    let (c, b) ← b.snapshot name
    return (.capabilities c, b)
  | .adjust name group requested => do
    let (c, b) ← b.snapshot name
    match (c.controls group).adjust requested with
    | .ok v => return (.adjusted v (c.controls group), b)
    | .error e => return (.failed e, b)

end Bench

end VmxControl
