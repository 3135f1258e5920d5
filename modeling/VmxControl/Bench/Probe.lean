import VmxControl.Bench.Reply
import VmxControl.Detection

/-!
# Probes

Detection on an emulated processor that has just been switched on, with what it cost: the
registers that were read and the questions put to CPUID.
-/

namespace VmxControl

structure Probe where
  result : Except Failure Capabilities
  /-- In the order in which they were read. -/
  reads : List Msr
  cpuidQueries : Nat

namespace Probe

def ofEmulator (result : Except Failure Capabilities) (e : Emulator) : Probe :=
  ⟨result, e.msrReads.reverse, e.cpuidQueries⟩

def run (model : Emulator.Model) : Probe :=
  let (r, s) := Capabilities.detect ⟨Emulator.ofModel model, {}⟩
  ofEmulator r s.processor

def bootFrom (b : BootSnapshot) : List Emulator.Model → List Probe
  | [] => []
  | model :: rest =>
    let (r, b, s) := b.get ⟨Emulator.ofModel model, {}⟩
    ofEmulator r s.processor :: bootFrom b rest

/-- Every processor in turn asks for the snapshot of one boot. -/
def boot (models : List Emulator.Model) : List Probe := bootFrom {} models

end Probe

end VmxControl
