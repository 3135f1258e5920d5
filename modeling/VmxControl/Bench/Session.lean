import VmxControl.Bench.CoreStep
import VmxControl.Bench.MemoryStep
import VmxControl.Bench.ProcessorStep
import VmxControl.Bench.SnapshotStep
import VmxControl.Run

/-!
# Sessions

A session is a list of steps on an empty bench. After every step the bench shows the answer, the
state of the slot that the step names, and what has happened since it last looked. At the end the
cores are dropped slot by slot, and the memory objects in the order of their names.
-/

namespace VmxControl

inductive Action where
  | core (s : CoreStep)
  | processor (s : ProcessorStep)
  | memory (s : MemoryStep)
  | snapshot (s : SnapshotStep)
  | tag (name : String)
  | grants (script : List Grant)
  | registers (s : RegisterStep)
  | telemetry (s : TelemetryStep)
  | malformed

structure Step where
  slot : Nat
  action : Action

/-- What is shown after a step. -/
structure Row where
  reply : Option Reply
  mode : Option Mode
  root : Option Core.Root
  ops : List Op
  reads : List Msr
  traffic : List Traffic
  live : Nat
  notes : List Note

namespace Bench

def takeTag (b : Bench) (name : String) : Reply × Bench :=
  match b.pool.allocate b.host with
  | (.ok t, pool, host) =>
    (.tag t pool.allocated, { b with pool, host, tags := b.tags.put name t })
  | (.error e, pool, host) => (.failed e, { b with pool, host })

def appendGrants (b : Bench) (script : List Grant) : Bench :=
  { b with host := { b.host with
      memory := { b.host.memory with script := b.host.memory.script ++ script } } }

def act (b : Bench) (n : Nat) : Action → Except Denial (Reply × Bench)
  | .core s => b.coreStep n s
  | .processor s => b.processorStep n s
  | .memory s => b.memoryStep s
  | .snapshot s => b.snapshotStep s
  | .tag name => return b.takeTag name
  | .grants script => return (.done, b.appendGrants script)
  | .registers s =>
    let (r, regs) := s.run b.regs
    return (r, { b with regs })
  | .telemetry s =>
    let (r, telemetry) := s.run b.telemetry
    return (r, { b with telemetry })
  | .malformed => throw .badInput

/-- A denied step changes nothing. -/
def step (b : Bench) (s : Step) : Reply × Bench :=
  match b.act s.slot s.action with
  | .ok r => r
  | .error d => (.denied d, b)

/-- The traffic and the notes since the last row. -/
def lookAtHost (b : Bench) : Row × Bench :=
  ({ reply := none
     mode := none
     root := none
     ops := []
     reads := []
     traffic := Run.newest b.host.memory.traffic b.shownTraffic
     live := b.host.memory.live
     notes := Run.newest b.host.notes b.shownNotes },
   { b with
     shownTraffic := b.host.memory.traffic.length
     shownNotes := b.host.notes.length })

/-- The host together with one slot. -/
def lookAt (b : Bench) (n : Nat) : Row × Bench :=
  let (row, b) := b.lookAtHost
  match b.slots.get? n with
  | none => (row, b)
  | some s =>
    let e := (b.rig s).emulator
    let seen := { s with shownOps := e.journal.length, shownReads := e.msrReads.length }
    ({ row with
       mode := s.occupant.map Occupant.mode
       root := s.occupant.bind Occupant.root?
       ops := Run.newest e.journal s.shownOps
       reads := Run.newest e.msrReads s.shownReads },
     { b with slots := b.slots.put n seen })

def answer (b : Bench) (s : Step) : Row × Bench :=
  let (reply, b) := b.step s
  let (row, b) := b.lookAt s.slot
  ({ row with reply := some reply }, b)

def finishSlot (b : Bench) (n : Nat) : Row × Bench :=
  match b.slots.get? n with
  | some s => (b.dropOccupant n s).lookAt n
  | none => b.lookAt n

def finishObjects (b : Bench) : Bench :=
  { b.objects.foldl (fun b o => b.release o.2) b with objects := [] }

/-- The rows of the steps, and those of the end. -/
def session (steps : List Step) : List Row × List Row :=
  let (rows, b) := Run.answers answer {} steps
  let (ends, b) := Run.answers finishSlot b (b.slots.map (·.1))
  (rows, ends ++ [b.finishObjects.lookAtHost.1])

end Bench

end VmxControl
