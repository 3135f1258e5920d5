import VmxControl.Core.Guest
import VmxControl.Telemetry

/-!
# Dispatch

Runs a guest once and turns the exit into a record. The dispatcher counts entries and exits; what
an exit means is for its handler to say. An attempt counts as failed when the instruction fails or
when the exit stands for a failed entry; one that traps is not counted at all.
-/

namespace VmxControl

structure ExitRecord where
  reason : UInt16
  entryFailure : Bool
  qualification : UInt64
  /-- Taken right after the exit. -/
  timestamp : UInt64
  deriving DecidableEq, Repr

namespace ExitRecord

def reason? (r : ExitRecord) : Option ExitReason := ExitReason.ofCode? r.reason.toUInt32

def debug (r : ExitRecord) : String :=
  Text.record "ExitRecord" [("reason_code", toString r.reason.toNat),
    ("entry_failure", toString r.entryFailure), ("qualification", toString r.qualification.toNat),
    ("timestamp", toString r.timestamp.toNat)]

end ExitRecord

/-- All that a run of a guest may change. -/
structure Running (P : Type) where
  core : Core.Root
  regs : Registers
  telemetry : Telemetry
  machine : Machine P

/-- Gives an exit its meaning and may change the registers. -/
abbrev Handler (β : Type) := ExitRecord → Registers → Except Trap (β × Registers)

namespace Running

variable {P : Type} [Processor P]

def now (w : Running P) : UInt64 × Running P :=
  let (time, p) := Processor.timestamp w.machine.processor
  (time, { w with machine := { w.machine with processor := p } })

def note (w : Running P) (n : CoreNote) : Running P :=
  { w with machine := w.machine.note w.core.id n }

def failEntry (w : Running P) (n : CoreNote) : Running P :=
  { w with telemetry := w.telemetry.recordFailedEntry }.note n

def count (w : Running P) (raw : RawExit) (entered time : UInt64) : Running P :=
  if raw.entryFailure then w.failEntry (.entryFailedBy raw.basic)
  else
    { w with telemetry := (w.telemetry.recordEntry entered).recordExit raw.basic entered time }

/-- The qualification is read after the exit has been counted. -/
def report (w : Running P) (raw : RawExit) (time : UInt64) :
    Except Failure ExitRecord × Running P :=
  match w.machine.attempt (Processor.vmread Field.exitQualification) with
  | (.ok q, s) =>
    (.ok ⟨raw.basic, raw.entryFailure, q, time⟩, { w with machine := s }.note (.exited raw.basic))
  | (.error e, s) => (.error e, { w with machine := s })

def enter (w : Running P) (k : Entry) : Except Trap (Except Failure ExitRecord) × Running P :=
  let (entered, w) := w.now
  match w.core.enter k w.regs w.machine with
  | (.error t, core, regs, machine) => (.error t, { w with core, regs, machine })
  | (.ok (.error e), core, regs, machine) =>
    (.ok (.error e), { w with core, regs, machine }.failEntry (.entryFailed e))
  | (.ok (.ok raw), core, regs, machine) =>
    let (time, w) := { w with core, regs, machine }.now
    let (r, w) := (w.count raw entered time).report raw time
    (.ok r, w)

def launch (w : Running P) : Except Trap (Except Failure ExitRecord) × Running P := w.enter .launch

def resume (w : Running P) : Except Trap (Except Failure ExitRecord) × Running P := w.enter .resume

/-- Enters with the instruction that the current structure needs. -/
def run (w : Running P) : Except Trap (Except Failure ExitRecord) × Running P :=
  w.enter (if w.core.launched then .resume else .launch)

def dispatch {β : Type} (w : Running P) (h : Handler β) :
    Except Trap (Except Failure β) × Running P :=
  match w.run with
  | (.error t, w) => (.error t, w)
  | (.ok (.error e), w) => (.ok (.error e), w)
  | (.ok (.ok record), w) =>
    match h record w.regs with
    | .ok (b, regs) => (.ok (.ok b), { w with regs })
    | .error t => (.error t, w)

end Running

end VmxControl
