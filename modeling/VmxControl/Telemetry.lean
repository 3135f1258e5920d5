import VmxControl.Text

/-!
# Telemetry

Counters of entries and exits that all cores share. A record is a list of updates, each of which
touches one counter and happens at once. Counters wrap. Exits are counted by their basic reason,
those from 80 up together.
-/

namespace VmxControl

structure TelemetrySnapshot where
  entries : UInt64 := 0
  exits : UInt64 := 0
  failedEntries : UInt64 := 0
  lastEntry : UInt64 := 0
  lastExit : UInt64 := 0
  /-- Ticks between entries and their exits. -/
  guestCycles : UInt64 := 0
  deriving DecidableEq, Repr

def TelemetrySnapshot.debug (t : TelemetrySnapshot) : String :=
  Text.record "TelemetrySnapshot" [("entries", toString t.entries.toNat),
    ("exits", toString t.exits.toNat), ("failed_entries", toString t.failedEntries.toNat),
    ("last_entry", toString t.lastEntry.toNat), ("last_exit", toString t.lastExit.toNat),
    ("guest_cycles", toString t.guestCycles.toNat)]

namespace Telemetry

/-- Reasons below this have a bucket of their own. -/
def trackedReasons : Nat := 80

end Telemetry

structure Telemetry where
  counters : TelemetrySnapshot := {}
  /-- One bucket for each tracked reason, and a last one for all others. -/
  buckets : Vector UInt64 (Telemetry.trackedReasons + 1) := .replicate _ 0
  deriving DecidableEq, Repr

namespace Telemetry

/-- What happens to one counter at once. -/
inductive Update where
  | entry
  | exit
  | failedEntry
  | lastEntry (time : UInt64)
  | lastExit (time : UInt64)
  | cycles (spent : UInt64)
  | bucket (i : Fin (trackedReasons + 1))
  deriving DecidableEq, Repr

def bucketOf (reason : UInt16) : Fin (trackedReasons + 1) :=
  ⟨min reason.toNat trackedReasons, Nat.lt_succ_of_le (Nat.min_le_right _ _)⟩

def apply (t : Telemetry) (u : Update) : Telemetry :=
  match u with
  | .entry => { t with counters.entries := t.counters.entries + 1 }
  | .exit => { t with counters.exits := t.counters.exits + 1 }
  | .failedEntry => { t with counters.failedEntries := t.counters.failedEntries + 1 }
  | .lastEntry time => { t with counters.lastEntry := time }
  | .lastExit time => { t with counters.lastExit := time }
  | .cycles spent => { t with counters.guestCycles := t.counters.guestCycles + spent }
  | .bucket i => { t with buckets := t.buckets.set i (t.buckets[i] + 1) }

def applyAll (t : Telemetry) (us : List Update) : Telemetry := us.foldl apply t

def entryUpdates (time : UInt64) : List Update := [.entry, .lastEntry time]

/-- No time passes backwards: an exit that seems earlier than its entry adds no ticks. -/
def elapsed (entered time : UInt64) : UInt64 := if entered ≤ time then time - entered else 0

def exitUpdates (reason : UInt16) (entered time : UInt64) : List Update :=
  [.exit, .lastExit time, .cycles (elapsed entered time), .bucket (bucketOf reason)]

def recordEntry (t : Telemetry) (time : UInt64) : Telemetry := t.applyAll (entryUpdates time)

def recordFailedEntry (t : Telemetry) : Telemetry := t.apply .failedEntry

def recordExit (t : Telemetry) (reason : UInt16) (entered time : UInt64) : Telemetry :=
  t.applyAll (exitUpdates reason entered time)

def exitsFor (t : Telemetry) (reason : UInt16) : UInt64 := t.buckets[bucketOf reason]

/-- The reasons that were counted, the shared bucket under the first reason that it holds. -/
def histogram (t : Telemetry) : List (Nat × UInt64) :=
  ((List.range (trackedReasons + 1)).zip t.buckets.toList).filter fun e => e.2 ≠ 0

def reset (_ : Telemetry) : Telemetry := {}

end Telemetry

end VmxControl
