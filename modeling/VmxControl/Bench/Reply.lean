import VmxControl.Bench.Object
import VmxControl.Core
import VmxControl.Dispatch
import VmxControl.Emulator
import VmxControl.Tag

/-!
# Replies

What a step of a bench answers. A denial is the answer to a step that makes no sense in the present
state; it changes nothing.
-/

namespace VmxControl

inductive Denial where
  | noCore
  | wrongState
  | noRegion
  | wrongKind
  | notWritable
  | unknownField
  | badInput
  deriving DecidableEq, Repr

inductive Reply where
  | done
  | word (v : UInt64)
  | count (n : Nat)
  | truth (b : Bool)
  | text (s : String)
  | counts (ns : List Nat)
  | registers (r : Registers)
  | snapshot (t : TelemetrySnapshot)
  | histogram (es : List (Nat × UInt64))
  /-- A memory object and the word that it carries. -/
  | object (o : MemoryObject) (stored : UInt32)
  /-- Whether a frame is aligned, and its first and last word. -/
  | frame (aligned : Bool) (first last : UInt32)
  | nothing
  /-- Nothing was asked. -/
  | unasked
  | exit (raw : RawExit)
  | record (r : ExitRecord)
  | handled (value : Option String) (runs : Nat) (exits : UInt64)
  | tag (t : Tag) (allocated : UInt32)
  | capabilities (c : Capabilities)
  | adjusted (v : UInt32) (c : Controls)
  | coreInfo (who : Identity) (cr4 cr0 : UInt64) (mode : Mode)
  | holderInfo (enabled : Bool) (mode : Mode)
  | processor (e : Emulator)
  | failed (e : Failure)
  /-- A transition or a region that was not taken. -/
  | rejected (e : Failure)
  | refused (e : Failure)
  | vmFailed (f : VmFail)
  | trapped (t : Trap)
  | denied (d : Denial)

namespace Reply

variable {α : Type}

def ofOutcome (f : α → Reply) : Except Failure α → Reply
  | .ok a => f a
  | .error e => .failed e

def ofTrap (f : α → Reply) : Except Trap α → Reply
  | .ok a => f a
  | .error t => .trapped t

def ofInstruction (f : α → Reply) : Except VmFail α → Reply
  | .ok a => f a
  | .error e => .vmFailed e

end Reply

/-- Steps on a register file. -/
inductive RegisterStep where
  | set (i : UInt8) (v : UInt64)
  | get (i : UInt8)
  | name (i : UInt8)
  | all
  | isDefault
  | debug
  deriving DecidableEq, Repr

def RegisterStep.run (r : Registers) : RegisterStep → Reply × Registers
  | .set i v =>
    match r.set i v with
    | .ok r => (.done, r)
    | .error t => (.trapped t, r)
  | .get i => (.ofTrap .word (r.get i), r)
  | .name i => (.ofTrap .text (Registers.name i), r)
  | .all => (.registers r, r)
  | .isDefault => (.truth (r == .zero), r)
  | .debug => (.text r.debug, r)

/-- Steps on telemetry that read it or set it back. -/
inductive TelemetryStep where
  | snapshot
  | counts
  | exitsFor (reasons : List UInt16)
  | histogram
  | reset
  | debug
  | isDefault
  deriving DecidableEq, Repr

def TelemetryStep.run (t : Telemetry) : TelemetryStep → Reply × Telemetry
  | .snapshot => (.snapshot t.counters, t)
  | .counts =>
    (.counts [t.counters.entries.toNat, t.counters.exits.toNat, t.counters.failedEntries.toNat], t)
  | .exitsFor reasons => (.counts (reasons.map fun r => (t.exitsFor r).toNat), t)
  | .histogram => (.histogram t.histogram, t)
  | .reset => (.done, t.reset)
  | .debug => (.text t.counters.debug, t)
  | .isDefault => (.truth (t.counters == {}), t)

end VmxControl
