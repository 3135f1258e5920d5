import VmxControl.Bench.Reply
import VmxControl.Run

/-!
# Single parts on the desk

Some parts of the library make sense alone: a register file, telemetry without a dispatcher, a
pool of tags, frames without regions. Each is taken through steps of its own, starting from its
first state.
-/

namespace VmxControl

/-- What can be done to telemetry that nothing else feeds. -/
inductive TelemetryInput where
  | entry (time : UInt64)
  | failed
  | exit (reason : UInt16) (entered time : UInt64) (times : Nat)
  | look (s : TelemetryStep)
  | malformed
  deriving DecidableEq, Repr

namespace TelemetryInput

def recorded (t : Telemetry) : Reply × Telemetry := (.snapshot t.counters, t)

def run (t : Telemetry) : TelemetryInput → Reply × Telemetry
  | .entry time => recorded (t.recordEntry time)
  | .failed => recorded t.recordFailedEntry
  | .exit reason entered time times =>
    recorded (times.repeat (fun t => t.recordExit reason entered time) t)
  | .look s => s.run t
  | .malformed => (.denied .badInput, t)

end TelemetryInput

namespace RegisterStep

/-- A step that could not be read changes nothing. -/
def runAny (r : Registers) : Option RegisterStep → Reply × Registers
  | some s => s.run r
  | none => (.denied .badInput, r)

end RegisterStep

/-- A request for up to `n` tags, by one taker or by several at once. -/
structure TagRequest where
  n : Nat
  takers : Option Nat
  deriving DecidableEq, Repr

structure TagReport where
  draw : TagPool.Draw
  pool : TagPool
  /-- The order of the tags has a meaning only for one taker. -/
  single : Bool
  deriving DecidableEq, Repr

namespace TagReport

def error? (r : TagReport) : Option Failure :=
  if r.draw.exhausted then some .tagsExhausted else none

def debug? (r : TagReport) : Option String :=
  r.draw.tags.getLast?.map fun t => t.debug ++ " " ++ r.pool.debug

end TagReport

def TagRequest.run (p : TagPool) (r : TagRequest) : TagReport × TagPool :=
  let (d, p) :=
    match r.takers with
    | some k => p.share k r.n
    | none => p.takeUpTo r.n
  (⟨d, p, r.takers.isNone⟩, p)

/-- Frames that were handed out, each until it is freed. -/
structure Shelf where
  host : Host := {}
  frames : List (Option Frame) := []

inductive ShelfStep where
  | allocate
  | free (i : Nat)
  /-- A region from an owner of frames that has none. -/
  | exhausted
  | virtual (a : PhysAddr)
  | malformed
  deriving DecidableEq, Repr

namespace Shelf

def lastWord : UInt64 := 4092

def inspect (f : Frame) (m : Memory) : Reply :=
  .frame (f.addr &&& 0xfff == 0) (m.readWord f.addr) (m.readWord (f.addr + lastWord))

def exhaustedHost : Host := { memory := { script := [.refused] } }

def run (s : Shelf) : ShelfStep → Reply × Shelf
  | .allocate =>
    match s.host.allocate with
    | (.ok f, host) => (inspect f host.memory, ⟨host, s.frames ++ [some f]⟩)
    | (.error e, host) => (.failed e, { s with host })
  | .free i =>
    match s.frames[i]? with
    | some (some f) => (.truth true, ⟨s.host.release f, s.frames.set i none⟩)
    | _ => (.truth false, s)
  | .exhausted => (.ofOutcome (fun _ => .done) (RawRegion.allocate .vmxon exhaustedHost).1, s)
  | .virtual a => (.word (Memory.virtual a), s)
  | .malformed => (.denied .badInput, s)

/-- The answer to a step, and how many frames are out after it. -/
def answer (s : Shelf) (step : ShelfStep) : (Reply × Nat) × Shelf :=
  let (r, s) := s.run step
  ((r, s.host.memory.live), s)

end Shelf

end VmxControl
