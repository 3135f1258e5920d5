import VmxControl.Bench.State
import VmxControl.Core.Invalidation

/-!
# Steps on a core

Each step names a slot. A step that the mode of the core does not have is denied before anything
else is looked at.
-/

namespace VmxControl

/-- Where the processor of a new core comes from. -/
inductive ProcessorSource where
  | model (m : Emulator.Model)
  | shared (slot : Nat)

/-- What becomes of an exit. -/
inductive ExitHandler where
  | reason
  | operand
  deriving DecidableEq, Repr

namespace ExitHandler

def ofName? : String → Option ExitHandler
  | "reason" => some .reason
  | "operand" => some .operand
  | _ => none

def rax : UInt8 := 0

/-- Bits 11:8 of a qualification name a register operand. -/
def operandIndex (qualification : UInt64) : UInt8 := (qualification >>> 8 &&& 0xf).toUInt8

def handler : ExitHandler → Handler (Option String)
  | .reason => fun record regs => do
    let regs ← regs.set rax record.reason.toUInt64
    return (record.reason?.map ExitReason.name, regs)
  | .operand => fun record regs => do
    let i := operandIndex record.qualification
    let v ← regs.get i
    let regs ← regs.set rax v
    return (some (← Registers.name i), regs)

end ExitHandler

inductive DispatchKind where
  | launch
  | resume
  | run
  deriving DecidableEq, Repr

def DispatchKind.enter (k : DispatchKind) (w : Running Rig) :
    Except Trap (Except Failure ExitRecord) × Running Rig :=
  match k with
  | .launch => w.launch
  | .resume => w.resume
  | .run => w.run

inductive CoreStep where
  | new (caps : String) (id : UInt64) (held : Bool) (source : ProcessorSource)
  | drop
  | enable
  | disable
  | intoPlatform
  | enterRoot (region : String)
  | exitRoot (name : String)
  | hardwareEnable
  | hardwareDisable
  | debug
  | info
  | load (region : String)
  | clear (region : String)
  | clearCurrent (name : String)
  | current
  | enter (kind : Entry)
  | dispatch (kind : DispatchKind) (times : Nat)
  | handle (handler : ExitHandler)
  | invept (pointer : UInt64) (scope : UInt64)
  | invvpid (tag : String) (scope : UInt64) (address : UInt64)
  | read (table : String) (encoding : UInt32)
  | write (table : String) (encoding : UInt32) (v : UInt64)
  | unknown

namespace Bench

abbrev Outcome := Except Denial (Reply × Bench)

/-- The processor of a new core, with what was already shown of it. -/
def provide (b : Bench) : ProcessorSource → Except Denial (Slot × Bench)
  | .model m => .ok ({ processor := b.processors.length },
      { b with processors := b.processors ++ [.new m] })
  | .shared n => do
    let s ← b.slot n
    return ({ s with occupant := none }, b)

def newCore (b : Bench) (n : Nat) (caps : String) (id : UInt64) (held : Bool)
    (source : ProcessorSource) : Outcome := do
  let (caps, b) ← b.snapshot caps
  let (s, b) ← b.provide source
  let occupant := if held then .holder (.new id caps) else .core (.disabled (Core.new id caps))
  let old := b.slots.get? n
  let b := b.occupy n s (some occupant)
  match old with
  | some old =>
    match old.occupant with
    | some o => return (.done, b.restore old (o.drop (b.machine old)))
    | none => return (.done, b)
  | none => return (.done, b)

def dropCore (b : Bench) (n : Nat) : Outcome := do
  let s ← b.slot n
  return (.done, b.dropOccupant n s)

def enable (b : Bench) (n : Nat) : Outcome := do
  match ← b.core n with
  | (s, .disabled c) =>
    match c.enable (b.machine s) with
    | (.ok c, m) => return (.done, b.settle n s (.core (.enabled c)) m)
    | (.error r, m) => return (.rejected r.why, b.settle n s (.core (.disabled r.given)) m)
  | _ => throw .wrongState

def disable (b : Bench) (n : Nat) : Outcome := do
  match ← b.core n with
  | (s, .enabled c) =>
    let (c, m) := c.disable (b.machine s)
    return (.done, b.settle n s (.core (.disabled c)) m)
  | _ => throw .wrongState

def intoPlatform (b : Bench) (n : Nat) : Outcome := do
  match ← b.core n with
  | (s, .disabled _) => return (.word (b.rig s).emulator.cr4, b.occupy n s none)
  | _ => throw .wrongState

def enterRoot (b : Bench) (n : Nat) (name : String) : Outcome := do
  match ← b.core n with
  | (s, .enabled c) =>
    let region ← b.region .vmxon name
    match c.enterRoot region (b.machine s) with
    | (.ok (.ok c), m) => return (.done, (b.settle n s (.core (.root c)) m).forget name)
    | (.ok (.error r), m) =>
      let b := b.settle n s (.core (.enabled r.given.1)) m
      return (.rejected r.why, b.takeBack name (.stamped .vmxon r.given.2))
    | (.error t, m) => return (.trapped t, ((b.restore s m).occupy n s none).forget name)
  | _ => throw .wrongState

def exitRoot (b : Bench) (n : Nat) (name : String) : Outcome := do
  match ← b.core n with
  | (s, .root c) =>
    match c.exitRoot (b.machine s) with
    | (.ok (c, region), m) =>
      let object := .stamped .vmxon region
      let b := (b.settle n s (.core (.enabled c)) m).keep name object
      return (b.replyObject object, b)
    | (.error r, m) => return (.rejected r.why, b.settle n s (.core (.root r.given)) m)
  | _ => throw .wrongState

def hardwareEnable (b : Bench) (n : Nat) : Outcome := do
  let (s, h) ← b.holder n
  match h.hardwareEnable (b.machine s) with
  | (.ok r, h, m) => return (.ofOutcome (fun _ => .done) r, b.settle n s (.holder h) m)
  | (.error t, h, m) => return (.trapped t, b.settle n s (.holder h) m)

def hardwareDisable (b : Bench) (n : Nat) : Outcome := do
  let (s, h) ← b.holder n
  let (r, h, m) := h.hardwareDisable (b.machine s)
  return (.ofOutcome (fun _ => .done) r, b.settle n s (.holder h) m)

def info (b : Bench) (n : Nat) : Outcome := do
  match ← b.occupied n with
  | (s, .core c) =>
    let e := (b.rig s).emulator
    return (.coreInfo c.identity e.cr4 e.cr0 c.mode, b)
  | (_, .holder h) => return (.holderInfo h.isEnabled h.mode, b)

def load (b : Bench) (n : Nat) (name : String) : Outcome := do
  let (s, o, c) ← b.root n
  let region ← b.region .vmcs name
  match c.load region (b.machine s) with
  | (.ok (), c, m) => return (.done, (b.settle n s (o.withRoot c) m).forget name)
  | (.error r, c, m) =>
    let b := b.settle n s (o.withRoot c) m
    return (.refused r.why, b.takeBack name (.stamped .vmcs r.region))

def clear (b : Bench) (n : Nat) (name : String) : Outcome := do
  let (s, _, c) ← b.root n
  let region ← b.region .vmcs name
  let (r, m) := c.clear region (b.machine s)
  return (.ofOutcome (fun _ => .done) r, b.restore s m)

def clearCurrent (b : Bench) (n : Nat) (name : String) : Outcome := do
  let (s, o, c) ← b.root n
  match c.clearCurrent (b.machine s) with
  | (.ok region, c, m) =>
    let object := .stamped .vmcs region
    let b := (b.settle n s (o.withRoot c) m).keep name object
    return (b.replyObject object, b)
  | (.error e, c, m) => return (.failed e, b.settle n s (o.withRoot c) m)

def current (b : Bench) (n : Nat) : Outcome := do
  let (_, _, c) ← b.root n
  match c.region? with
  | some r => return (b.replyObject (.stamped .vmcs r), b)
  | none => return (.nothing, b)

def enter (b : Bench) (n : Nat) (k : Entry) : Outcome := do
  let (s, o, c) ← b.root n
  let (r, c, regs, m) := c.enter k b.regs (b.machine s)
  return (.ofTrap (Reply.ofOutcome .exit) r, { b.settle n s (o.withRoot c) m with regs })

def running (b : Bench) (s : Slot) (c : Core.Root) : Running Rig :=
  ⟨c, b.regs, b.telemetry, b.machine s⟩

def settleRunning (b : Bench) (n : Nat) (s : Slot) (o : Occupant) (w : Running Rig) : Bench :=
  { b.settle n s (o.withRoot w.core) w.machine with regs := w.regs, telemetry := w.telemetry }

/-- Several runs in a row, of which the last one answers. A trap is the last. -/
def runTimes (k : DispatchKind) : Nat → Reply × Running Rig → Reply × Running Rig
  | 0, r => r
  | n + 1, r =>
    match k.enter r.2 with
    | (.ok r, w) => runTimes k n (.ofOutcome .record r, w)
    | (.error t, w) => (.trapped t, w)

def dispatch (b : Bench) (n : Nat) (k : DispatchKind) (times : Nat) : Outcome := do
  let (s, o, c) ← b.root n
  let (r, w) := runTimes k times (.unasked, b.running s c)
  return (r, b.settleRunning n s o w)

def handle (b : Bench) (n : Nat) (h : ExitHandler) : Outcome := do
  let (s, o, c) ← b.root n
  let (r, w) := (b.running s c).dispatch h.handler
  let reply := Reply.ofTrap (Reply.ofOutcome fun v => .handled v 1 w.telemetry.counters.exits) r
  return (reply, b.settleRunning n s o w)

def invept (b : Bench) (n : Nat) (pointer scope : UInt64) : Outcome := do
  let (s, _, c) ← b.root n
  match EptScope.ofCode? scope with
  | none => throw .badInput
  | some scope =>
    let (r, m) := c.invalidateEpt pointer scope (b.machine s)
    return (.ofOutcome (fun _ => .done) r, b.restore s m)

def invvpid (b : Bench) (n : Nat) (tag : String) (scope address : UInt64) : Outcome := do
  let (s, _, c) ← b.root n
  match VpidScope.ofCode? scope with
  | none => throw .badInput
  | some scope =>
    let (r, m) := c.invalidateVpid (b.tag tag) scope address (b.machine s)
    return (.ofOutcome (fun _ => .done) r, b.restore s m)

def read (b : Bench) (n : Nat) (table : String) (encoding : UInt32) : Outcome := do
  let (s, _, c) ← b.root n
  match Field.tableOfName? table with
  | none => throw .badInput
  | some (a, w) =>
    match Field.find? a w encoding with
    | none => throw .unknownField
    | some f =>
      let (r, m) := c.read f (b.machine s)
      return (.ofOutcome .word r, b.restore s m)

/-- Fields that software does not own are not even looked up. -/
def write (b : Bench) (n : Nat) (table : String) (encoding : UInt32) (v : UInt64) : Outcome := do
  let (s, _, c) ← b.root n
  match Field.tableOfName? table with
  | none => throw .badInput
  | some (a, w) =>
    if a.writable then
      match Field.find? a w encoding with
      | none => throw .unknownField
      | some f =>
        let (r, m) := c.write f v (b.machine s)
        return (.ofOutcome (fun _ => .done) r, b.restore s m)
    else throw .notWritable

def coreStep (b : Bench) (n : Nat) : CoreStep → Outcome
  | .new caps id held source => b.newCore n caps id held source
  | .drop => b.dropCore n
  | .enable => b.enable n
  | .disable => b.disable n
  | .intoPlatform => b.intoPlatform n
  | .enterRoot region => b.enterRoot n region
  | .exitRoot name => b.exitRoot n name
  | .hardwareEnable => b.hardwareEnable n
  | .hardwareDisable => b.hardwareDisable n
  | .debug => do
    let (_, o) ← b.occupied n
    return (.text o.debug, b)
  | .info => b.info n
  | .load region => b.load n region
  | .clear region => b.clear n region
  | .clearCurrent name => b.clearCurrent n name
  | .current => b.current n
  | .enter k => b.enter n k
  | .dispatch k times => b.dispatch n k times
  | .handle h => b.handle n h
  | .invept pointer scope => b.invept n pointer scope
  | .invvpid tag scope address => b.invvpid n tag scope address
  | .read table encoding => b.read n table encoding
  | .write table encoding v => b.write n table encoding v
  | .unknown => do
    let _ ← b.occupied n
    throw .wrongState

end Bench

end VmxControl
