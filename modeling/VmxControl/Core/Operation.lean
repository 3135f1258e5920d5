import VmxControl.Core.Guest
import VmxControl.Core.Invalidation
import VmxControl.Core.Transition

/-!
# Operations

The operations of a core that execute instructions which can fail, as data, and what each comes to:
the failure if there was one, the control structure that is handed back, and the core. An operation
that the mode of the core does not have comes to nothing.
-/

namespace VmxControl

inductive Operation where
  | enterRoot (region : Region .vmxon)
  | exitRoot
  | load (region : Region .vmcs)
  | clear (region : Region .vmcs)
  | clearCurrent
  | enter (k : Entry) (regs : Registers)
  | read (f : Field)
  | write (f : Field) (v : UInt64)
  | invalidateEpt (pointer : UInt64) (scope : EptScope)
  | invalidateVpid (tag : Tag) (scope : VpidScope) (address : UInt64)

/-- The control structure that the operation is given to keep. -/
def Operation.given : Operation → Option (Region .vmcs)
  | .load region => some region
  | _ => none

structure Outcome (P : Type) where
  failure : Option Failure := none
  back : Option (Region .vmcs) := none
  /-- A trap may take the core with it. -/
  core : Option Core
  machine : Machine P

variable {P α : Type} [Processor P]

/-- The outcome of an operation that leaves the core as it is. -/
def Outcome.of (c : Core) : Except Failure α × Machine P → Outcome P
  | (.ok _, s) => { core := some c, machine := s }
  | (.error e, s) => { failure := some e, core := some c, machine := s }

namespace Core

def perform (c : Core) (o : Operation) (s : Machine P) : Outcome P :=
  match o, c with
  | .enterRoot region, .enabled c =>
    match c.enterRoot region s with
    | (.ok (.ok c), s) => { core := some (.root c), machine := s }
    | (.ok (.error r), s) =>
      { failure := some r.why, core := some (.enabled r.given.1), machine := s }
    | (.error _, s) => { core := none, machine := s }
  | .exitRoot, .root c =>
    match c.exitRoot s with
    | (.ok (c, _), s) => { core := some (.enabled c), machine := s }
    | (.error r, s) => { failure := some r.why, core := some (.root r.given), machine := s }
  | .load region, .root c =>
    match c.load region s with
    | (.ok (), c, s) => { core := some (.root c), machine := s }
    | (.error r, c, s) =>
      { failure := some r.why, back := some r.region, core := some (.root c), machine := s }
  | .clearCurrent, .root c =>
    match c.clearCurrent s with
    | (.ok region, c, s) => { back := some region, core := some (.root c), machine := s }
    | (.error e, c, s) => { failure := some e, core := some (.root c), machine := s }
  | .enter k regs, .root c =>
    match c.enter k regs s with
    | (.ok (.error e), c, _, s) => { failure := some e, core := some (.root c), machine := s }
    | (_, c, _, s) => { core := some (.root c), machine := s }
  | .clear region, .root c => .of (.root c) (c.clear region s)
  | .read f, .root c => .of (.root c) (c.read f s)
  | .write f v, .root c => .of (.root c) (c.write f v s)
  | .invalidateEpt pointer scope, .root c => .of (.root c) (c.invalidateEpt pointer scope s)
  | .invalidateVpid tag scope address, .root c =>
    .of (.root c) (c.invalidateVpid tag scope address s)
  | _, c => { core := some c, machine := s }

end Core

end VmxControl
