import VmxControl.Core.Guest
import VmxControl.Core.Transition

/-!
# Holders

A holder keeps one core in whatever mode it is, for callers that learn the mode only at run time.
Turning VMX on gets a region of its own and turning it off gives the region back. A holder is
empty only while a transition is in progress, and stays so if that transition traps.
-/

namespace VmxControl

structure Holder where
  core : Option Core
  deriving DecidableEq, Repr

namespace Holder

def new (id : UInt64) (caps : Capabilities) : Holder := ⟨some (.disabled (Core.new id caps))⟩

def mode (h : Holder) : Mode := h.core.elim .disabled Core.mode

def root? (h : Holder) : Option Core.Root := h.core.bind Core.root?

def isEnabled (h : Holder) : Bool := h.root?.isSome

def debug (h : Holder) : String :=
  match h.core with
  | some c => c.debug
  | none => "VmxPerCpuState(<in transition>)"

variable {P : Type} [Processor P]

def enterRoot (c : Core.Enabled) (s : Machine P) :
    Except Trap (Except Failure Unit) × Holder × Machine P :=
  match RawRegion.allocate .vmxon s.host with
  | (.error e, host) => (.ok (.error e), ⟨some (.enabled c)⟩, { s with host })
  | (.ok raw, host) =>
    let (region, host) := raw.stamp c.caps host
    match c.enterRoot region { s with host } with
    | (.error t, s) => (.error t, ⟨none⟩, s)
    | (.ok (.ok r), s) => (.ok (.ok ()), ⟨some (.root r)⟩, s)
    | (.ok (.error r), s) =>
      (.ok (.error r.why), ⟨some (.enabled r.given.1)⟩, s.release r.given.2.frame)

/-- In root operation this fails the way the processor itself would. -/
def hardwareEnable (h : Holder) (s : Machine P) :
    Except Trap (Except Failure Unit) × Holder × Machine P :=
  match h.core with
  | none => (.ok (.error .invalid), h, s)
  | some (.root _) => (.ok (.error (.valid .vmxonInRoot)), h, s)
  | some (.enabled c) => enterRoot c s
  | some (.disabled c) =>
    match c.enable s with
    | (.ok c, s) => enterRoot c s
    | (.error r, s) => (.ok (.error r.why), ⟨some (.disabled r.given)⟩, s)

/-- Clears and frees the current control structure, if there is one. -/
def clearCurrent (c : Core.Root) (s : Machine P) : Except Failure Unit × Core.Root × Machine P :=
  if c.current.isSome then
    match c.clearCurrent s with
    | (.ok region, c, s) => (.ok (), c, s.release region.frame)
    | (.error e, c, s) => (.error e, c, s)
  else (.ok (), c, s)

def leaveRoot (c : Core.Root) (s : Machine P) : Except Failure Unit × Holder × Machine P :=
  match clearCurrent c s with
  | (.error e, c, s) => (.error e, ⟨some (.root c)⟩, s)
  | (.ok (), c, s) =>
    match c.exitRoot s with
    | (.error r, s) => (.error r.why, ⟨some (.root r.given)⟩, s)
    | (.ok (c, region), s) =>
      let (c, s) := c.disable s
      (.ok (), ⟨some (.disabled c)⟩, s.release region.frame)

def hardwareDisable (h : Holder) (s : Machine P) : Except Failure Unit × Holder × Machine P :=
  match h.core with
  | none => (.error .invalid, h, s)
  | some (.disabled _) => (.ok (), h, s)
  | some (.enabled c) =>
    let (c, s) := c.disable s
    (.ok (), ⟨some (.disabled c)⟩, s)
  | some (.root c) => leaveRoot c s

def drop (h : Holder) (s : Machine P) : Machine P :=
  match h.core with
  | some c => c.drop s
  | none => s

end Holder

end VmxControl
