import VmxControl.Core
import VmxControl.ExitReason
import VmxControl.Machine

/-!
# A core in root operation

Making a control structure current, reading and writing its fields, and entering its guest. At
most one structure is current. An operation that fails leaves the core as it was, and a structure
that is refused is handed back; an entry whose exit reason cannot be read has failed too, and one
that traps is over before its exit is looked at.
-/

namespace VmxControl.Core.Root

variable {P : Type} [Processor P]

/-- Clears a structure that was taken but whose host state could not be written. Whether that
succeeds is noted and makes no other difference. -/
def unload (c : Root) (region : Region .vmcs) (why : Failure) (s : Machine P) : Machine P :=
  match (s.note c.id (.hostStateFailed why)).attempt (Processor.vmclear region.addr) with
  | (.ok (), s) => s
  | (.error e, s) => s.note c.id (.vmclearFailed region.addr e)

def load (c : Root) (region : Region .vmcs) (s : Machine P) :
    Except Refused Unit × Root × Machine P :=
  if c.current.isSome then (.error ⟨region, .regionBusy⟩, c, s)
  else
    match s.attempt (Processor.vmptrld region.addr s.host.memory) with
    | (.error e, s) => (.error ⟨region, e⟩, c, s.note c.id (.vmptrldFailed region.addr e))
    | (.ok (), s) =>
      match s.attempt Processor.writeHostState with
      | (.ok (), s) =>
        (.ok (), { c with current := some ⟨region, false⟩ }, s.note c.id (.loaded region.addr))
      | (.error e, s) => (.error ⟨region, e⟩, c, c.unload region e s)

/-- Hands back the structure that was current. It keeps its stamp. -/
def clearCurrent (c : Root) (s : Machine P) :
    Except Failure (Region .vmcs) × Root × Machine P :=
  match c.current with
  | none => (.error .invalid, c, s)
  | some cur =>
    match s.attempt (Processor.vmclear cur.region.addr) with
    | (.ok (), s) =>
      (.ok cur.region, { c with current := none }, s.note c.id (.cleared cur.region.addr))
    | (.error e, s) => (.error e, c, s)

/-- Clears a structure that is not current. -/
def clear (c : Root) (region : Region .vmcs) (s : Machine P) : Except Failure Unit × Machine P :=
  match s.attempt (Processor.vmclear region.addr) with
  | (.ok (), s) => (.ok (), s.note c.id (.cleared region.addr))
  | (.error e, s) => (.error e, s)

def setLaunched (c : Root) : Root :=
  { c with current := c.current.map fun cur => { cur with launched := true } }

/-- An exit that stands for a failed entry does not launch. -/
def afterExit (c : Root) (s : Machine P) : Except Failure RawExit × Root × Machine P :=
  match s.attempt (Processor.vmread Field.exitReason) with
  | (.ok v, s) =>
    let raw : RawExit := ⟨v.toUInt32⟩
    (.ok raw, if raw.entryFailure then c else c.setLaunched, s)
  | (.error e, s) => (.error e, c, s)

/-- The failure of an entry that the launch state forbids; the processor is not asked. -/
def forbidden (k : Entry) (cur : Current) : Option Failure :=
  match k, cur.launched with
  | .launch, true => some (.valid .vmlaunchNonClear)
  | .resume, false => some (.valid .vmresumeNonLaunched)
  | _, _ => none

def enter (c : Root) (k : Entry) (regs : Registers) (s : Machine P) :
    Except Trap (Except Failure RawExit) × Root × Registers × Machine P :=
  match c.current with
  | none => (.ok (.error .invalid), c, regs, s)
  | some cur =>
    match forbidden k cur with
    | some e => (.ok (.error e), c, regs, s)
    | none =>
      match Processor.enter k regs s.processor with
      | (.ok (.ok ()), regs, p) =>
        let (r, c, s) := c.afterExit { s with processor := p }
        (.ok r, c, regs, s)
      | (.ok (.error f), regs, p) =>
        let (why, s) := { s with processor := p }.diagnose f
        (.ok (.error why), c, regs, s)
      | (.error t, regs, p) => (.error t, c, regs, { s with processor := p })

def launch (c : Root) (regs : Registers) (s : Machine P) :
    Except Trap (Except Failure RawExit) × Root × Registers × Machine P := c.enter .launch regs s

def resume (c : Root) (regs : Registers) (s : Machine P) :
    Except Trap (Except Failure RawExit) × Root × Registers × Machine P := c.enter .resume regs s

def read (c : Root) (f : Field) (s : Machine P) : Except Failure UInt64 × Machine P :=
  if c.current.isSome then
    match s.attempt (Processor.vmread f.encoding) with
    | (.ok raw, s) => (.ok (f.decode raw), s)
    | (.error e, s) => (.error e, s)
  else (.error .invalid, s)

def write (c : Root) (f : Field) (v : UInt64) (s : Machine P) : Except Failure Unit × Machine P :=
  if c.current.isSome then s.attempt (Processor.vmwrite f.encoding (f.encode v))
  else (.error .invalid, s)

end VmxControl.Core.Root
