import VmxControl.Core.Guest
import VmxControl.Core.Transition

/-!
# Cores as records

One record for the cores of all modes, the way a core lies in memory: the mode is a tag, and nothing
but the course of events ties it to the regions that the record holds. What the typed cores rule out
has to be looked up here, and whether it is there is a question with two answers.
-/

namespace VmxControl.Core

structure Record extends Identity where
  mode : Mode
  vmxon : Option (Region .vmxon)
  current : Option Current
  deriving DecidableEq, Repr

def record : Core → Record
  | .disabled c => ⟨c.toIdentity, .disabled, none, none⟩
  | .enabled c => ⟨c.toIdentity, .enabled, none, none⟩
  | .root c => ⟨c.toIdentity, .root, some c.vmxon, c.current⟩

namespace Record

/-- The records of cores are those in which the regions are there that the mode calls for, and no
others. -/
theorem exists_record_iff (r : Record) :
    (∃ c, record c = r) ↔
      (r.vmxon.isSome = true ↔ r.mode = .root) ∧ (r.mode ≠ .root → r.current = none) := by
  constructor
  · rintro ⟨c, rfl⟩
    cases c <;> simp [record]
  · obtain ⟨i, mode, vmxon, current⟩ := r
    rintro ⟨hv, hc⟩
    cases vmxon with
    | none =>
      cases mode with
      | disabled =>
        obtain rfl : current = none := hc nofun
        exact ⟨.disabled ⟨i⟩, rfl⟩
      | enabled =>
        obtain rfl : current = none := hc nofun
        exact ⟨.enabled ⟨i⟩, rfl⟩
      | root => cases hv.2 rfl
    | some region =>
      obtain rfl : mode = .root := hv.1 rfl
      exact ⟨.root ⟨i, region, current⟩, rfl⟩

variable {P : Type} [Processor P]

/-- The record keeps the region from here on. -/
def enterRoot (c : Record) (region : Region .vmxon) (s : Machine P) :
    Except Trap (Except (Rejected (Record × Region .vmxon)) Record) × Machine P :=
  match Processor.vmxon region.addr s.host.memory s.processor with
  | .error t => (.error t, (s.release region.frame).clearVmxe)
  | .ok (.ok (), p) =>
    (.ok (.ok { c with mode := .root, vmxon := some region }),
      { s with processor := p }.note c.id .enteredRoot)
  | .ok (.error f, p) =>
    let (why, s) := { s with processor := p }.diagnose f
    (.ok (.error ⟨(c, region), why⟩), s.note c.id (.vmxonFailed region.addr why))

/-- VMX operation is over by the time the region is looked for. -/
def exitRoot (c : Record) (s : Machine P) :
    Except Trap (Except (Rejected Record) (Record × Region .vmxon)) × Machine P :=
  if c.current.isSome then (.ok (.error ⟨c, .regionBusy⟩), s.note c.id .vmxoffWithCurrent)
  else
    match s.attempt Processor.vmxoff with
    | (.error e, s) => (.ok (.error ⟨c, e⟩), s.note c.id (.vmxoffFailed e))
    | (.ok (), s) =>
      let s := s.note c.id .leftRoot
      match c.vmxon with
      | some region => (.ok (.ok ({ c with mode := .enabled, vmxon := none }, region)), s)
      | none => (.error .noVmxonRegion, s)

/-- The current structure is looked up for its address, and again to be handed back. -/
def clearCurrent (c : Record) (s : Machine P) :
    Except Failure (Region .vmcs) × Record × Machine P :=
  match c.current.map fun cur => cur.region.addr with
  | none => (.error .invalid, c, s)
  | some a =>
    match s.attempt (Processor.vmclear a) with
    | (.error e, s) => (.error e, c, s)
    | (.ok (), s) =>
      let s := s.note c.id (.cleared a)
      match c.current with
      | some cur => (.ok cur.region, { c with current := none }, s)
      | none => (.error .invalid, c, s)

/-! The typed cores do what their records do, and need no answer for what is not there. -/

theorem enterRoot_record (c : Enabled) (region : Region .vmxon) (s : Machine P) :
    (record (.enabled c)).enterRoot region s =
      ((c.enterRoot region s).1.map fun r =>
        match r with
        | .ok d => .ok (record (.root d))
        | .error r => .error ⟨(record (.enabled r.given.1), r.given.2), r.why⟩,
       (c.enterRoot region s).2) := by
  unfold enterRoot Enabled.enterRoot
  cases Processor.vmxon region.addr s.host.memory s.processor with
  | error t => rfl
  | ok r =>
    obtain ⟨r, p⟩ := r
    cases r with
    | ok u => rfl
    | error f => rfl

theorem exitRoot_record (c : Root) (s : Machine P) :
    (record (.root c)).exitRoot s =
      (.ok (match (c.exitRoot s).1 with
        | .ok d => .ok (record (.enabled d.1), d.2)
        | .error r => .error ⟨record (.root r.given), r.why⟩),
       (c.exitRoot s).2) := by
  cases hc : c.current with
  | some cur => simp [exitRoot, Root.exitRoot, record, hc]
  | none =>
    rcases ha : s.attempt Processor.vmxoff with ⟨e | u, t⟩
    · simp [exitRoot, Root.exitRoot, record, hc, ha]
    · simp [exitRoot, Root.exitRoot, record, hc, ha]

theorem clearCurrent_record (c : Root) (s : Machine P) :
    (record (.root c)).clearCurrent s =
      ((c.clearCurrent s).1, record (.root (c.clearCurrent s).2.1), (c.clearCurrent s).2.2) := by
  cases hc : c.current with
  | none => simp [clearCurrent, Root.clearCurrent, record, hc]
  | some cur =>
    rcases ha : s.attempt (Processor.vmclear cur.region.addr) with ⟨e | u, t⟩
    · simp [clearCurrent, Root.clearCurrent, record, hc, ha]
    · simp [clearCurrent, Root.clearCurrent, record, hc, ha]

/-- Once VMCLEAR has succeeded, the structure that was looked up for it is still there. -/
theorem clearCurrent_of_vmclear {c : Root} {cur : Current} {s : Machine P}
    (hc : c.current = some cur) (ha : (s.attempt (Processor.vmclear cur.region.addr)).1 = .ok ()) :
    ((record (.root c)).clearCurrent s).1 = .ok cur.region := by
  rcases hx : s.attempt (Processor.vmclear cur.region.addr) with ⟨e | u, t⟩
  · simp [hx] at ha
  · simp [clearCurrent, record, hc, hx]

end Record

end VmxControl.Core
