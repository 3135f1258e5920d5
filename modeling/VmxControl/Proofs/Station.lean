import VmxControl.Core.Invalidation
import VmxControl.Core.Transition
import VmxControl.Dispatch
import VmxControl.Proofs.Standing
import VmxControl.Run

/-!
# Stations

A core at work on an emulated processor: calls to the core come in any order, and between them exits
are queued, failures are injected and others write to memory. A call that the mode of the core does
not have cannot be made, so it changes nothing. Neither can one that names a region the core owns:
a region is in one place, and this one is inside the core.
-/

namespace VmxControl

/-- The region is the one that the core holds as current. -/
def Core.Root.holds (c : Core.Root) (a : PhysAddr) : Bool := c.region?.any fun r => r.addr == a

/-- The calls that a core in root operation answers, on its own or through a dispatcher. -/
inductive RootCall where
  | load (region : Region .vmcs)
  | clear (region : Region .vmcs)
  | clearCurrent
  | enter (k : Entry)
  | enterCounted (k : Entry)
  | run
  | dispatch (h : Handler Unit)
  | read (f : Field)
  | write (f : Field) (v : UInt64)
  | invalidateEpt (pointer : UInt64) (scope : EptScope)
  | invalidateVpid (tag : Tag) (scope : VpidScope) (address : UInt64)

namespace Running

variable {P : Type} [Processor P]

/-- A call, together with the control structure that it hands back. -/
def call (w : Running P) : RootCall → Option (Region .vmcs) × Running P
  | .load region =>
    if w.core.holds region.addr then (none, w)
    else
      match w.core.load region w.machine with
      | (.ok (), core, machine) => (none, { w with core, machine })
      | (.error r, core, machine) => (some r.region, { w with core, machine })
  | .clear region =>
    if w.core.holds region.addr then (none, w)
    else (none, { w with machine := (w.core.clear region w.machine).2 })
  | .clearCurrent =>
    match w.core.clearCurrent w.machine with
    | (.ok region, core, machine) => (some region, { w with core, machine })
    | (.error _, core, machine) => (none, { w with core, machine })
  | .enter k =>
    let (_, core, regs, machine) := w.core.enter k w.regs w.machine
    (none, { w with core, regs, machine })
  | .enterCounted k => (none, (w.enter k).2)
  | .run => (none, w.run.2)
  | .dispatch h => (none, (w.dispatch h).2)
  | .read f => (none, { w with machine := (w.core.read f w.machine).2 })
  | .write f v => (none, { w with machine := (w.core.write f v w.machine).2 })
  | .invalidateEpt pointer scope =>
    (none, { w with machine := (w.core.invalidateEpt pointer scope w.machine).2 })
  | .invalidateVpid tag scope address =>
    (none, { w with machine := (w.core.invalidateVpid tag scope address w.machine).2 })

end Running

/-- All calls to a core. -/
inductive Call where
  | enable
  | disable
  | enterRoot (region : Region .vmxon)
  | exitRoot
  | inRoot (c : RootCall)
  | drop

/-- What happens to a station from outside. -/
inductive Influence where
  | queueExit (reason : UInt32) (qualification : UInt64)
  | failEntry (code : UInt32)
  | inject (i : Injection) (code : UInt32)
  | host (h : Host)
  | registers (r : Registers)

inductive Event where
  | call (c : Call)
  | influence (i : Influence)

/-- There is no core any more once it was dropped, by its owner or by a trap. -/
structure Station where
  core : Option Core
  regs : Registers
  telemetry : Telemetry
  machine : Machine Emulator

namespace Station

/-- A core that was just made, before anything has happened. -/
def new (id : UInt64) (caps : Capabilities) (e : Emulator) (h : Host) : Station :=
  ⟨some (.disabled (Core.new id caps)), .zero, {}, ⟨e, h⟩⟩

def standing (s : Station) : Standing := s.machine.standing

def running (s : Station) (c : Core.Root) : Running Emulator := ⟨c, s.regs, s.telemetry, s.machine⟩

def settle (w : Running Emulator) : Station := ⟨some (.root w.core), w.regs, w.telemetry, w.machine⟩

def influenced (s : Station) : Influence → Station
  | .queueExit reason qualification =>
    { s with machine.processor := s.machine.processor.queueExit reason qualification }
  | .failEntry code => { s with machine.processor := s.machine.processor.failEntry code }
  | .inject i code => { s with machine.processor := s.machine.processor.inject i code }
  | .host h => { s with machine.host := h }
  | .registers r => { s with regs := r }

/-- A call, together with the control structure that it hands back. -/
def call (s : Station) (c : Call) : Option (Region .vmcs) × Station :=
  match c, s.core with
  | .enable, some (.disabled c) =>
    match c.enable s.machine with
    | (.ok c, machine) => (none, { s with core := some (.enabled c), machine })
    | (.error r, machine) => (none, { s with core := some (.disabled r.given), machine })
  | .disable, some (.enabled c) =>
    let (c, machine) := c.disable s.machine
    (none, { s with core := some (.disabled c), machine })
  | .enterRoot region, some (.enabled c) =>
    match c.enterRoot region s.machine with
    | (.ok (.ok c), machine) => (none, { s with core := some (.root c), machine })
    | (.ok (.error r), machine) => (none, { s with core := some (.enabled r.given.1), machine })
    | (.error _, machine) => (none, { s with core := none, machine })
  | .exitRoot, some (.root c) =>
    match c.exitRoot s.machine with
    | (.ok (c, _), machine) => (none, { s with core := some (.enabled c), machine })
    | (.error r, machine) => (none, { s with core := some (.root r.given), machine })
  | .inRoot call, some (.root c) =>
    let (back, w) := (s.running c).call call
    (back, settle w)
  | .drop, some c => (none, { s with core := none, machine := c.drop s.machine })
  | _, _ => (none, s)

/-- A call finds a core of the mode that it is made for, or it changes nothing. -/
inductive Finds (s : Station) : Call → Prop
  | nothing {call : Call} (h : s.call call = (none, s)) : Finds s call
  | enable {c : Core.Disabled} (hc : s.core = some (.disabled c)) : Finds s .enable
  | disable {c : Core.Enabled} (hc : s.core = some (.enabled c)) : Finds s .disable
  | enterRoot {c : Core.Enabled} {region : Region .vmxon} (hc : s.core = some (.enabled c)) :
      Finds s (.enterRoot region)
  | exitRoot {c : Core.Root} (hc : s.core = some (.root c)) : Finds s .exitRoot
  | inRoot {c : Core.Root} {call : RootCall} (hc : s.core = some (.root c)) :
      Finds s (.inRoot call)
  | drop {c : Core} (hc : s.core = some c) : Finds s .drop

theorem finds (s : Station) (call : Call) : s.Finds call := by
  cases hc : s.core with
  | none => exact .nothing (by cases call <;> simp only [Station.call, hc])
  | some core =>
    cases call with
    | drop => exact .drop hc
    | enable =>
      cases core with
      | disabled c => exact .enable hc
      | enabled c | root c => exact .nothing (by simp only [Station.call, hc])
    | disable =>
      cases core with
      | enabled c => exact .disable hc
      | disabled c | root c => exact .nothing (by simp only [Station.call, hc])
    | enterRoot region =>
      cases core with
      | enabled c => exact .enterRoot hc
      | disabled c | root c => exact .nothing (by simp only [Station.call, hc])
    | exitRoot =>
      cases core with
      | root c => exact .exitRoot hc
      | disabled c | enabled c => exact .nothing (by simp only [Station.call, hc])
    | inRoot call =>
      cases core with
      | root c => exact .inRoot hc
      | disabled c | enabled c => exact .nothing (by simp only [Station.call, hc])

def act (s : Station) : Event → Option (Region .vmcs) × Station
  | .call c => s.call c
  | .influence i => (none, s.influenced i)

/-- The control structure that the event hands back to the caller. -/
def back (s : Station) (e : Event) : Option (Region .vmcs) := (s.act e).1

def step (s : Station) (e : Event) : Station := (s.act e).2

def run (s : Station) : List Event → Station
  | [] => s
  | e :: es => (s.step e).run es

@[simp] theorem run_nil (s : Station) : s.run [] = s := rfl

@[simp] theorem run_cons (s : Station) (e : Event) (es : List Event) :
    s.run (e :: es) = (s.step e).run es := rfl

theorem run_append (s : Station) (xs ys : List Event) : s.run (xs ++ ys) = (s.run xs).run ys := by
  induction xs generalizing s with
  | nil => rfl
  | cons e xs ih => exact ih (s.step e)

@[simp] theorem run_concat (s : Station) (es : List Event) (e : Event) :
    s.run (es ++ [e]) = (s.run es).step e :=
  s.run_append es [e]

/-- What every step keeps holds after every run. -/
theorem run_keeps {I : Station → Prop} (hs : ∀ s e, I s → I (s.step e)) {s : Station} (h : I s)
    (es : List Event) : I (s.run es) := by
  induction es generalizing s with
  | nil => exact h
  | cons e es ih => exact ih (hs s e h)

/-- Where a step keeps `I`, and keeps `G` unless the event is a bad one, a run stays in `G`
throughout exactly when none of its events is bad. -/
theorem throughout_iff {I G : Station → Prop} {B : Station → Event → Prop}
    (hi : ∀ s e, I s → I (s.step e)) (hg : ∀ s e, I s → G s → (G (s.step e) ↔ ¬ B s e))
    {s : Station} (h : I s) (h0 : G s) (es : List Event) :
    (∀ xs, xs <+: es → G (s.run xs)) ↔ ∀ xs e, xs ++ [e] <+: es → ¬ B (s.run xs) e := by
  constructor
  · intro ht xs e hx
    have hn := ht (xs ++ [e]) hx
    rw [run_concat] at hn
    exact (hg _ e (run_keeps hi h xs) (ht xs ((List.prefix_append xs [e]).trans hx))).1 hn
  · induction es generalizing s with
    | nil =>
      intro _ xs hx
      rwa [List.prefix_nil.1 hx]
    | cons e es ih =>
      intro hb xs hx
      obtain rfl | ⟨ys, rfl, hy⟩ := List.prefix_cons_iff.1 hx
      · exact h0
      · have he : G (s.step e) := (hg s e h h0).2 (hb [] e ⟨es, rfl⟩)
        refine ih (hi s e h) he (fun zs e' hz => ?_) ys hy
        exact hb (e :: zs) e' ((List.prefix_cons_inj e).2 hz)

/-- The effects that the event has on the processor, in their order. -/
def executes (s : Station) (e : Event) : List Op :=
  Run.newest (s.step e).standing.journal s.standing.journal.length

/-- The event has the processor try to enter the guest. -/
def Sends (s : Station) (e : Event) (k : Entry) : Prop :=
  (s.step e).standing.attempts k ≠ s.standing.attempts k

end Station

end VmxControl
