import VmxControl.Bench.Object
import VmxControl.Proofs.CurrentStructure
import VmxControl.Proofs.Ledger

/-!
# The tenure of a frame

One frame on its way from the collaborator that granted it until it is given back. The caller fills
it and writes words, sets it aside as a raw region, stamps it, and hands it to one of several cores,
which hands it back or keeps it. What a core does with the frame is what its calls return: the place
of the frame follows them. Others have frames of their own and never touch this one.
-/

namespace VmxControl

deriving instance DecidableEq for MemoryObject

/-- The region that a call names. -/
def Call.named? : Call → Option MemoryObject
  | .enterRoot region => some (.stamped .vmxon region)
  | .inRoot (.load region) | .inRoot (.clear region) => some (.stamped .vmcs region)
  | _ => none

/-- Where a frame is: with the caller, as the region that VMX operation of a core runs on, as the
current structure of a core, or with nobody who could use it. -/
inductive Place (ι : Type) where
  | hand (x : MemoryObject)
  | under (i : ι)
  | current (i : ι)
  | gone
  deriving DecidableEq

namespace Place

variable {ι : Type} [DecidableEq ι]

/-- The place of the frame after a call to core `i`, whose station the call finds as `s`. A region
that is given to a core is in the core, or back with the caller in what the call returns. Nobody can
use a region that went down with its core. -/
def after (p : Place ι) (i : ι) (s : Station) (call : Call) : Place ι :=
  match call, s.core with
  | .enterRoot region, some (.enabled c) =>
    if p = .hand (.stamped .vmxon region) then
      match (c.enterRoot region s.machine).1 with
      | .ok (.ok _) => .under i
      | .ok (.error r) => .hand (.stamped .vmxon r.given.2)
      | .error _ => .gone
    else p
  | .exitRoot, some (.root c) =>
    if p = .under i then
      match (c.exitRoot s.machine).1 with
      | .ok (_, region) => .hand (.stamped .vmxon region)
      | .error _ => p
    else p
  | .inRoot (.load region), some (.root c) =>
    if p = .hand (.stamped .vmcs region) then
      match (c.load region s.machine).1 with
      | .ok () => .current i
      | .error r => .hand (.stamped .vmcs r.region)
    else p
  | .inRoot .clearCurrent, some (.root c) =>
    if p = .current i then
      match (c.clearCurrent s.machine).1 with
      | .ok region => .hand (.stamped .vmcs region)
      | .error _ => p
    else p
  | .drop, some _ => if p = .under i ∨ p = .current i then .gone else p
  | _, _ => p

end Place

/-- The frame that was granted at `addr`, the cores that it may be given to, and the capabilities
that it was stamped with last. -/
structure Tenure (ι : Type) where
  addr : PhysAddr
  place : Place ι
  host : Host
  stations : ι → Station
  stamp : Option Capabilities := none

/-- What can happen to the frame, and to the cores around it. -/
inductive Tenure.Deed (ι : Type) where
  | fill (b : UInt8)
  | write (offset : UInt64) (v : UInt32)
  | setAside (kind : RegionKind)
  | takeBack
  | stamp (caps : Capabilities)
  | unstamp
  | free
  | call (i : ι) (c : Call)
  | influence (i : ι) (x : Influence)
  /-- What others make of the host. -/
  | around (h : Host)

namespace Tenure

variable {ι : Type} [DecidableEq ι]

/-- The station of core `i` on the host that all cores share. -/
def station (w : Tenure ι) (i : ι) : Station := (w.stations i).influenced (.host w.host)

/-- A region at the address of the frame can be named only by whoever has it in hand. -/
def allows (w : Tenure ι) (c : Call) : Bool :=
  c.named?.all fun x => x.addr != w.addr || w.place = .hand x

def settle (w : Tenure ι) (i : ι) (s : Station) (p : Place ι) : Tenure ι :=
  { w with place := p, host := s.machine.host, stations := Function.update w.stations i s }

def call (w : Tenure ι) (i : ι) (c : Call) : Tenure ι :=
  if w.allows c then w.settle i ((w.station i).call c).2 (w.place.after i (w.station i) c) else w

/-- Others do with the host what they like, except in the frame. -/
def around (w : Tenure ι) (h : Host) : Tenure ι :=
  { w with
    host := { h with
      memory := { h.memory with
        bytes := fun x =>
          if x - w.addr < Memory.frameSize then w.host.memory.bytes x else h.memory.bytes x } } }

/-- A deed that needs the frame in another state than it is in cannot be done. -/
def step (w : Tenure ι) (d : Deed ι) : Tenure ι :=
  match d, w.place with
  | .fill b, .hand (.frame f) => { w with host := w.host.fill f b }
  | .write offset v, .hand (.frame f) =>
    match f.write offset v w.host.memory with
    | .ok memory => { w with host := { w.host with memory } }
    | .error _ => w
  | .setAside kind, .hand (.frame f) => { w with place := .hand (.raw kind ⟨f⟩) }
  | .takeBack, .hand (.raw _ r) => { w with place := .hand (.frame r.frame) }
  | .stamp caps, .hand (.raw kind r) =>
    let (region, host) := r.stamp caps w.host
    { w with place := .hand (.stamped kind region), host, stamp := some caps }
  | .unstamp, .hand (.stamped kind r) => { w with place := .hand (.raw kind r.toRaw) }
  | .free, .hand x => { w with place := .gone, host := w.host.release x.heldFrame }
  | .call i c, _ => w.call i c
  | .influence i x, _ =>
    { w with stations := Function.update w.stations i ((w.stations i).influenced x) }
  | .around h, _ => w.around h
  | _, _ => w

def run (w : Tenure ι) (ds : List (Deed ι)) : Tenure ι := ds.foldl step w

end Tenure

/-! ## What a call does to the regions -/

/-- The regions that a core holds. -/
structure Slots where
  on : Option (Region .vmxon) := none
  current : Option (Region .vmcs) := none

def Core.Root.slots (c : Core.Root) : Slots := ⟨some c.vmxon, c.region?⟩

def Station.slots (s : Station) : Slots := (s.core.bind Core.root?).elim {} Core.Root.slots

namespace Station

variable {s : Station}

theorem slots_root {c : Core.Root} (h : s.core = some (.root c)) : s.slots = c.slots := by
  simp [slots, h, Core.root?]

theorem slots_enabled {c : Core.Enabled} (h : s.core = some (.enabled c)) : s.slots = {} := by
  simp [slots, h, Core.root?]

theorem slots_disabled {c : Core.Disabled} (h : s.core = some (.disabled c)) : s.slots = {} := by
  simp [slots, h, Core.root?]

end Station

namespace Core.Root

theorem slots_of_none {c : Root} (h : c.current = none) : c.slots = { on := some c.vmxon } := by
  simp [slots, region?, h]

theorem slots_of_some {c : Root} {cur : Current} (h : c.current = some cur) :
    c.slots = { on := some c.vmxon, current := some cur.region } := by
  simp [slots, region?, h]

theorem slots_of_entering {c c' : Root} {k : Entry} {e : Emulator} {st : Standing}
    (h : c.Entering k e c' st) : c'.slots = c.slots := by
  cases h with
  | withheld | failed | unseen => rfl
  | seen =>
    rw [slots, region?_setLaunched]
    rfl

end Core.Root

namespace Running

/-- Only a load and clearing the current structure change which regions a core holds. -/
theorem slots_call (w : Running Emulator) {call : RootCall} (hl : ∀ r, call ≠ .load r)
    (hc : call ≠ .clearCurrent) : (w.call call).2.core.slots = w.core.slots := by
  cases call with
  | load r => exact absurd rfl (hl r)
  | clearCurrent => exact absurd rfl hc
  | clear region =>
    simp only [call]
    split <;> rfl
  | enter k =>
    obtain ⟨r, c, t, he, hx⟩ := w.core.enter_cases k w.regs w.machine
    simp only [call, he]
    exact Core.Root.slots_of_entering hx
  | enterCounted k => exact Core.Root.slots_of_entering (w.enter_entering k)
  | run => exact Core.Root.slots_of_entering (w.enter_entering _)
  | dispatch h =>
    simp only [call, (w.dispatch_standing h).1]
    exact Core.Root.slots_of_entering (w.enter_entering _)
  | read | write | invalidateEpt | invalidateVpid => rfl

theorem memory_call (w : Running Emulator) (call : RootCall) :
    (w.call call).2.machine.host.memory = w.machine.host.memory := by
  cases call with
  | load region =>
    simp only [call]
    split
    · rfl
    · obtain ⟨d, t, he, -, hm⟩ | ⟨e, t, he, hm⟩ := w.core.load_trades region w.machine
      · simpa only [he] using hm
      · simpa only [he] using hm
  | clear region =>
    simp only [call]
    split
    · rfl
    · exact w.core.memory_clear region w.machine
  | clearCurrent =>
    obtain ⟨r, d, t, he, -, -, hm⟩ | ⟨e, t, he, hm⟩ := w.core.clearCurrent_trades w.machine
    · simpa only [call, he] using hm
    · simpa only [call, he] using hm
  | enter k => exact (w.core.enter_stays k w.regs w.machine).2
  | enterCounted k => exact (w.stays_enter k).2
  | run => exact (w.stays_enter _).2
  | dispatch h => exact (w.stays_dispatch h).2
  | read f => exact w.core.memory_read f w.machine
  | write f v => exact w.core.memory_write f v w.machine
  | invalidateEpt pointer scope => exact w.core.memory_invalidateEpt pointer scope w.machine
  | invalidateVpid tag scope a => exact w.core.memory_invalidateVpid tag scope a w.machine

end Running

namespace Core

/-- Dropping a core gives frames back and leaves what is in them. -/
theorem bytes_drop (c : Core) (s : Machine Emulator) :
    (c.drop s).host.memory.bytes = s.host.memory.bytes := by
  cases c with
  | disabled c | enabled c => rfl
  | root c =>
    have hd : (c.dropCurrent (s.note c.id .droppedInRoot)).host.memory.bytes =
        s.host.memory.bytes := by
      unfold Root.dropCurrent
      split <;> rfl
    simp only [drop, Root.drop]
    split <;> next he =>
      have ht := congrArg (fun x => x.2.host.memory.bytes) he
      exact ht.symm.trans hd

/-- Even a trap does no more than to give the region back. -/
theorem Enabled.bytes_enterRoot (c : Enabled) (region : Region .vmxon) (s : Machine Emulator) :
    (c.enterRoot region s).2.host.memory.bytes = s.host.memory.bytes := by
  unfold Enabled.enterRoot
  split
  · rfl
  · rfl
  · exact congrArg (·.memory.bytes) (Machine.host_diagnose (P := Emulator) _ _)

end Core

namespace Station

/-- No call writes to memory. At most a frame is given back. -/
theorem bytes_call (s : Station) (call : Call) :
    (s.call call).2.machine.host.memory.bytes = s.machine.host.memory.bytes := by
  cases s.finds call with
  | nothing h => rw [h]
  | @enable c hc =>
    have hm := congrArg Memory.bytes (c.memory_enable s.machine)
    simp only [Station.call, hc]
    split <;> next he => rw [he] at hm; exact hm
  | disable hc =>
    simp only [Station.call, hc]
    rfl
  | @enterRoot c region hc =>
    have hm := c.bytes_enterRoot region s.machine
    simp only [Station.call, hc]
    split <;> next he => rw [he] at hm; exact hm
  | @exitRoot c hc =>
    obtain ⟨t, he, -, -, hm⟩ | ⟨f, t, he, -, hm⟩ := c.exitRoot_cases s.machine
    · simp only [Station.call, hc, he, hm]
    · simp only [Station.call, hc, he, hm]
  | inRoot hc =>
    simp only [Station.call, hc]
    exact congrArg Memory.bytes (Running.memory_call _ _)
  | @drop c hc =>
    simp only [Station.call, hc]
    exact c.bytes_drop s.machine

end Station

/-- How a call to core `i` changes the regions that the core holds, and where the frame that was
granted at `a` is afterwards. -/
inductive Handing {ι : Type} (a : PhysAddr) (i : ι) (p : Place ι) :
    Slots → Slots → Place ι → Prop
  /-- What the core gives up, if anything, is not the frame. -/
  | quit {k k' : Slots} (hon : k'.on = k.on ∨ k'.on = none ∧ p ≠ .under i)
      (hc : k'.current = k.current ∨ k'.current = none ∧ p ≠ .current i) : Handing a i p k k' p
  | enter {r : Region .vmxon} (h : p = .hand (.stamped .vmxon r)) :
      Handing a i p {} { on := some r } (.under i)
  | enterOther {r : Region .vmxon} (h : r.addr ≠ a) : Handing a i p {} { on := some r } p
  | trap {r : Region .vmxon} (h : p = .hand (.stamped .vmxon r)) : Handing a i p {} {} .gone
  | exit {r : Region .vmxon} (h : p = .under i) :
      Handing a i p { on := some r } {} (.hand (.stamped .vmxon r))
  | load {on : Option (Region .vmxon)} {r : Region .vmcs} (h : p = .hand (.stamped .vmcs r)) :
      Handing a i p { on } { on, current := some r } (.current i)
  | loadOther {on : Option (Region .vmxon)} {r : Region .vmcs} (h : r.addr ≠ a) :
      Handing a i p { on } { on, current := some r } p
  | clear {on : Option (Region .vmxon)} {r : Region .vmcs} (h : p = .current i) :
      Handing a i p { on, current := some r } { on } (.hand (.stamped .vmcs r))
  | drop {k : Slots} (h : p = .under i ∨ p = .current i) : Handing a i p k {} .gone

theorem Handing.stay {ι : Type} {a : PhysAddr} {i : ι} {p : Place ι} {k k' : Slots} (h : k' = k) :
    Handing a i p k k' p :=
  .quit (.inl (h ▸ rfl)) (.inl (h ▸ rfl))

section

variable {ι : Type} {a : PhysAddr} {p : Place ι}

theorem handing_enable (s : Station) (i : ι) :
    Handing a i p s.slots (s.call .enable).2.slots p := by
  cases s.finds .enable with
  | nothing h => exact .stay (by rw [h])
  | enable hc =>
    simp only [Station.call, hc]
    rw [Station.slots_disabled hc]
    split <;> exact .stay rfl

theorem handing_disable (s : Station) (i : ι) :
    Handing a i p s.slots (s.call .disable).2.slots p := by
  cases s.finds .disable with
  | nothing h => exact .stay (by rw [h])
  | disable hc =>
    simp only [Station.call, hc]
    rw [Station.slots_enabled hc]
    exact .stay rfl

variable [DecidableEq ι]

theorem handing_enterRoot (s : Station) (i : ι) {region : Region .vmxon}
    (hn : region.addr = a → p = .hand (.stamped .vmxon region)) :
    Handing a i p s.slots (s.call (.enterRoot region)).2.slots
      (p.after i s (.enterRoot region)) := by
  unfold Place.after
  cases hc : s.core with
  | none =>
    simp only [Station.call, hc]
    exact .stay rfl
  | some core =>
    cases core with
    | disabled c | root c =>
      simp only [Station.call, hc]
      exact .stay rfl
    | enabled c =>
      have hk := Station.slots_enabled hc
      obtain ⟨-, t, he, -⟩ | ⟨-, ⟨t, he, -⟩ | ⟨f, t, he, -⟩⟩ := c.enterRoot_cases region s.machine
      all_goals
        simp only [Station.call, hc, he]
        rw [hk]
      · split
        · next h => exact .trap h
        · exact .stay rfl
      · split
        · next h => exact .enter h
        · next h => exact .enterOther fun ha => h (hn ha)
      · split
        · next h => exact h ▸ .stay rfl
        · exact .stay rfl

/-- Calls that are made for root operation change nothing outside of it. -/
theorem handing_out_of_root {s : Station} (h : ∀ c, s.core ≠ some (.root c)) (i : ι) {call : Call}
    (hr : call = .exitRoot ∨ ∃ r, call = .inRoot r) :
    Handing a i p s.slots (s.call call).2.slots (p.after i s call) := by
  have hc : s.call call = (none, s) ∧ p.after i s call = p := by
    obtain rfl | ⟨r, rfl⟩ := hr
    all_goals
      unfold Place.after
      rcases hc : s.core with - | ⟨c | c | c⟩
      case some.root => exact absurd hc (h c)
      all_goals simp only [Station.call, hc, and_self]
  rw [hc.1, hc.2]
  exact .stay rfl

theorem handing_exitRoot (s : Station) (i : ι) :
    Handing a i p s.slots (s.call .exitRoot).2.slots (p.after i s .exitRoot) := by
  obtain ⟨c, hc⟩ | hr := exists_or_forall_not fun c => s.core = some (.root c)
  · have hk := Station.slots_root hc
    unfold Place.after
    obtain ⟨t, he, hn, -⟩ | ⟨f, t, he, -⟩ := c.exitRoot_cases s.machine
    · simp only [Station.call, hc, he]
      rw [hk, Core.Root.slots_of_none hn]
      split
      · next h => exact .exit h
      · next h => exact .quit (.inr ⟨rfl, h⟩) (.inl rfl)
    · simp only [Station.call, hc, he, ite_self]
      exact .stay hk.symm
  · exact handing_out_of_root hr i (.inl rfl)

/-- A structure that is refused is where it was. -/
theorem handing_load_refused {s : Station} {c : Core.Root} (hc : s.core = some (.root c)) (i : ι)
    {region : Region .vmcs} {f : Failure} {t : Machine Emulator}
    (he : c.load region s.machine = (.error ⟨region, f⟩, c, t)) :
    Handing a i p s.slots (s.call (.inRoot (.load region))).2.slots
      (p.after i s (.inRoot (.load region))) := by
  have hs : (s.call (.inRoot (.load region))).2.slots = s.slots := by
    rw [Station.slots_root hc]
    simp only [Station.call, hc, Station.running, Running.call, he]
    split <;> rfl
  have hp : p.after i s (.inRoot (.load region)) = p := by
    unfold Place.after
    simp only [hc, he]
    split
    · next h => exact h.symm
    · rfl
  rw [hs, hp]
  exact .stay rfl

theorem handing_load (s : Station) (i : ι) {region : Region .vmcs}
    (hn : region.addr = a → p = .hand (.stamped .vmcs region)) :
    Handing a i p s.slots (s.call (.inRoot (.load region))).2.slots
      (p.after i s (.inRoot (.load region))) := by
  obtain ⟨c, hc⟩ | hr := exists_or_forall_not fun c => s.core = some (.root c)
  · obtain ⟨f, t, he, -⟩ | ⟨hcn, ⟨-, t, he, -⟩ | ⟨-, f, t, he, -⟩ | ⟨-, -, f, t, he, -⟩⟩ :=
      c.load_cases region s.machine
    · exact handing_load_refused hc i he
    · have hh : c.holds region.addr = false := by simp [Core.Root.holds, Core.Root.region?, hcn]
      have hs : (s.call (.inRoot (.load region))).2.slots =
          { on := some c.vmxon, current := some region } := by
        simp only [Station.call, hc, Station.running, Running.call, hh, he, Bool.false_eq_true,
          ↓reduceIte]
        rfl
      rw [Station.slots_root hc, Core.Root.slots_of_none hcn, hs]
      unfold Place.after
      simp only [hc, he]
      split
      · next h => exact .load h
      · next h => exact .loadOther fun ha => h (hn ha)
    · exact handing_load_refused hc i he
    · exact handing_load_refused hc i he
  · exact handing_out_of_root hr i (.inr ⟨_, rfl⟩)

theorem handing_clearCurrent (s : Station) (i : ι) :
    Handing a i p s.slots (s.call (.inRoot .clearCurrent)).2.slots
      (p.after i s (.inRoot .clearCurrent)) := by
  obtain ⟨c, hc⟩ | hr := exists_or_forall_not fun c => s.core = some (.root c)
  · have hk := Station.slots_root hc
    unfold Place.after
    obtain ⟨f, t, he, -⟩ | ⟨cur, hcur, t, he, -⟩ := c.clearCurrent_cases s.machine
    · simp only [Station.call, hc, Station.running, Running.call, he, ite_self]
      exact .stay hk.symm
    · simp only [Station.call, hc, Station.running, Running.call, he]
      rw [hk, Core.Root.slots_of_some hcur]
      split
      · next h => exact .clear h
      · next h => exact .quit (.inl rfl) (.inr ⟨rfl, h⟩)
  · exact handing_out_of_root hr i (.inr ⟨_, rfl⟩)

/-- The other calls in root operation leave the regions where they are. -/
theorem handing_inRoot (s : Station) (i : ι) {call : RootCall} (hl : ∀ r, call ≠ .load r)
    (hn : call ≠ .clearCurrent) :
    Handing a i p s.slots (s.call (.inRoot call)).2.slots (p.after i s (.inRoot call)) := by
  obtain ⟨c, hc⟩ | hr := exists_or_forall_not fun c => s.core = some (.root c)
  · have hp : p.after i s (.inRoot call) = p := by
      cases call with
      | load r => exact absurd rfl (hl r)
      | clearCurrent => exact absurd rfl hn
      | _ => rfl
    rw [Station.slots_root hc, hp]
    simp only [Station.call, hc]
    exact .stay ((s.running c).slots_call hl hn)
  · exact handing_out_of_root hr i (.inr ⟨_, rfl⟩)

theorem handing_drop (s : Station) (i : ι) :
    Handing a i p s.slots (s.call .drop).2.slots (p.after i s .drop) := by
  unfold Place.after
  cases hc : s.core with
  | none =>
    simp only [Station.call, hc]
    exact .stay rfl
  | some c =>
    simp only [Station.call, hc]
    split
    · next h => exact .drop h
    · next h =>
      obtain ⟨hu, hr⟩ := not_or.1 h
      exact .quit (.inr ⟨rfl, hu⟩) (.inr ⟨rfl, hr⟩)

/-- A call hands the frame on as its answer says, if nobody names another region at its address. -/
theorem handing_call (s : Station) (i : ι) {call : Call}
    (hn : ∀ x, call.named? = some x → x.addr = a → p = .hand x) :
    Handing a i p s.slots (s.call call).2.slots (p.after i s call) := by
  cases call with
  | enterRoot region => exact handing_enterRoot s i (hn _ rfl)
  | exitRoot => exact handing_exitRoot s i
  | drop => exact handing_drop s i
  | inRoot call =>
    cases call with
    | load region => exact handing_load s i (hn _ rfl)
    | clearCurrent => exact handing_clearCurrent s i
    | _ => exact handing_inRoot s i nofun nofun
  | enable => exact handing_enable s i
  | disable => exact handing_disable s i

end

end VmxControl
