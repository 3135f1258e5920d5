import VmxControl.Proofs.Bytes
import VmxControl.Proofs.Mode
import VmxControl.Proofs.Tenure

/-!
# Stamps

A region keeps the revision that it was stamped with, and its first word holds the same revision.
The two are written together and never again, for a region is not a frame that its owner could write
to, and no core writes to it. So they agree wherever the region goes, however often its frame is
stamped anew, and the processor finds in memory what the stamp says.
-/

namespace VmxControl

namespace Region

variable {kind : RegionKind}

/-- The first word of the region is the revision of its stamp, and zeros follow. -/
structure Carries (r : Region kind) (m : Memory) : Prop where
  word : r.stored m = r.revision
  rest : ∀ k, 4 ≤ k → k < Memory.frameSize → m.bytes (r.addr + k) = 0

theorem Carries.of_sameFrame {r : Region kind} {m m' : Memory} (h : r.Carries m)
    (hf : Memory.SameFrame r.addr m m') : r.Carries m' where
  word := hf.readWord.trans h.word
  rest k h4 hk := (hf k hk).trans (h.rest k h4 hk)

end Region

/-- Whatever the frame held before, a stamped region carries its stamp. -/
theorem RawRegion.stamp_carries {kind : RegionKind} (r : RawRegion kind) (caps : Capabilities)
    (h : Host) : (r.stamp caps h).1.Carries (r.stamp caps h).2.memory where
  word := Memory.readWord_writeWord _ _ _
  rest _ h4 hk := (Memory.bytes_writeWord _ _ h4).trans (Memory.bytes_fill _ 0 hk)

namespace Tenure

variable {ι : Type} {w w' : Tenure ι}

/-- The region is the frame, with the last stamp. -/
structure Genuine (w : Tenure ι) {kind : RegionKind} (r : Region kind) : Prop where
  addr : r.addr = w.addr
  stamp : ∃ caps, w.stamp = some caps ∧ r.revision = RawRegion.stampOf caps.basic.revision
  carries : r.Carries w.host.memory

/-- The frame is at the place, as a region only with its stamp. -/
def Holds (w : Tenure ι) : Place ι → Prop
  | .hand (.stamped _ r) => w.Genuine r
  | .hand x => x.addr = w.addr
  | .under i => ∃ r, (w.stations i).slots.on = some r ∧ w.Genuine r
  | .current i => ∃ r, (w.stations i).slots.current = some r ∧ w.Genuine r
  | .gone => True

/-- The frame is where it is said to be and nowhere else, and the modes of the cores agree with
their processors. -/
structure Sound (w : Tenure ι) : Prop where
  agrees : ∀ i, (w.stations i).ModeAgrees
  on : ∀ i r, (w.stations i).slots.on = some r → r.addr = w.addr → w.place = .under i
  current : ∀ i r, (w.stations i).slots.current = some r → r.addr = w.addr → w.place = .current i
  holds : w.Holds w.place

/-- The two differ neither in the frame nor in its stamp. -/
structure SameStamp (w w' : Tenure ι) : Prop where
  addr : w'.addr = w.addr
  stamp : w'.stamp = w.stamp
  bytes : Memory.SameFrame w.addr w.host.memory w'.host.memory

theorem Genuine.of_same {kind : RegionKind} {r : Region kind} (h : w.Genuine r)
    (hs : w.SameStamp w') : w'.Genuine r where
  addr := h.addr.trans hs.addr.symm
  stamp := hs.stamp ▸ h.stamp
  carries := h.carries.of_sameFrame (h.addr ▸ hs.bytes)

theorem Holds.of_same {p : Place ι} (h : w.Holds p) (hs : w.SameStamp w')
    (hon : ∀ i r, p = .under i → (w.stations i).slots.on = some r →
      (w'.stations i).slots.on = some r)
    (hc : ∀ i r, p = .current i → (w.stations i).slots.current = some r →
      (w'.stations i).slots.current = some r) : w'.Holds p := by
  cases p with
  | hand x =>
    cases x with
    | stamped kind r => exact Genuine.of_same h hs
    | frame | raw => exact Eq.trans h hs.addr.symm
  | under i =>
    obtain ⟨r, hr, hg⟩ := h
    exact ⟨r, hon i r rfl hr, hg.of_same hs⟩
  | current i =>
    obtain ⟨r, hr, hg⟩ := h
    exact ⟨r, hc i r rfl hr, hg.of_same hs⟩
  | gone => trivial

/-- As long as the cores keep their regions, only the frame itself counts. -/
theorem Sound.of_holds (h : w.Sound) (hw : w'.addr = w.addr)
    (hp : ∃ x, w.place = .hand x) (hs : w'.stations = w.stations) (hh : w'.Holds w'.place) :
    w'.Sound := by
  obtain ⟨x, hx⟩ := hp
  refine ⟨hs ▸ h.agrees, fun i r hr ha => ?_, fun i r hr ha => ?_, hh⟩
  · rw [hs] at hr
    cases hx.symm.trans (h.on i r hr (ha.trans hw))
  · rw [hs] at hr
    cases hx.symm.trans (h.current i r hr (ha.trans hw))

theorem sameFrame_around (w : Tenure ι) (h : Host) :
    Memory.SameFrame w.addr w.host.memory (w.around h).host.memory := by
  intro k hk
  simp only [around, Memory.sub_start, hk, ↓reduceIte]

theorem modeAgrees_station (w : Tenure ι) {i : ι} (h : (w.stations i).ModeAgrees) :
    (w.station i).ModeAgrees :=
  Station.modeAgrees_step (.influence (.host w.host)) h

theorem Sound.around (h : w.Sound) (k : Host) : (w.around k).Sound where
  agrees := h.agrees
  on := h.on
  current := h.current
  holds := h.holds.of_same ⟨rfl, rfl, w.sameFrame_around k⟩ (fun _ _ _ => id) fun _ _ _ => id

/-- The frame as its owner knows it. -/
def object? (w : Tenure ι) : Option MemoryObject :=
  match w.place with
  | .hand x => some x
  | .under i => (w.stations i).slots.on.map (.stamped .vmxon)
  | .current i => (w.stations i).slots.current.map (.stamped .vmcs)
  | .gone => none

theorem Sound.object (h : w.Sound) :
    w.place = .gone ∨ ∃ x, w.object? = some x ∧ x.addr = w.addr ∧
      ∀ kind r, x = .stamped kind r → w.Genuine r := by
  have hh := h.holds
  cases hp : w.place with
  | gone => exact .inl rfl
  | hand x =>
    rw [hp] at hh
    refine .inr ⟨x, by simp only [object?, hp], ?_⟩
    cases x with
    | stamped kind r => exact ⟨hh.addr, fun _ _ he => by cases he; exact hh⟩
    | frame | raw => exact ⟨hh, nofun⟩
  | under i =>
    rw [hp] at hh
    obtain ⟨r, hr, hg⟩ := hh
    refine .inr ⟨.stamped .vmxon r, by simp only [object?, hp, hr, Option.map_some], hg.addr, ?_⟩
    intro kind r' he
    cases he
    exact hg
  | current i =>
    rw [hp] at hh
    obtain ⟨r, hr, hg⟩ := hh
    refine .inr ⟨.stamped .vmcs r, by simp only [object?, hp, hr, Option.map_some], hg.addr, ?_⟩
    intro kind r' he
    cases he
    exact hg

theorem Sound.genuine (h : w.Sound) {kind : RegionKind} {r : Region kind}
    (hr : w.object? = some (.stamped kind r)) : w.Genuine r := by
  obtain hp | ⟨x, hx, -, hg⟩ := h.object
  · simp only [object?, hp] at hr
    cases hr
  · exact hg kind r (Option.some.inj (hx.symm.trans hr))

/-! ## Calls -/

end Tenure

namespace Handing

variable {ι : Type} {a : PhysAddr} {i : ι} {p p' : Place ι} {k k' : Slots}

/-- Only the core that is called can get the frame or lose it. -/
theorem elsewhere (h : Handing a i p k k' p') {j : ι} (hj : j ≠ i) :
    (p' = .under j ↔ p = .under j) ∧ (p' = .current j ↔ p = .current j) := by
  have hi : i ≠ j := Ne.symm hj
  cases h with
  | quit | enterOther | loadOther => exact ⟨Iff.rfl, Iff.rfl⟩
  | enter h | trap h | exit h | load h | clear h => simp [h, hi]
  | drop h => obtain rfl | rfl := h <;> simp [hi]

/-- If the region that the core runs on is the frame, that is where the frame is. -/
theorem on (h : Handing a i p k k' p') (hk : ∀ r, k.on = some r → r.addr = a → p = .under i)
    {r : Region .vmxon} (hr : k'.on = some r) (ha : r.addr = a) : p' = .under i := by
  cases h with
  | quit hon =>
    obtain hon | ⟨hon, -⟩ := hon
    · exact hk r (hon.symm.trans hr) ha
    · cases hon.symm.trans hr
  | enter => rfl
  | enterOther hne =>
    cases hr
    exact absurd ha hne
  | trap | exit | drop => cases hr
  | load hp | clear hp => cases hp.symm.trans (hk r hr ha)
  | loadOther => exact hk r hr ha

theorem current (h : Handing a i p k k' p')
    (hk : ∀ r, k.current = some r → r.addr = a → p = .current i)
    {r : Region .vmcs} (hr : k'.current = some r) (ha : r.addr = a) : p' = .current i := by
  cases h with
  | quit _ hc =>
    obtain hc | ⟨hc, -⟩ := hc
    · exact hk r (hc.symm.trans hr) ha
    · cases hc.symm.trans hr
  | load => rfl
  | loadOther hne =>
    cases hr
    exact absurd ha hne
  | enter | enterOther | trap | exit | clear | drop => cases hr

end Handing

namespace Tenure

variable {ι : Type} [DecidableEq ι] {w : Tenure ι}

theorem slots_settle_self (w : Tenure ι) (i : ι) (s : Station) (p : Place ι) :
    ((w.settle i s p).stations i).slots = s.slots := by
  simp [settle]

theorem slots_settle_other (w : Tenure ι) {i j : ι} (h : j ≠ i) (s : Station) (p : Place ι) :
    ((w.settle i s p).stations j).slots = (w.stations j).slots := by
  simp [settle, h]

/-- The frame is still where it was, if core `i` has kept it in the case that it was there. -/
theorem holds_settle_stay {p p' : Place ι} (h : w.Holds p) {i : ι} {s : Station}
    (hs : w.SameStamp (w.settle i s p'))
    (hon : ∀ r, p = .under i → (w.stations i).slots.on = some r → s.slots.on = some r)
    (hc : ∀ r, p = .current i → (w.stations i).slots.current = some r →
      s.slots.current = some r) : (w.settle i s p').Holds p := by
  refine h.of_same hs (fun j r hp hr => ?_) (fun j r hp hr => ?_)
  · by_cases hj : j = i
    · subst hj
      rw [slots_settle_self]
      exact hon r hp hr
    · rwa [slots_settle_other w hj]
  · by_cases hj : j = i
    · subst hj
      rw [slots_settle_self]
      exact hc r hp hr
    · rwa [slots_settle_other w hj]

/-- The frame is found where a call has handed it. -/
theorem holds_settle {p p' : Place ι} (h : w.Holds p) {i : ι} {s : Station}
    (hs : w.SameStamp (w.settle i s p'))
    (hh : Handing w.addr i p (w.stations i).slots s.slots p') : (w.settle i s p').Holds p' := by
  have hself := w.slots_settle_self i s p'
  generalize hk : (w.stations i).slots = k at hh
  generalize hk' : s.slots = k' at hh hself
  cases hh with
  | quit hon hc =>
    refine holds_settle_stay h hs (fun r hp hr => ?_) (fun r hp hr => ?_)
    · obtain hon | ⟨-, hn⟩ := hon
      · rw [hk', hon, ← hk, hr]
      · exact absurd hp hn
    · obtain hc | ⟨-, hn⟩ := hc
      · rw [hk', hc, ← hk, hr]
      · exact absurd hp hn
  | @enter r hp =>
    subst hp
    exact ⟨r, congrArg Slots.on hself, Genuine.of_same h hs⟩
  | enterOther =>
    refine holds_settle_stay h hs (fun r _ hr => ?_) (fun r _ hr => ?_)
    · rw [hk] at hr
      cases hr
    · rw [hk] at hr
      cases hr
  | trap | drop => trivial
  | exit hp =>
    subst hp
    obtain ⟨r, hr, hg⟩ := h
    rw [hk] at hr
    cases hr
    exact hg.of_same hs
  | @load on r hp =>
    subst hp
    exact ⟨r, congrArg Slots.current hself, Genuine.of_same h hs⟩
  | loadOther =>
    refine holds_settle_stay h hs (fun r _ hr => ?_) (fun r _ hr => ?_)
    · rw [hk']
      rwa [hk] at hr
    · rw [hk] at hr
      cases hr
  | clear hp =>
    subst hp
    obtain ⟨r, hr, hg⟩ := h
    rw [hk] at hr
    cases hr
    exact hg.of_same hs

theorem Sound.settle (h : w.Sound) {i : ι} {s : Station} {p' : Place ι} (hm : s.ModeAgrees)
    (hf : Memory.SameFrame w.addr w.host.memory s.machine.host.memory)
    (hh : Handing w.addr i w.place (w.stations i).slots s.slots p') :
    (w.settle i s p').Sound where
  agrees j := by
    by_cases hj : j = i
    · subst hj
      simpa [Tenure.settle] using hm
    · simpa [Tenure.settle, hj] using h.agrees j
  on j r hr ha := by
    by_cases hj : j = i
    · subst hj
      rw [slots_settle_self] at hr
      exact hh.on (h.on j) hr ha
    · rw [slots_settle_other w hj] at hr
      exact (hh.elsewhere hj).1.2 (h.on j r hr ha)
  current j r hr ha := by
    by_cases hj : j = i
    · subst hj
      rw [slots_settle_self] at hr
      exact hh.current (h.current j) hr ha
    · rw [slots_settle_other w hj] at hr
      exact (hh.elsewhere hj).2.2 (h.current j r hr ha)
  holds := holds_settle h.holds ⟨rfl, rfl, hf⟩ hh

theorem Sound.call (h : w.Sound) (i : ι) (c : Call) : (w.call i c).Sound := by
  unfold Tenure.call
  split
  · next ha =>
    refine h.settle ?_ ?_ ?_
    · exact Station.modeAgrees_step (.call c) (w.modeAgrees_station (h.agrees i))
    · exact .of_bytes ((w.station i).bytes_call c)
    · refine handing_call (w.station i) i fun x hx hxa => ?_
      simpa [allows, hx, hxa] using ha
  · exact h

/-! ## Deeds -/

theorem influence_station (w : Tenure ι) (i j : ι) (x : Influence) :
    ((w.step (.influence i x)).stations j).core = (w.stations j).core ∧
      ((w.step (.influence i x)).stations j).standing = (w.stations j).standing := by
  by_cases hj : j = i
  · subst hj
    have hs := (w.stations j).standing_influenced x
    simpa [Tenure.step] using hs
  · simp [Tenure.step, hj]

theorem Sound.influence (h : w.Sound) (i : ι) (x : Influence) :
    (w.step (.influence i x)).Sound := by
  have hs (j : ι) : ((w.step (.influence i x)).stations j).slots = (w.stations j).slots := by
    simp only [Station.slots, (w.influence_station i j x).1]
  refine ⟨fun j c hc => ?_, fun j r hr => ?_, fun j r hr => ?_, ?_⟩
  · obtain ⟨hj, hst⟩ := w.influence_station i j x
    rw [hst]
    exact h.agrees j c (hj ▸ hc)
  · exact h.on j r (hs j ▸ hr)
  · exact h.current j r (hs j ▸ hr)
  · refine h.holds.of_same ⟨rfl, rfl, .of_bytes rfl⟩ (fun j r _ hr => ?_) (fun j r _ hr => ?_)
    · exact (hs j).symm ▸ hr
    · exact (hs j).symm ▸ hr

-- The cases are the deeds that `Tenure.step` names, in its order, and all that cannot be done.
theorem Sound.step (h : w.Sound) (d : Deed ι) : (w.step d).Sound := by
  have hh := h.holds
  unfold Tenure.step
  split
  · next f hp =>
    rw [hp] at hh
    exact h.of_holds rfl ⟨_, hp⟩ rfl (hp ▸ hh)
  · next f hp =>
    split
    · rw [hp] at hh
      exact h.of_holds rfl ⟨_, hp⟩ rfl (hp ▸ hh)
    · exact h
  · next kind f hp =>
    rw [hp] at hh
    exact h.of_holds rfl ⟨_, hp⟩ rfl hh
  · next kind r hp =>
    rw [hp] at hh
    exact h.of_holds rfl ⟨_, hp⟩ rfl hh
  · next caps kind r hp =>
    rw [hp] at hh
    exact h.of_holds rfl ⟨_, hp⟩ rfl ⟨hh, ⟨caps, rfl, rfl⟩, r.stamp_carries caps w.host⟩
  · next kind r hp =>
    rw [hp] at hh
    exact h.of_holds rfl ⟨_, hp⟩ rfl hh.addr
  · next x hp => exact h.of_holds rfl ⟨_, hp⟩ rfl trivial
  · next i c => exact h.call i c
  · next i x => exact h.influence i x
  · next k => exact h.around k
  · exact h

theorem Sound.run (h : w.Sound) (ds : List (Deed ι)) : (w.run ds).Sound := by
  induction ds generalizing w with
  | nil => exact h
  | cons d ds ih => exact ih (h.step d)

@[simp] theorem addr_step (w : Tenure ι) (d : Deed ι) : (w.step d).addr = w.addr := by
  unfold Tenure.step
  split
  case h_2 => split <;> rfl
  case h_8 =>
    unfold Tenure.call
    split <;> rfl
  all_goals rfl

@[simp] theorem addr_run (w : Tenure ι) (ds : List (Deed ι)) : (w.run ds).addr = w.addr := by
  induction ds generalizing w with
  | nil => rfl
  | cons d ds ih => exact (ih (w.step d)).trans (w.addr_step d)

end Tenure

/-! ## The processor -/

namespace Emulator

variable {e : Emulator} {a : PhysAddr} {m : Memory}

/-- On a core that is enabled, the processor looks at nothing but the revision in memory. -/
theorem vmxon_accepts_iff (hv : e.vmxonPtr = none) (hx : e.cr4 &&& vmxe ≠ 0) :
    (∃ p, Processor.vmxon a m e = .ok (.ok (), p)) ↔ m.readWord a = revision := by
  have he : Processor.vmxon a m e = e.vmxon a m := rfl
  have hr : ¬ e.inRoot = true := by simp [inRoot, hv]
  rw [he, vmxon, if_neg hx, if_neg hr]
  by_cases hw : m.readWord a = revision <;> simp [hw]

theorem vmptrld_accepts_iff {on : PhysAddr} (hv : e.vmxonPtr = some on) (hne : on ≠ a) :
    (∃ p, Processor.vmptrld a m e = (.ok (), p)) ↔ m.readWord a = revision := by
  have he : Processor.vmptrld a m e = e.vmptrld a m := rfl
  obtain ⟨f, p, hf, -⟩ := fail_eq (α := Unit) e 11
  simp only [he, vmptrld, hv, if_neg hne]
  by_cases hw : m.readWord a = revision <;> simp [hw, hf]

end Emulator

namespace Tenure

variable {ι : Type} {w : Tenure ι}

/-- The frame was just granted, with whatever is in it, and no core has been enabled yet. -/
structure Starts (w : Tenure ι) (f : Frame) : Prop where
  addr : w.addr = f.addr
  place : w.place = .hand (.frame f)
  stations : ∀ i, ∃ c, (w.stations i).core = some (.disabled c) ∧
    (w.stations i).standing.vmxonPtr = none

theorem Starts.sound {f : Frame} (h : w.Starts f) : w.Sound := by
  have hk (i : ι) : (w.stations i).slots = {} := by
    obtain ⟨c, hc, -⟩ := h.stations i
    exact Station.slots_disabled hc
  refine ⟨fun i c hc => ?_, fun i r hr => ?_, fun i r hr => ?_, ?_⟩
  · obtain ⟨d, hd, hv⟩ := h.stations i
    cases hd.symm.trans hc
    exact hv
  · rw [hk] at hr
    cases hr
  · rw [hk] at hr
    cases hr
  · rw [h.place]
    exact h.addr.symm

/-- A region in hand is none that a core runs on. -/
theorem Sound.apart (h : w.Sound) {x : MemoryObject} (hp : w.place = .hand x) {i : ι}
    {c : Core.Root} (hc : (w.stations i).core = some (.root c)) : c.vmxon.addr ≠ w.addr := by
  intro ha
  have hr : (w.stations i).slots.on = some c.vmxon := by rw [Station.slots_root hc]; rfl
  cases hp.symm.trans (h.on i _ hr ha)

/-- Whatever becomes of a frame, its region carries its stamp as long as it is one, in the hands of
the caller or in a core: the first word is the revision that it was stamped with last, with bit 31
clear, and the rest is zero. So a processor on which VMX operation can start takes the region exactly
if this is its own revision, and so does one in VMX operation. -/
theorem region_carries_stamp_along_tenure [DecidableEq ι] {f : Frame} (h : w.Starts f)
    (ds : List (Deed ι)) :
    ((w.run ds).place = .gone ∨ ∃ x, (w.run ds).object? = some x ∧ x.addr = f.addr) ∧
    ∀ kind (r : Region kind), (w.run ds).object? = some (.stamped kind r) →
      ∃ caps, (w.run ds).stamp = some caps ∧
        r.revision = caps.basic.revision &&& 0x7fffffff ∧
        r.stored (w.run ds).host.memory = r.revision ∧
        (∀ k, 4 ≤ k → k < 4096 → (w.run ds).host.memory.bytes (r.addr + k) = 0) ∧
        ((w.run ds).place = .hand (.stamped kind r) → ∀ i,
          (∀ c, ((w.run ds).stations i).core = some (.enabled c) →
            ((∃ p, Processor.vmxon r.addr (w.run ds).host.memory
                ((w.run ds).stations i).machine.processor = .ok (.ok (), p)) ↔
              caps.basic.revision &&& 0x7fffffff = Emulator.revision)) ∧
          ∀ c, ((w.run ds).stations i).core = some (.root c) →
            ((∃ p, Processor.vmptrld r.addr (w.run ds).host.memory
                ((w.run ds).stations i).machine.processor = (.ok (), p)) ↔
              caps.basic.revision &&& 0x7fffffff = Emulator.revision)) := by
  have hs : (w.run ds).Sound := h.sound.run ds
  have ha : (w.run ds).addr = f.addr := (w.addr_run ds).trans h.addr
  generalize w.run ds = v at hs ha
  refine ⟨hs.object.imp_right ?_, fun kind r hr => ?_⟩
  · rintro ⟨x, hx, hxa, -⟩
    exact ⟨x, hx, hxa.trans ha⟩
  · obtain ⟨hra, ⟨caps, hc, hrev⟩, hword, hrest⟩ := hs.genuine hr
    have hm : v.host.memory.readWord r.addr = caps.basic.revision &&& 0x7fffffff :=
      hword.trans hrev
    refine ⟨caps, hc, hrev, hword, hrest, fun hp i => ⟨fun c hi => ?_, fun c hi => ?_⟩⟩
    · obtain ⟨hv, hx⟩ := hs.agrees i _ hi
      rw [← hm]
      exact Emulator.vmxon_accepts_iff hv hx
    · obtain ⟨hv, -⟩ := hs.agrees i _ hi
      rw [← hm]
      exact Emulator.vmptrld_accepts_iff hv (hra ▸ hs.apart hp hi)

/-- A frame that is dirty, and one core. -/
def soiled : Tenure Unit where
  addr := 0x100000
  place := .hand (.frame ⟨0x100000⟩)
  host := { memory := ({} : Memory).fill 0x100000 0xa5 }
  stations _ := Station.new 0 Core.announced Emulator.new {}

def shadowing : Capabilities := { Core.announced with basic.revision := 0x80000004 }

/-- Stamped for another processor, and with bit 31 set, the region is rejected. -/
def misfit : List (Deed Unit) :=
  [.write 8 7, .setAside .vmxon, .stamp shadowing, .call () .enable,
    .call () (.enterRoot ⟨⟨0x100000⟩, 4⟩)]

/-- The same region is stamped anew, and the core takes it. -/
def refitted : List (Deed Unit) :=
  misfit ++ [.unstamp, .stamp Core.announced,
    .call () (.enterRoot (Station.stamped .vmxon 0x100000))]

theorem starts_soiled : soiled.Starts ⟨0x100000⟩ :=
  ⟨rfl, rfl, fun _ => ⟨Core.new 0 Core.announced, rfl, rfl⟩⟩

/-- The rejected region carries its stamp, and so does the one in the core. VMXON does not take the
first. -/
theorem refitted_region_is_taken :
    (⟨⟨0x100000⟩, 4⟩ : Region .vmxon).stored (soiled.run misfit).host.memory = 4 ∧
      (¬ ∃ p, Processor.vmxon 0x100000 (soiled.run misfit).host.memory
        ((soiled.run misfit).stations ()).machine.processor = .ok (.ok (), p)) ∧
      (soiled.run refitted).place = .under () ∧
      (Station.stamped .vmxon 0x100000).stored (soiled.run refitted).host.memory =
        Emulator.revision := by
  obtain ⟨-, hm⟩ := region_carries_stamp_along_tenure starts_soiled misfit
  obtain ⟨-, hr⟩ := region_carries_stamp_along_tenure starts_soiled refitted
  obtain ⟨caps, hc, -, hword, -, htakes⟩ := hm .vmxon ⟨⟨0x100000⟩, 4⟩ rfl
  obtain ⟨-, -, -, hword', -, -⟩ := hr .vmxon (Station.stamped .vmxon 0x100000) rfl
  refine ⟨hword, fun ht => ?_, rfl, hword'⟩
  cases hc
  have hv := ((htakes rfl ()).1 ⟨⟨0, Core.announced⟩⟩ rfl).1 ht
  exact absurd hv (by decide)

end Tenure

end VmxControl
