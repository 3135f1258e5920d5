import VmxControl.Bench.Session
import VmxControl.Proofs.Accounts

/-!
# Conservation of frames

Every frame that is out is in one place: a memory object, a core in root operation, or the region of
a core that was dropped while its processor would not leave VMX operation. So it is after every step
of every session, whatever the processors do and however requests for frames are answered.
-/

namespace VmxControl.Bench

/-! ## What is abandoned -/

/-- What is abandoned if the slot loses its core. -/
def abandonedAt (b : Bench) (n : Nat) : Multiset PhysAddr :=
  (b.slots.get? n).elim 0 (·.abandons b)

/-- A core is dropped when it is told so, or when another comes in its place. -/
def abandons (b : Bench) (n : Nat) : Action → Multiset PhysAddr
  | .core .drop => b.abandonedAt n
  | .core (.new caps _ _ source) =>
    match b.snapshot caps >>= fun found => found.2.provide source with
    | .ok (_, b) => b.abandonedAt n
    | .error _ => 0
  | _ => 0

/-- The regions that are abandoned in the course of the steps. -/
def abandoned (b : Bench) : List Step → Multiset PhysAddr
  | [] => 0
  | s :: rest => b.abandons s.slot s.action + (b.answer s).2.abandoned rest

namespace Accounted

variable {b b' : Bench} {n : Nat} {s : Slot} {name : String} {r : Reply} {zs : Multiset PhysAddr}

/-! ### Steps up and down the modes -/

theorem enable (h : b.Accounted zs) (hx : b.enable n = .ok (r, b')) : b'.Accounted zs := by
  obtain ⟨⟨s, c⟩, hc, hx⟩ := bind_ok hx
  have hs := core_ok hc
  cases c with
  | disabled c =>
    have hm := c.memory_enable (b.machine s)
    rcases he : c.enable (b.machine s) with ⟨why | d, m⟩
    all_goals
      rw [he] at hm
      simp only [he] at hx
      cases hx
      exact h.settle hs (.of_memory hm _)
  | enabled c | root c => cases hx

theorem disable (h : b.Accounted zs) (hx : b.disable n = .ok (r, b')) : b'.Accounted zs := by
  obtain ⟨⟨s, c⟩, hc, hx⟩ := bind_ok hx
  have hs := core_ok hc
  cases c with
  | enabled c =>
    have hm := c.memory_disable (b.machine s)
    cases hx
    exact h.settle hs (.of_memory hm _)
  | disabled c | root c => cases hx

theorem intoPlatform (h : b.Accounted zs) (hx : b.intoPlatform n = .ok (r, b')) :
    b'.Accounted zs := by
  obtain ⟨⟨s, c⟩, hc, hx⟩ := bind_ok hx
  have hs := core_ok hc
  cases c with
  | disabled c =>
    cases hx
    rw [← zero_add zs] at h ⊢
    refine h.put_slot rfl rfl ?_
    rw [hs.slot, Option.elim_some, hs.frames]
    exact .refl _ _
  | enabled c | root c => cases hx

theorem enterRoot (h : b.Accounted zs) (hx : b.enterRoot n name = .ok (r, b')) :
    b'.Accounted zs := by
  obtain ⟨⟨s, c⟩, hc, hx⟩ := bind_ok hx
  have hs := core_ok hc
  cases c with
  | enabled c =>
    obtain ⟨region, hr, hx⟩ := bind_ok hx
    obtain ⟨x, hg, ha⟩ := region_ok hr
    have hf : x.frames = {region.addr} := by rw [MemoryObject.frames, ha]
    obtain ⟨d, m, he, hd, hm⟩ | ⟨why, m, he, hm⟩ | ⟨t, m, he, ht⟩ :=
      c.enterRoot_trades region (b.machine s)
    all_goals
      simp only [he] at hx
      cases hx
    · refine h.hand_over hs hg ?_
      rw [Occupant.frames_enabled, zero_add, hf, ← hd]
      exact .of_memory hm _
    · exact (h.settle hs (.of_memory hm _)).replace hg ha.symm
    · refine h.hand_over hs hg ?_
      rw [Occupant.frames_enabled, zero_add, hf]
      exact ht
  | disabled c | root c => cases hx

theorem exitRoot (h : b.Accounted zs) (hx : b.exitRoot n name = .ok (r, b')) :
    b'.Accounted zs := by
  obtain ⟨⟨s, c⟩, hc, hx⟩ := bind_ok hx
  have hs := core_ok hc
  cases c with
  | root c =>
    obtain ⟨m, he, hf, hm⟩ | ⟨why, m, he, hm⟩ := c.exitRoot_trades (b.machine s)
    all_goals
      simp only [he] at hx
      cases hx
    · refine h.take_out hs ?_
      have hr : (Occupant.core (.root c)).frames = {c.vmxon.addr} := hf
      rw [hr, Occupant.frames_enabled, zero_add]
      exact .of_memory hm _
    · exact h.settle hs (.of_memory hm _)
  | disabled c | enabled c => cases hx

theorem hardwareEnable (h : b.Accounted zs) (hx : b.hardwareEnable n = .ok (r, b')) :
    b'.Accounted zs := by
  obtain ⟨⟨s, c⟩, hc, hx⟩ := bind_ok hx
  have hs := holder_ok hc
  have ht := c.hardwareEnable_trades (b.machine s)
  rcases he : c.hardwareEnable (b.machine s) with ⟨t | why, d, m⟩
  all_goals
    rw [he, ← Occupant.frames_holder, ← Occupant.frames_holder] at ht
    simp only [he] at hx
    cases hx
    exact h.settle hs ht

theorem hardwareDisable (h : b.Accounted zs) (hx : b.hardwareDisable n = .ok (r, b')) :
    b'.Accounted zs := by
  obtain ⟨⟨s, c⟩, hc, hx⟩ := bind_ok hx
  have hs := holder_ok hc
  have ht := c.hardwareDisable_trades (b.machine s)
  rw [← Occupant.frames_holder, ← Occupant.frames_holder] at ht
  cases hx
  exact h.settle hs ht

/-! ### Steps of a core in root operation -/

/-- The core goes back to its slot with the frames that it had. -/
theorem settle_root {c d : Core.Root} {m : Machine Rig} {o : Occupant} (h : b.Accounted zs)
    (hs : b.Seats n s o) (ho : o.frames = c.frames) (hf : d.frames = c.frames)
    (hm : m.host.memory = b.host.memory) : (b.settle n s (o.withRoot d) m).Accounted zs := by
  refine h.settle hs ?_
  rw [ho, Occupant.frames_withRoot, hf]
  exact .of_memory hm _

theorem load (h : b.Accounted zs) (hx : b.load n name = .ok (r, b')) : b'.Accounted zs := by
  obtain ⟨⟨s, o, c⟩, hc, hx⟩ := bind_ok hx
  obtain ⟨hs, ho⟩ := root_ok hc
  obtain ⟨region, hr, hx⟩ := bind_ok hx
  obtain ⟨x, hg, ha⟩ := region_ok hr
  obtain ⟨d, m, he, hd, hm⟩ | ⟨why, m, he, hm⟩ := c.load_trades region (b.machine s)
  all_goals
    simp only [he] at hx
    cases hx
  · refine h.hand_over hs hg ?_
    rw [ho, MemoryObject.frames, ha, ← hd, Option.elim_some, Occupant.frames_withRoot]
    exact .of_memory hm _
  · exact (h.settle_root hs ho rfl hm).replace hg ha.symm

theorem clear (h : b.Accounted zs) (hx : b.clear n name = .ok (r, b')) : b'.Accounted zs := by
  obtain ⟨⟨s, o, c⟩, hc, hx⟩ := bind_ok hx
  obtain ⟨region, hr, hx⟩ := bind_ok hx
  cases hx
  exact h.restore (c.memory_clear region (b.machine s))

theorem clearCurrent (h : b.Accounted zs) (hx : b.clearCurrent n name = .ok (r, b')) :
    b'.Accounted zs := by
  obtain ⟨⟨s, o, c⟩, hc, hx⟩ := bind_ok hx
  obtain ⟨hs, ho⟩ := root_ok hc
  obtain ⟨region, d, m, he, hd, -, hm⟩ | ⟨why, m, he, hm⟩ := c.clearCurrent_trades (b.machine s)
  all_goals
    simp only [he] at hx
    cases hx
  · refine h.take_out hs ?_
    rw [ho, hd, Occupant.frames_withRoot]
    exact .of_memory hm _
  · exact h.settle_root hs ho rfl hm

theorem enter {k : Entry} (h : b.Accounted zs) (hx : b.enter n k = .ok (r, b')) :
    b'.Accounted zs := by
  obtain ⟨⟨s, o, c⟩, hc, hx⟩ := bind_ok hx
  obtain ⟨hs, ho⟩ := root_ok hc
  obtain ⟨hf, hm⟩ := c.enter_stays k b.regs (b.machine s)
  rcases he : c.enter k b.regs (b.machine s) with ⟨why, d, regs, m⟩
  rw [he] at hf hm
  simp only [he] at hx
  cases hx
  exact (h.settle_root hs ho hf hm).of_alike ⟨rfl, rfl, rfl⟩

theorem settleRunning {c : Core.Root} {w : Running Rig} {o : Occupant} (h : b.Accounted zs)
    (hs : b.Seats n s o) (ho : o.frames = c.frames) (hw : (b.running s c).Stays w) :
    (b.settleRunning n s o w).Accounted zs :=
  (h.settle_root hs ho hw.1 hw.2).of_alike ⟨rfl, rfl, rfl⟩

theorem stays_runTimes (k : DispatchKind) (times : Nat) (r : Reply) (w : Running Rig) :
    w.Stays (runTimes k times (r, w)).2 := by
  induction times generalizing r w with
  | zero => exact ⟨rfl, rfl⟩
  | succ times ih =>
    have hk : w.Stays (k.enter w).2 := by
      cases k with
      | launch | resume | run => exact w.stays_enter _
    rcases he : k.enter w with ⟨t | why, v⟩
    all_goals
      rw [he] at hk
      simp only [runTimes, he]
    · exact hk
    · exact hk.trans (ih _ v)

theorem dispatch {k : DispatchKind} {times : Nat} (h : b.Accounted zs)
    (hx : b.dispatch n k times = .ok (r, b')) : b'.Accounted zs := by
  obtain ⟨⟨s, o, c⟩, hc, hx⟩ := bind_ok hx
  obtain ⟨hs, ho⟩ := root_ok hc
  have hw := stays_runTimes k times .unasked (b.running s c)
  rcases he : runTimes k times (.unasked, b.running s c) with ⟨why, w⟩
  rw [he] at hw
  simp only [he] at hx
  cases hx
  exact h.settleRunning hs ho hw

theorem handle {handler : ExitHandler} (h : b.Accounted zs)
    (hx : b.handle n handler = .ok (r, b')) : b'.Accounted zs := by
  obtain ⟨⟨s, o, c⟩, hc, hx⟩ := bind_ok hx
  obtain ⟨hs, ho⟩ := root_ok hc
  have hw := (b.running s c).stays_dispatch handler.handler
  rcases he : (b.running s c).dispatch handler.handler with ⟨why, w⟩
  rw [he] at hw
  simp only [he] at hx
  cases hx
  exact h.settleRunning hs ho hw

theorem invept {pointer scope : UInt64} (h : b.Accounted zs)
    (hx : b.invept n pointer scope = .ok (r, b')) : b'.Accounted zs := by
  obtain ⟨⟨s, o, c⟩, hc, hx⟩ := bind_ok hx
  cases hk : EptScope.ofCode? scope with
  | none => simp only [hk] at hx; cases hx
  | some k =>
    simp only [hk] at hx
    cases hx
    exact h.restore (c.memory_invalidateEpt pointer k (b.machine s))

theorem invvpid {tag : String} {scope address : UInt64} (h : b.Accounted zs)
    (hx : b.invvpid n tag scope address = .ok (r, b')) : b'.Accounted zs := by
  obtain ⟨⟨s, o, c⟩, hc, hx⟩ := bind_ok hx
  cases hk : VpidScope.ofCode? scope with
  | none => simp only [hk] at hx; cases hx
  | some k =>
    simp only [hk] at hx
    cases hx
    exact h.restore (c.memory_invalidateVpid (b.tag tag) k address (b.machine s))

theorem read {table : String} {encoding : UInt32} (h : b.Accounted zs)
    (hx : b.read n table encoding = .ok (r, b')) : b'.Accounted zs := by
  obtain ⟨⟨s, o, c⟩, hc, hx⟩ := bind_ok hx
  dsimp only at hx
  split at hx
  · cases hx
  · split at hx
    · cases hx
    · next f _ =>
      cases hx
      exact h.restore (c.memory_read f (b.machine s))

theorem write {table : String} {encoding : UInt32} {v : UInt64} (h : b.Accounted zs)
    (hx : b.write n table encoding v = .ok (r, b')) : b'.Accounted zs := by
  obtain ⟨⟨s, o, c⟩, hc, hx⟩ := bind_ok hx
  dsimp only at hx
  split at hx
  · cases hx
  · split at hx
    · split at hx
      · cases hx
      · next f _ =>
        cases hx
        exact h.restore (c.memory_write f v (b.machine s))
    · cases hx

/-! ### Cores that come and go -/

theorem newCore {caps : String} {id : UInt64} {held : Bool} {source : ProcessorSource}
    (h : b.Accounted zs) (hx : b.newCore n caps id held source = .ok (r, b')) :
    b'.Accounted (b.abandons n (.core (.new caps id held source)) + zs) := by
  obtain ⟨⟨found, b₁⟩, h₁, hx⟩ := bind_ok hx
  obtain ⟨⟨s, b₂⟩, h₂, hx⟩ := bind_ok hx
  have ha : b.abandons n (.core (.new caps id held source)) = b₂.abandonedAt n := by
    simp only [abandons, h₁, h₂, bind, Except.bind]
  have hb : b₂.Accounted (0 + zs) := by
    rw [zero_add]
    exact (h.of_alike (snapshot_ok h₁)).of_alike (provide_ok h₂)
  have hf : ({ s with occupant := some (if held then .holder (.new id found)
      else .core (.disabled (Core.new id found))) } : Slot).frames = 0 := by
    cases held <;> rfl
  rw [ha, abandonedAt]
  dsimp only at hx
  -- the old core, if there is one, is dropped after the new one has come
  split at hx
  · next old hold =>
    rw [hold, Option.elim_some, Slot.abandons]
    split at hx
    · next o ho =>
      cases hx
      refine hb.put_slot rfl rfl ?_
      rw [hold, hf, Option.elim_some, Slot.frames, ho, add_zero, zero_add]
      exact o.drop_trades (b₂.machine old)
    · next ho =>
      cases hx
      refine hb.put_slot rfl rfl ?_
      rw [hold, hf, Option.elim_some, Slot.frames, ho]
      exact .refl _ _
  · next hold =>
    cases hx
    refine hb.put_slot rfl rfl ?_
    rw [hold, hf]
    exact .refl _ _

theorem dropCore (h : b.Accounted zs) (hx : b.dropCore n = .ok (r, b')) :
    b'.Accounted (b.abandonedAt n + zs) := by
  obtain ⟨s, hs, hx⟩ := bind_ok hx
  have hs := slot_ok hs
  cases hx
  rw [abandonedAt, hs, Option.elim_some]
  exact h.dropOccupant hs

/-- Nothing is abandoned. -/
theorem kept (h : b.Accounted zs) : b.Accounted (0 + zs) := by
  rwa [zero_add]

theorem coreStep {step : CoreStep} (h : b.Accounted zs)
    (hx : b.coreStep n step = .ok (r, b')) : b'.Accounted (b.abandons n (.core step) + zs) := by
  cases step with
  | new caps id held source => exact h.newCore hx
  | drop => exact h.dropCore hx
  | enable => exact (h.enable hx).kept
  | disable => exact (h.disable hx).kept
  | intoPlatform => exact (h.intoPlatform hx).kept
  | enterRoot region => exact (h.enterRoot hx).kept
  | exitRoot name => exact (h.exitRoot hx).kept
  | hardwareEnable => exact (h.hardwareEnable hx).kept
  | hardwareDisable => exact (h.hardwareDisable hx).kept
  | load region => exact (h.load hx).kept
  | clear region => exact (h.clear hx).kept
  | clearCurrent name => exact (h.clearCurrent hx).kept
  | enter k => exact (h.enter hx).kept
  | dispatch k times => exact (h.dispatch hx).kept
  | handle handler => exact (h.handle hx).kept
  | invept pointer scope => exact (h.invept hx).kept
  | invvpid tag scope address => exact (h.invvpid hx).kept
  | read table encoding => exact (h.read hx).kept
  | write table encoding v => exact (h.write hx).kept
  | debug =>
    obtain ⟨_, -, hx⟩ := bind_ok hx
    cases hx
    exact h.kept
  | info =>
    obtain ⟨⟨s, o⟩, -, hx⟩ := bind_ok hx
    cases o <;> (cases hx; exact h.kept)
  | current =>
    obtain ⟨⟨s, o, c⟩, -, hx⟩ := bind_ok hx
    dsimp only at hx
    split at hx <;> (cases hx; exact h.kept)
  | unknown =>
    obtain ⟨_, -, hx⟩ := bind_ok hx
    cases hx

/-! ### Steps on objects -/

theorem of_answer {p : Reply × Bench} (h : p.2.Accounted zs)
    (hx : (pure p : Outcome) = .ok (r, b')) : b'.Accounted zs := by
  obtain rfl : p = (r, b') := Except.ok.inj hx
  exact h

/-- A new object, if the request for its frame is granted. -/
theorem addObject {α : Type} {f : α → MemoryObject} {found : Except Failure α × Host}
    (h : b.Accounted zs)
    (ht : (∃ a host, found = (.ok a, host) ∧ b.host.memory.Trades host.memory 0 (f a).frames) ∨
      ∃ e host, found = (.error e, host) ∧ b.host.memory.Trades host.memory 0 0) :
    (b.addObject name (found.1.map f, found.2)).2.Accounted zs := by
  obtain ⟨a, host, rfl, ht⟩ | ⟨e, host, rfl, ht⟩ := ht
  · have hb : ({ b with host } : Bench).Accounted ((f a).frames + zs) := h.kept.trade rfl rfl ht
    exact hb.keep
  · have hb : ({ b with host } : Bench).Accounted (0 + zs) := h.kept.trade rfl rfl ht
    rwa [zero_add] at hb

theorem newFrame {zero : Bool} (h : b.Accounted zs) :
    (b.newFrame name zero).2.Accounted zs := by
  cases zero with
  | false => exact h.addObject b.host.allocate_trades
  | true => exact h.addObject b.host.allocateZeroed_trades

theorem newRaw {kind : RegionKind} (h : b.Accounted zs) :
    (b.newRaw name kind).2.Accounted zs := h.addObject (RawRegion.allocate_trades kind b.host)

theorem dropObject {x : MemoryObject} (h : b.Accounted zs) (hg : b.objects.get? name = some x) :
    (b.dropObject name x).2.Accounted zs := (h.forget hg).release

/-- An object stays what it is, or is made anew of its frame. -/
theorem stampObject {x : MemoryObject} {caps : Capabilities} (h : b.Accounted zs)
    (hg : b.objects.get? name = some x) : (b.stampObject name x caps).2.Accounted zs := by
  cases x with
  | raw kind region =>
    have hb : ({ b with host := (region.stamp caps b.host).2 } : Bench).Accounted (0 + zs) :=
      h.kept.trade rfl rfl ((region.stamp_trades caps b.host).2 0)
    rw [zero_add] at hb
    exact hb.replace hg rfl
  | frame | stamped => exact h

theorem rawObject {x : MemoryObject} (h : b.Accounted zs) (hg : b.objects.get? name = some x) :
    (b.rawObject name x).2.Accounted zs := by
  cases x with
  | stamped kind region => exact h.replace hg rfl
  | frame | raw => exact h

theorem frameObject {x : MemoryObject} (h : b.Accounted zs) (hg : b.objects.get? name = some x) :
    (b.frameObject name x).2.Accounted zs := by
  cases x with
  | raw kind region => exact h.replace hg rfl
  | frame | stamped => exact h

theorem regionObject {x : MemoryObject} {kind : RegionKind} (h : b.Accounted zs)
    (hg : b.objects.get? name = some x) : (b.regionObject name x kind).2.Accounted zs := by
  cases x with
  | frame f => exact h.replace hg rfl
  | raw | stamped => exact h

theorem onFrame {x : MemoryObject} {step : Frame → Reply × Bench} (h : b.Accounted zs)
    (hs : ∀ f, (step f).2.Accounted zs) : (b.onFrame x step).2.Accounted zs := by
  unfold Bench.onFrame
  split
  · exact hs _
  · exact h

theorem writeFrame {offset : UInt64} {v : UInt32} (h : b.Accounted zs) (f : Frame) :
    (b.writeFrame offset v f).2.Accounted zs := by
  unfold Bench.writeFrame Frame.write
  split
  · rcases f.locate offset with t | a
    · exact h
    · have hb : ({ b with host := { b.host with memory := b.host.memory.writeWord a v } } :
          Bench).Accounted (0 + zs) :=
        h.kept.trade rfl rfl (b.host.memory.writeWord_trades a v 0)
      rwa [zero_add] at hb
  · exact h

theorem readFrame {offset : UInt64} (h : b.Accounted zs) (f : Frame) :
    (b.readFrame offset f).2.Accounted zs := by
  unfold Bench.readFrame
  split <;> exact h

theorem objectStep {x : MemoryObject} {step : ObjectStep} (h : b.Accounted zs)
    (hg : b.objects.get? name = some x) (hx : b.objectStep name x step = .ok (r, b')) :
    b'.Accounted zs := by
  -- the object has its name also after a snapshot was looked up
  have hfound {caps : String} {found : Capabilities} {b₁ : Bench}
      (h₁ : b.snapshot caps = .ok (found, b₁)) :
      b₁.Accounted zs ∧ b₁.objects.get? name = some x :=
    ⟨h.of_alike (snapshot_ok h₁), (snapshot_ok h₁).objects ▸ hg⟩
  cases step with
  | stamp caps =>
    obtain ⟨_, h₁, hx⟩ := bind_ok hx
    exact ((hfound h₁).1.stampObject (hfound h₁).2).of_answer hx
  | toRaw caps =>
    obtain ⟨_, h₁, hx⟩ := bind_ok hx
    exact ((hfound h₁).1.rawObject (hfound h₁).2).of_answer hx
  | toFrame caps =>
    obtain ⟨_, h₁, hx⟩ := bind_ok hx
    exact ((hfound h₁).1.frameObject (hfound h₁).2).of_answer hx
  | ofFrame caps kind =>
    obtain ⟨_, h₁, hx⟩ := bind_ok hx
    exact ((hfound h₁).1.regionObject (hfound h₁).2).of_answer hx
  | «show» => exact h.of_answer hx
  | drop => exact (h.dropObject hg).of_answer hx
  | fill byte =>
    refine (h.onFrame fun f => ?_).of_answer hx
    have hb : ({ b with host := b.host.fill f byte } : Bench).Accounted (0 + zs) :=
      h.kept.trade rfl rfl (b.host.memory.fill_trades f.addr byte 0)
    rwa [zero_add] at hb
  | write offset v => exact (h.onFrame h.writeFrame).of_answer hx
  | read offset => exact (h.onFrame h.readFrame).of_answer hx
  | sum => exact (h.onFrame fun _ => h).of_answer hx
  | unknown => cases hx

theorem memoryStep {step : MemoryStep} (h : b.Accounted zs)
    (hx : b.memoryStep step = .ok (r, b')) : b'.Accounted zs := by
  cases step with
  | frame name zero => exact h.newFrame.of_answer hx
  | raw name kind => exact h.newRaw.of_answer hx
  | on name step =>
    cases hg : b.objects.get? name with
    | none => simp only [Bench.memoryStep, hg] at hx; cases hx
    | some x =>
      simp only [Bench.memoryStep, hg] at hx
      exact h.objectStep hg hx

end Accounted

/-! ## Steps that leave slots, objects and memory alone -/

section Alike

variable {b b' : Bench} {n : Nat} {r : Reply}

theorem detect_alike (model : Emulator.Model) (o : Override) : b.Alike (b.detect model o).2 :=
  ⟨rfl, rfl, memory_detect (⟨Emulator.ofModel model, b.host⟩ : Machine Emulator)⟩

theorem snapshotStep_alike {step : SnapshotStep} (hx : b.snapshotStep step = .ok (r, b')) :
    b.Alike b' := by
  cases step with
  | make name model o =>
    have hd := b.detect_alike model o
    rcases he : b.detect model o with ⟨e | c, b₁⟩
    all_goals
      rw [he] at hd
      simp only [snapshotStep, he] at hx
      cases hx
      exact ⟨hd.slots, hd.objects, hd.memory⟩
  | compare name model o =>
    have hd := b.detect_alike model o
    rcases he : b.detect model o with ⟨e | c, b₁⟩
    all_goals
      rw [he] at hd
      simp only [snapshotStep, he] at hx
    · cases hx
      exact hd
    · obtain ⟨_, h₁, hx⟩ := bind_ok hx
      cases hx
      exact hd.trans (snapshot_ok h₁)
  | «show» name =>
    obtain ⟨_, h₁, hx⟩ := bind_ok hx
    cases hx
    exact snapshot_ok h₁
  | adjust name group requested =>
    obtain ⟨⟨c, b₁⟩, h₁, hx⟩ := bind_ok hx
    dsimp only at hx
    split at hx <;> (cases hx; exact snapshot_ok h₁)

theorem processorStep_alike {step : ProcessorStep} (hx : b.processorStep n step = .ok (r, b')) :
    b.Alike b' := by
  obtain ⟨s, -, hx⟩ := bind_ok hx
  cases step with
  | setMsr number v | vmptrld number | vmclear number =>
    obtain ⟨_, -, hx⟩ := bind_ok hx
    cases hx
    exact ⟨rfl, rfl, rfl⟩
  | rdmsr number =>
    obtain ⟨m, -, hx⟩ := bind_ok hx
    rcases he : (b.rig s).emulator.rdmsr m with t | x
    all_goals
      simp only [readRegister, he] at hx
      cases hx
      exact ⟨rfl, rfl, rfl⟩
  | vmxon region =>
    obtain ⟨a, -, hx⟩ := bind_ok hx
    rcases he : Processor.vmxon a b.host.memory (b.rig s) with t | x
    all_goals
      simp only [executeVmxon, he] at hx
      cases hx
      exact ⟨rfl, rfl, rfl⟩
  | force name f =>
    dsimp only at hx
    split at hx <;> (cases hx; exact ⟨rfl, rfl, rfl⟩)
  | inject | invept | invvpid =>
    dsimp only at hx
    split at hx
    · cases hx
      exact ⟨rfl, rfl, rfl⟩
    · cases hx
  | unknown => cases hx
  | _ =>
    cases hx
    exact ⟨rfl, rfl, rfl⟩

end Alike

namespace Accounted

variable {b b' : Bench} {n : Nat} {r : Reply} {zs : Multiset PhysAddr}

theorem takeTag {name : String} (h : b.Accounted zs) : (b.takeTag name).2.Accounted zs := by
  rcases ht : b.pool.take? with ⟨_ | t, pool⟩
  all_goals
    simp only [Bench.takeTag, TagPool.allocate, ht]
    exact h.of_alike ⟨rfl, rfl, rfl⟩

theorem appendGrants {script : List Grant} (h : b.Accounted zs) :
    (b.appendGrants script).Accounted zs := by
  have hb : (b.appendGrants script).Accounted (0 + zs) :=
    h.kept.trade rfl rfl (b.host.memory.script_trades _ 0)
  rwa [zero_add] at hb

theorem act {a : Action} (h : b.Accounted zs) (hx : b.act n a = .ok (r, b')) :
    b'.Accounted (b.abandons n a + zs) := by
  cases a with
  | core step => exact h.coreStep hx
  | processor step => exact (h.of_alike (processorStep_alike hx)).kept
  | memory step => exact (h.memoryStep hx).kept
  | snapshot step => exact (h.of_alike (snapshotStep_alike hx)).kept
  | tag name => exact (h.takeTag.of_answer hx).kept
  | grants script =>
    cases hx
    exact h.appendGrants.kept
  | registers step =>
    rcases he : step.run b.regs with ⟨reply, regs⟩
    simp only [Bench.act, he] at hx
    cases hx
    have hb : ({ b with regs } : Bench).Accounted zs := h.of_alike ⟨rfl, rfl, rfl⟩
    exact hb.kept
  | telemetry step =>
    rcases he : step.run b.telemetry with ⟨reply, telemetry⟩
    simp only [Bench.act, he] at hx
    cases hx
    have hb : ({ b with telemetry } : Bench).Accounted zs := h.of_alike ⟨rfl, rfl, rfl⟩
    exact hb.kept
  | malformed => cases hx

end Accounted

/-- A denied step drops no core. -/
theorem abandons_of_denied {b : Bench} {n : Nat} {a : Action} {d : Denial}
    (h : b.act n a = .error d) : b.abandons n a = 0 := by
  cases a with
  | core step =>
    cases step with
    | drop =>
      cases hs : b.slots.get? n with
      | none => rw [abandons, abandonedAt, hs, Option.elim_none]
      | some s =>
        simp only [act, coreStep, dropCore, slot, hs] at h
        cases h
    | new caps id held source =>
      rcases h₁ : b.snapshot caps with d | ⟨found, b₁⟩
      · simp only [abandons, h₁, bind, Except.bind]
      rcases h₂ : b₁.provide source with d | ⟨s, b₂⟩
      · simp only [abandons, h₁, h₂, bind, Except.bind]
      simp only [act, coreStep, newCore, h₁, h₂, bind, Except.bind] at h
      split at h
      · split at h <;> cases h
      · cases h
    | _ => rfl
  | _ => rfl

namespace Accounted

variable {b : Bench} {zs : Multiset PhysAddr}

theorem step (h : b.Accounted zs) (s : Step) :
    (b.step s).2.Accounted (b.abandons s.slot s.action + zs) := by
  unfold Bench.step
  split
  · next hx => exact h.act hx
  · next hx =>
    rw [abandons_of_denied hx]
    exact h.kept

theorem lookAt (h : b.Accounted zs) (n : Nat) : (b.lookAt n).2.Accounted zs := by
  unfold Bench.lookAt
  dsimp only
  split
  · exact h.of_alike ⟨rfl, rfl, rfl⟩
  · next s hs =>
    have hb : b.slots.get? n = some s := hs
    rw [← zero_add zs]
    refine h.kept.put_slot rfl rfl ?_
    rw [hb, Option.elim_some]
    exact .refl _ _

/-- The step lemma along all steps. -/
theorem answers (h : b.Accounted zs) (steps : List Step) :
    (Run.answers answer b steps).2.Accounted (b.abandoned steps + zs) := by
  induction steps generalizing b zs with
  | nil => exact h.kept
  | cons s rest ih =>
    have hb : (b.answer s).2.Accounted (b.abandons s.slot s.action + zs) :=
      (h.step s).lookAt s.slot
    rw [Run.answers_cons, abandoned, add_comm (b.abandons _ _), add_assoc]
    exact ih hb

end Accounted

/-! ## Sessions -/

/-- The bench after the steps of a session. -/
def after (steps : List Step) : Bench := (Run.answers answer {} steps).2

/-- After any steps of a session, every frame that was given back was out, and the frames that are out
are those of the objects, those of the cores, and the one of each core that was dropped in root
operation when VMXOFF failed. So many more frames were granted than were given back, and so it is for
each address alone. -/
theorem frames_conserved_along_sessions (steps : List Step) :
    Memory.outstanding (after steps).host.memory.traffic =
        some ((after steps).held + abandoned {} steps) ∧
      (after steps).host.memory.granted = (after steps).host.memory.returned +
        ((after steps).objects.length + ((after steps).slots.map fun e => e.2.regions).sum +
          (abandoned {} steps).card) ∧
      ∀ a, (after steps).host.memory.traffic.count (.requested (some a)) =
        (after steps).host.memory.traffic.count (.returned a) +
          ((after steps).held + abandoned {} steps).count a := by
  have h := accounted_empty.answers steps
  rw [add_zero] at h
  refine ⟨h.owes.ledger, ?_, Memory.outstanding_count h.owes.ledger⟩
  rw [← card_held, ← Multiset.card_add]
  exact h.owes.count

/-- A core is dropped in root operation, and VMXOFF fails. -/
def stuckDrop : List Step :=
  [.core (.new "default" 0 false (.model {})), .core .enable, .memory (.raw "on" .vmxon),
    .memory (.on "on" (.stamp "default")), .core (.enterRoot "on"),
    .processor (.force "vmxoff" .invalid), .core .drop].map (Step.mk 0)

example : abandoned {} stuckDrop = {0x100000} ∧ (after stuckDrop).host.memory.live = 1 := ⟨rfl, rfl⟩

end VmxControl.Bench
