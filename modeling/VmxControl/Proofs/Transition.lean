import VmxControl.Core.Transition
import VmxControl.Detection
import VmxControl.Proofs.Standing

/-!
# Transitions and the standing

What each transition does to the standing of an emulated processor. A transition that is rejected
hands back what it was given and leaves memory alone. It leaves the standing alone as well, with one
exception: enabling locks the feature-control register before it has made all its checks, so a check
that fails later finds the register written.
-/

namespace VmxControl

namespace Emulator

@[simp] theorem standing_present (e : Emulator) : e.present.2.standing = e.standing := rfl

@[simp] theorem standing_readMsr (e : Emulator) (r : Msr) :
    (e.readMsr r).2.standing = e.standing := rfl

@[simp] theorem standing_writeMsr (e : Emulator) (r : Msr) (v : UInt64) :
    (e.writeMsr r v).standing = e.standing.apply (.wrmsr r v) := rfl

/-- The entry in the journal when the feature-control register is locked. -/
def lockOp (e : Emulator) : Op :=
  .wrmsr .featureControl (e.msrs.get .featureControl ||| lockBit ||| outsideSmxBit)

/-- Firmware left the register unlocked. -/
def Unlocked (e : Emulator) : Prop := e.msrs.get .featureControl &&& lockBit = 0

instance (e : Emulator) : Decidable e.Unlocked := inferInstanceAs (Decidable (_ = _))

end Emulator

theorem permitVmxon_eq (s : Machine Emulator) :
    ∃ r e, permitVmxon s = (r, { s with processor := e }) ∧
      e.standing =
        if s.processor.Unlocked then s.standing.apply s.processor.lockOp else s.standing := by
  by_cases hl : s.processor.Unlocked
  · refine ⟨.ok (), (s.processor.readMsr .featureControl).2.writeMsr .featureControl
      (s.processor.msrs.get .featureControl ||| lockBit ||| outsideSmxBit), ?_, ?_⟩
    · exact if_pos hl
    · simp [hl, Emulator.lockOp, Machine.standing]
  · rw [if_neg hl]
    by_cases ho : s.processor.msrs.get .featureControl &&& outsideSmxBit = 0
    · exact ⟨_, _, (if_neg hl).trans (if_pos ho), rfl⟩
    · exact ⟨_, _, (if_neg hl).trans (if_neg ho), rfl⟩

namespace Core

namespace Disabled

/-- Enabling writes the feature-control register, whatever it comes to. -/
def Locks (c : Disabled) (e : Emulator) : Prop :=
  c.caps.supported = true ∧ e.vmx = true ∧ e.Unlocked

instance (c : Disabled) (e : Emulator) : Decidable (c.Locks e) :=
  inferInstanceAs (Decidable (_ ∧ _))

/-- The standing that the checks of enabling leave. -/
def checked (c : Disabled) (e : Emulator) : Standing :=
  if c.Locks e then e.standing.apply e.lockOp else e.standing

theorem cr4_checked (c : Disabled) (e : Emulator) : (c.checked e).cr4 = e.cr4 := by
  unfold checked
  split <;> rfl

/-- A check that succeeds leaves CR4 with the bit set to be written. -/
theorem prepare_ok {caps : Capabilities} {cr0 cr4 v : UInt64} (h : caps.prepare cr0 cr4 = .ok v) :
    v = cr4 ||| vmxe := by
  unfold Capabilities.prepare at h
  repeat' split at h
  all_goals cases h
  rfl

theorem check_eq (c : Disabled) (s : Machine Emulator) :
    ∃ r e, c.check s = (r, { s with processor := e }) ∧ e.standing = c.checked s.processor ∧
      ∀ v, r = .ok v → v = s.processor.cr4 ||| vmxe := by
  by_cases hs : c.caps.supported = true
  · by_cases hv : s.processor.vmx = true
    · obtain ⟨r, e, hp, he⟩ := permitVmxon_eq { s with processor := s.processor.present.2 }
      have hl : c.Locks s.processor ↔ s.processor.present.2.Unlocked := by
        simp [Locks, hs, hv, Emulator.Unlocked, Emulator.present]
      have hst : e.standing = c.checked s.processor := by
        simp only [checked, hl]
        exact he
      have hx : Processor.present s.processor = (true, s.processor.present.2) := Prod.ext hv rfl
      cases r with
      | ok u =>
        refine ⟨c.caps.prepare e.cr0 e.cr4, e, ?_, hst, fun v h => ?_⟩
        · simp only [check, hs, hx, hp, ↓reduceIte]
          rfl
        · have h4 : e.cr4 = s.processor.cr4 :=
            (congrArg Standing.cr4 hst).trans (c.cr4_checked s.processor)
          rw [← h4]
          exact prepare_ok h
      | error f =>
        refine ⟨.error f, e, ?_, hst, fun v h => by cases h⟩
        simp only [check, hs, hx, hp, ↓reduceIte]
    · have hx : Processor.present s.processor = (false, s.processor.present.2) :=
        Prod.ext (Bool.eq_false_iff.2 hv) rfl
      refine ⟨.error (.unsupported "VMX"), s.processor.present.2, ?_, ?_, fun v h => by cases h⟩
      · simp only [check, hs, hx, ↓reduceIte, Bool.false_eq_true]
      · simp [checked, Locks, hv]
  · refine ⟨_, s.processor, if_neg hs, ?_, fun v h => by cases h⟩
    simp [checked, Locks, hs]

theorem enable_cases (c : Disabled) (s : Machine Emulator) :
    (∃ t, c.enable s = (.ok ⟨c.toIdentity⟩, t) ∧
      t.standing = (c.checked s.processor).apply (.cr4 (s.processor.cr4 ||| vmxe)) ∧
      t.host.memory = s.host.memory) ∨
    (∃ f t, c.enable s = (.error ⟨c, f⟩, t) ∧ t.standing = c.checked s.processor ∧
      t.host.memory = s.host.memory) := by
  obtain ⟨r, e, hc, hst, hv⟩ := c.check_eq s
  cases r with
  | ok v =>
    rw [← hv v rfl, ← hst]
    exact .inl ⟨(Machine.writeCr4 { s with processor := e } v).note c.id .enabled,
      by simp only [enable, hc], rfl, rfl⟩
  | error f =>
    exact .inr ⟨f, Machine.note { s with processor := e } c.id (.cannotEnable f),
      by simp only [enable, hc], hst, rfl⟩

end Disabled

namespace Enabled

/-- VMXON traps without CR4.VMXE; otherwise it either puts the core into root operation or is
rejected. -/
theorem enterRoot_cases (c : Enabled) (region : Region .vmxon) (s : Machine Emulator) :
    (s.processor.cr4 &&& vmxe = 0 ∧ ∃ t, c.enterRoot region s = (.error .vmxonWithoutVmxe, t) ∧
      t.standing = s.standing.apply (.cr4 (s.processor.cr4 &&& ~~~vmxe))) ∨
    (s.processor.cr4 &&& vmxe ≠ 0 ∧
      ((∃ t, c.enterRoot region s = (.ok (.ok ⟨c.toIdentity, region, none⟩), t) ∧
        t.standing = s.standing.apply (.vmxon region.addr) ∧ t.host.memory = s.host.memory) ∨
      ∃ f t, c.enterRoot region s = (.ok (.error ⟨(c, region), f⟩), t) ∧
        t.standing = s.standing ∧ t.host.memory = s.host.memory)) := by
  obtain ⟨hx, he⟩ | ⟨hx, r, he, hs⟩ := s.processor.vmxon_cases region.addr s.host.memory
  · have hv : Processor.vmxon region.addr s.host.memory s.processor = .error .vmxonWithoutVmxe := he
    exact .inl ⟨hx, c.drop (s.release region.frame), by simp only [enterRoot, hv], rfl⟩
  · have hv : Processor.vmxon region.addr s.host.memory s.processor = .ok r := he
    obtain ⟨a, p, rfl, hp⟩ | ⟨f, p, rfl, hp⟩ := hs
    · exact .inr ⟨hx, .inl ⟨Machine.note { s with processor := p } c.id .enteredRoot,
        by simp only [enterRoot, hv], hp, rfl⟩⟩
    · obtain ⟨why, q, hd, hq, -⟩ := Machine.diagnose_eq { s with processor := p } f
      exact .inr ⟨hx, .inr ⟨why,
        Machine.note { s with processor := q } c.id (.vmxonFailed region.addr why),
        by simp only [enterRoot, hv, hd], hq.trans hp, rfl⟩⟩

end Enabled

namespace Root

theorem exitRoot_cases (c : Root) (s : Machine Emulator) :
    (∃ t, c.exitRoot s = (.ok (⟨c.toIdentity⟩, c.vmxon), t) ∧ c.current = none ∧
      t.standing = s.standing.apply .vmxoff ∧ t.host.memory = s.host.memory) ∨
    (∃ f t, c.exitRoot s = (.error ⟨c, f⟩, t) ∧ t.standing = s.standing ∧
      t.host.memory = s.host.memory) := by
  cases hc : c.current with
  | some cur =>
    exact .inr ⟨.regionBusy, s.note c.id .vmxoffWithCurrent, by simp [exitRoot, hc], rfl, rfl⟩
  | none =>
    obtain ⟨a, p, ha, hs⟩ | ⟨f, p, ha, hs⟩ :=
      Machine.attempt_settles (i := Processor.vmxoff) s.processor.settles_vmxoff
    · exact .inl ⟨Machine.note { s with processor := p } c.id .leftRoot,
        by simp [exitRoot, hc, ha], rfl, hs, rfl⟩
    · exact .inr ⟨f, Machine.note { s with processor := p } c.id (.vmxoffFailed f),
        by simp [exitRoot, hc, ha], hs, rfl⟩

/-- No more than the current structure is cleared before VMXOFF. -/
theorem dropCurrent_applies (c : Root) (s : Machine Emulator) :
    ∃ ops : List Op, (∀ o ∈ ops, ∃ a, o = .vmclear a) ∧
      (c.dropCurrent s).standing = s.standing.applyAll ops := by
  cases hc : c.current with
  | none =>
    refine ⟨[], by simp, ?_⟩
    rw [dropCurrent, hc]
    rfl
  | some cur =>
    obtain ⟨a, p, he, hs⟩ | ⟨f, p, he, hs⟩ := Machine.exec_settles
      (i := Processor.vmclear cur.region.addr) (s.processor.settles_vmclear cur.region.addr)
    · refine ⟨[.vmclear cur.region.addr], by simp, ?_⟩
      simp only [dropCurrent, hc, he]
      exact hs
    · refine ⟨[], by simp, ?_⟩
      simp only [dropCurrent, hc, he]
      exact hs

/-- VMXE is cleared exactly if VMXOFF succeeds. -/
theorem drop_cases (c : Root) (s : Machine Emulator) :
    ∃ ops : List Op, (∀ o ∈ ops, ∃ a, o = .vmclear a) ∧
      ((c.drop s).standing = s.standing.applyAll ops ∨
        (c.drop s).standing =
          s.standing.applyAll (ops ++ [.vmxoff, .cr4 (s.standing.cr4 &&& ~~~vmxe)])) := by
  obtain ⟨ops, hl, ho⟩ := c.dropCurrent_applies (s.note c.id .droppedInRoot)
  have h4 : (c.dropCurrent (s.note c.id .droppedInRoot)).standing.cr4 = s.standing.cr4 := by
    rw [ho, Standing.cr4_applyAll_vmclear hl]
    rfl
  obtain ⟨a, p, he, hs⟩ | ⟨f, p, he, hs⟩ := Machine.exec_settles (i := Processor.vmxoff)
    (c.dropCurrent (s.note c.id .droppedInRoot)).processor.settles_vmxoff
  · have hp : p.standing.cr4 = s.standing.cr4 := by
      rw [hs]
      exact h4
    refine ⟨ops, hl, .inr ?_⟩
    simp only [drop, he, Standing.applyAll_append]
    rw [Machine.standing_release, Machine.standing_clearVmxe, Machine.standing_mk, hp, hs, ho]
    rfl
  · refine ⟨ops, hl, .inl ?_⟩
    simp only [drop, he]
    exact hs.trans ho

end Root

theorem drop_applies (c : Core) (s : Machine Emulator) :
    ∃ ops : List Op, (∀ o ∈ ops, o.Leaving) ∧ (c.drop s).standing = s.standing.applyAll ops := by
  cases c with
  | disabled c => exact ⟨[], by simp, rfl⟩
  | enabled c =>
    refine ⟨[.cr4 (s.standing.cr4 &&& ~~~vmxe)], fun o hm => ?_, rfl⟩
    rw [List.mem_singleton.1 hm]
    trivial
  | root c =>
    obtain ⟨ops, hl, hs⟩ := c.drop_cases s
    have hcl : ∀ o ∈ ops, o.Leaving := fun o hm => by
      obtain ⟨a, rfl⟩ := hl o hm
      trivial
    obtain hs | hs := hs
    · exact ⟨ops, hcl, hs⟩
    · refine ⟨_, fun o hm => ?_, hs⟩
      obtain hm | hm := List.mem_append.1 hm
      · exact hcl o hm
      · simp only [List.mem_cons, List.not_mem_nil, or_false] at hm
        obtain rfl | rfl := hm <;> trivial

/-- A rejected transition hands back what it was given, stamp and all, and changes nothing of the
processor, except that enabling may have locked the feature-control register by then. -/
theorem rejected_keeps_standing_iff (s t : Machine Emulator) :
    (∀ (c : Disabled) (r : Rejected Disabled), c.enable s = (.error r, t) →
      r.given = c ∧ t.host.memory = s.host.memory ∧
      (t.standing = s.standing ↔ ¬ c.Locks s.processor) ∧
      (c.Locks s.processor → t.standing = s.standing.apply s.processor.lockOp)) ∧
    (∀ (c : Enabled) (region : Region .vmxon) (r : Rejected (Enabled × Region .vmxon)),
      c.enterRoot region s = (.ok (.error r), t) →
      r.given = (c, region) ∧ t.host.memory = s.host.memory ∧ t.standing = s.standing) ∧
    (∀ (c : Root) (r : Rejected Root), c.exitRoot s = (.error r, t) →
      r.given = c ∧ t.host.memory = s.host.memory ∧ t.standing = s.standing) := by
  refine ⟨fun c r h => ?_, fun c region r h => ?_, fun c r h => ?_⟩
  · obtain ⟨t', he, -⟩ | ⟨f, t', he, hs, hm⟩ := c.enable_cases s
    · rw [he] at h
      cases h
    · rw [he] at h
      cases h
      by_cases hl : c.Locks s.processor
      · rw [Disabled.checked, if_pos hl] at hs
        have hne : t.standing ≠ s.standing := hs ▸ s.standing.apply_ne _
        exact ⟨rfl, hm, ⟨fun he => absurd he hne, fun hn => absurd hl hn⟩, fun _ => hs⟩
      · rw [Disabled.checked, if_neg hl] at hs
        exact ⟨rfl, hm, ⟨fun _ => hl, fun _ => hs⟩, fun h => absurd h hl⟩
  · obtain ⟨-, t', he, -⟩ | ⟨-, ⟨t', he, -⟩ | ⟨f, t', he, hs, hm⟩⟩ := c.enterRoot_cases region s
    · rw [he] at h
      cases h
    · rw [he] at h
      cases h
    · rw [he] at h
      cases h
      exact ⟨rfl, hm, hs⟩
  · obtain ⟨t', he, -⟩ | ⟨f, t', he, hs, hm⟩ := c.exitRoot_cases s
    · rw [he] at h
      cases h
    · rw [he] at h
      cases h
      exact ⟨rfl, hm, hs⟩

/-- The capabilities that an emulated processor announces. -/
def announced : Capabilities := .ofAnnouncement (Announcement.read Emulator.new).1

/-- Those of a processor whose regions do not fit into a frame. -/
def announcedWide : Capabilities := { announced with basic.regionSize := 5120 }

/-- A register that was unlocked does not stay so when regions turn out to be too large. -/
theorem rejected_enable_locks :
    (∃ t, (Core.new 0 announcedWide).enable ⟨Emulator.new.setMsr .featureControl 0, {}⟩ =
        (.error ⟨Core.new 0 announcedWide, .unsupported "VMX region size larger than 4K"⟩, t) ∧
      t.standing.msrs.get .featureControl = 5) ∧
    (Emulator.new.setMsr .featureControl 0).standing.msrs.get .featureControl = 0 :=
  ⟨⟨_, rfl, rfl⟩, rfl⟩

/-- With a locked register nothing changes when regions turn out to be too large. A region without a
stamp, and a core that is not in root operation, are rejected without a trace as well. -/
theorem rejections_of_fresh_processors :
    (∃ t, (Core.new 0 announcedWide).enable ⟨Emulator.new, {}⟩ =
        (.error ⟨Core.new 0 announcedWide, .unsupported "VMX region size larger than 4K"⟩, t) ∧
      t.standing = Emulator.new.standing) ∧
    (∃ t, Enabled.enterRoot ⟨0, announced⟩ ⟨⟨0x100000⟩, 0x12⟩
          ⟨{ Emulator.new with cr4 := 0x2620 }, {}⟩ =
        (.ok (.error ⟨(⟨0, announced⟩, ⟨⟨0x100000⟩, 0x12⟩), .invalid⟩), t) ∧
      t.standing = { Emulator.new with cr4 := 0x2620 }.standing) ∧
    (∃ t, Root.exitRoot ⟨⟨0, announced⟩, ⟨⟨0x100000⟩, 0x12⟩, none⟩ ⟨Emulator.new, {}⟩ =
        (.error ⟨⟨⟨0, announced⟩, ⟨⟨0x100000⟩, 0x12⟩, none⟩, .invalid⟩, t) ∧
      t.standing = Emulator.new.standing) := by
  obtain ⟨-, -, hk, -⟩ :=
    (rejected_keeps_standing_iff ⟨Emulator.new, {}⟩ _).1 (Core.new 0 announcedWide) _ rfl
  refine ⟨⟨_, rfl, hk.2 (by decide)⟩, ⟨_, rfl, ?_⟩, ⟨_, rfl, ?_⟩⟩
  · exact ((rejected_keeps_standing_iff ⟨{ Emulator.new with cr4 := 0x2620 }, {}⟩ _).2.1
      ⟨0, announced⟩ ⟨⟨0x100000⟩, 0x12⟩ _ rfl).2.2
  · exact ((rejected_keeps_standing_iff ⟨Emulator.new, {}⟩ _).2.2
      ⟨⟨0, announced⟩, ⟨⟨0x100000⟩, 0x12⟩, none⟩ _ rfl).2.2

end Core

end VmxControl
