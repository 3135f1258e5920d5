import VmxControl.Proofs.Imprint

/-!
# The verdict of enabling

Whether a core can be enabled depends on its capabilities and on how the registers are set up. Enabling
changes two of the registers that it checks, and one of them even where it is rejected. None of these
changes has a bearing on the verdict: VMXE is checked as it is going to be, and a register that was
locked by us permits VMXON, as the unlocked one did.
-/

namespace VmxControl

/-- The feature-control register is locked and does not permit VMXON. -/
def Settings.Barred (s : Settings) : Prop :=
  s.featureControl &&& lockBit ≠ 0 ∧ s.featureControl &&& outsideSmxBit = 0

instance (s : Settings) : Decidable s.Barred := inferInstanceAs (Decidable (_ ∧ _))

/-- Locking the register permits VMXON, and nothing else is done to it. -/
theorem Settings.Imprint.barred {s t : Settings} {ops : List Op} (h : s.Imprint t ops) :
    t.Barred ↔ s.Barred := by
  obtain ⟨-, hm⟩ | ⟨v, -, hl, hm⟩ := h.msrs
  · rw [Barred, Barred, featureControl, featureControl, hm]
  · have ht : t.featureControl = v := by rw [featureControl, hm, Store.get_put_same]
    have hn : ¬ t.Barred := fun hb => hl.outsideSmx (ht ▸ hb.2)
    have hs : ¬ s.Barred := fun hb => hb.1 hl.unlocked
    exact ⟨fun hb => absurd hb hn, fun hb => absurd hb hs⟩

namespace Capabilities

/-- The CR4 value that enabling programs, or why it is rejected. -/
def verdict (caps : Capabilities) (s : Settings) : Except Failure UInt64 :=
  if caps.supported = true ∧ s.vmx = true then
    if s.Barred then .error (.unsupported "VMX disabled by BIOS") else caps.prepare s.cr0 s.cr4
  else .error (.unsupported "VMX")

theorem verdict_ok {caps : Capabilities} {s : Settings} {v : UInt64}
    (h : caps.verdict s = .ok v) : v = s.cr4 ||| vmxe := by
  unfold verdict at h
  split at h
  · split at h
    · cases h
    · exact Core.Disabled.prepare_ok h
  · cases h

/-- CR4 is looked at with VMXE set, whether or not it is. -/
theorem prepare_congr (caps : Capabilities) (cr0 : UInt64) {v w : UInt64}
    (h : v &&& ~~~vmxe = w &&& ~~~vmxe) : caps.prepare cr0 v = caps.prepare cr0 w := by
  have hv : v ||| vmxe = w ||| vmxe := by rw [← and_not_or v, h, and_not_or]
  simp only [prepare, hv]

theorem verdict_of_imprint (caps : Capabilities) {s t : Settings} {ops : List Op}
    (h : s.Imprint t ops) : caps.verdict t = caps.verdict s := by
  have hp : caps.prepare t.cr0 t.cr4 = caps.prepare s.cr0 s.cr4 := by
    rw [h.cr0]
    exact caps.prepare_congr s.cr0 h.cr4
  simp only [verdict, h.vmx, h.barred, hp]

end Capabilities

theorem permitVmxon_fst (s : Machine Emulator) :
    (permitVmxon s).1 =
      if s.processor.settings.Barred then .error (.unsupported "VMX disabled by BIOS")
      else .ok () := by
  have hr : Processor.readMsr .featureControl s.processor =
      (s.processor.settings.featureControl, (s.processor.readMsr .featureControl).2) := rfl
  simp only [permitVmxon, hr, Settings.Barred]
  by_cases hl : s.processor.settings.featureControl &&& lockBit = 0
  · simp [hl]
  · by_cases ho : s.processor.settings.featureControl &&& outsideSmxBit = 0 <;> simp [hl, ho]

namespace Core.Disabled

theorem check_fst (c : Disabled) (s : Machine Emulator) :
    (c.check s).1 = c.caps.verdict s.processor.settings := by
  by_cases hs : c.caps.supported = true
  · by_cases hv : s.processor.vmx = true
    · have hx : Processor.present s.processor = (true, s.processor.present.2) := Prod.ext hv rfl
      obtain ⟨r, e, hp, he⟩ := permitVmxon_eq { s with processor := s.processor.present.2 }
      have hr : r = if s.processor.settings.Barred then .error (.unsupported "VMX disabled by BIOS")
          else .ok () := (congrArg Prod.fst hp).symm.trans (permitVmxon_fst _)
      have h04 : e.cr0 = s.processor.cr0 ∧ e.cr4 = s.processor.cr4 := by
        split at he <;> exact ⟨congrArg Standing.cr0 he, congrArg Standing.cr4 he⟩
      have hvs : s.processor.settings.vmx = true := hv
      rw [Capabilities.verdict, if_pos ⟨hs, hvs⟩]
      by_cases hb : s.processor.settings.Barred
      · rw [if_pos hb] at hr ⊢
        simp only [check, hs, hx, hp, hr, ↓reduceIte]
      · rw [if_neg hb] at hr ⊢
        simp only [check, hs, hx, hp, hr, ↓reduceIte]
        exact congrArg₂ c.caps.prepare h04.1 h04.2
    · have hx : Processor.present s.processor = (false, s.processor.present.2) :=
        Prod.ext (Bool.eq_false_iff.2 hv) rfl
      rw [Capabilities.verdict, if_neg fun h => hv h.2]
      simp only [check, hs, hx, ↓reduceIte, Bool.false_eq_true]
  · rw [Capabilities.verdict, if_neg fun h => hs h.1]
    exact congrArg Prod.fst (if_neg hs)

theorem enable_fst (c : Disabled) (s : Machine Emulator) :
    (c.enable s).1 =
      match c.caps.verdict s.processor.settings with
      | .ok _ => .ok ⟨c.toIdentity⟩
      | .error f => .error ⟨c, f⟩ := by
  have hc := c.check_fst s
  unfold enable
  split <;> next he =>
    rw [← hc, he]

end Core.Disabled

namespace Station

variable {s : Station}

/-- Enabling programs CR4 with the value that its verdict names, and with no other. -/
theorem enable_programs_iff {c : Core.Disabled} (hc : s.core = some (.disabled c)) (v : UInt64) :
    .cr4 v ∈ s.executes (.call .enable) ↔ c.caps.verdict s.settings = .ok v := by
  have hv : (c.enable s.machine).1 = match c.caps.verdict s.settings with
      | .ok _ => .ok ⟨c.toIdentity⟩
      | .error f => .error ⟨c, f⟩ := c.enable_fst s.machine
  have hlock : .cr4 v ∉ if c.Locks s.machine.processor then [s.machine.processor.lockOp] else [] := by
    split <;> simp [Emulator.lockOp]
  rw [executes_enable hc, List.mem_append, or_iff_right hlock, hv]
  cases hr : c.caps.verdict s.settings with
  | error f => simp [Except.isOk, Except.toBool]
  | ok w =>
    obtain rfl : w = s.standing.cr4 ||| vmxe := Capabilities.verdict_ok hr
    simp [Except.isOk, Except.toBool, eq_comm]

/-- The verdict of enabling is the same at the two ends of every run from a disabled core to a disabled
core: it succeeds with the same CR4 value, or is rejected with the same error. -/
theorem verdict_stable_along_runs {c d : Core.Disabled} (hc : s.core = some (.disabled c))
    (es : List Event) (hd : (s.run es).core = some (.disabled d)) :
    (d.enable (s.run es).machine).1 = (c.enable s.machine).1 ∧
    ∀ v, .cr4 v ∈ (s.run es).executes (.call .enable) ↔ .cr4 v ∈ s.executes (.call .enable) := by
  obtain ⟨hi, -⟩ := run_keeps (fun _ => ready_step) (ready_of_disabled hc) es _ hd
  obtain rfl : d = c := congrArg Core.Disabled.mk hi
  have hv : d.caps.verdict (s.run es).settings = d.caps.verdict s.settings :=
    d.caps.verdict_of_imprint (s.imprint_run es)
  have hr : d.caps.verdict (s.run es).machine.processor.settings =
      d.caps.verdict s.machine.processor.settings := hv
  refine ⟨?_, fun v => ?_⟩
  · rw [Core.Disabled.enable_fst, Core.Disabled.enable_fst, hr]
  · rw [enable_programs_iff hd, enable_programs_iff hc, hv]

/-- Through root operation and back, with a guest that was entered and a VMCLEAR that failed. -/
def cycle : List Event :=
  toRoot ++ [loadStructure, .call (.inRoot (.enter .launch)), .influence (.inject .vmclear 2),
    .call (.inRoot .clearCurrent), .call (.inRoot .clearCurrent), .call .exitRoot, .call .disable]

/-- A core whose regions are too large, where firmware has left the register to us as well. -/
def wide : Station := { undecided with core := some (.disabled (Core.new 0 Core.announcedWide)) }

/-- The register is locked by the first attempt to enable, whether that succeeds or is rejected. The
second attempt comes to the same. -/
theorem verdict_stable_after_locking :
    (Core.Disabled.enable ⟨⟨0, Core.announced⟩⟩ (undecided.run cycle).machine).1 =
        (Core.Disabled.enable ⟨⟨0, Core.announced⟩⟩ undecided.machine).1 ∧
      .cr4 0x2620 ∈ (undecided.run cycle).executes (.call .enable) ∧
      ((Core.new 0 Core.announcedWide).enable (wide.run [.call .enable]).machine).1 =
        .error ⟨Core.new 0 Core.announcedWide, .unsupported "VMX region size larger than 4K"⟩ := by
  obtain ⟨he, hv⟩ := verdict_stable_along_runs (s := undecided) (c := ⟨⟨0, Core.announced⟩⟩)
    (d := ⟨⟨0, Core.announced⟩⟩) rfl cycle rfl
  obtain ⟨hw, -⟩ := verdict_stable_along_runs (s := wide) (c := Core.new 0 Core.announcedWide)
    (d := Core.new 0 Core.announcedWide) rfl [.call .enable] rfl
  exact ⟨he, (hv 0x2620).2 (by decide), hw⟩

end Station

end VmxControl
