import Mathlib.Tactic.SplitIfs
import VmxControl.Proofs.Execution
import VmxControl.Proofs.Mode

/-!
# What VMX operation calls for

A core is enabled only where its processor meets its capabilities. The checks come one by one while
registers are being written, and each of them still holds when the last register is. From then on
until the core is disabled no command touches these registers, so all of it stays true.
-/

namespace VmxControl

/-- The registers are as the capabilities ask, and the regions are of the kind that is handed out. -/
structure Capabilities.Met (caps : Capabilities) (s : Settings) : Prop where
  present : s.vmx = true
  cr0 : caps.cr0.admits s.cr0 = true
  cr4 : caps.cr4.admits s.cr4 = true
  vmxe : s.cr4 &&& vmxe ≠ 0
  locked : s.msrs.get .featureControl &&& lockBit ≠ 0
  outsideSmx : s.msrs.get .featureControl &&& outsideSmxBit ≠ 0
  regionSize : caps.basic.regionSize ≤ 4096
  memoryType : caps.basic.memoryType = BasicInfo.writeBack
  fullAddresses : caps.basic.addr32 = false

/-- The part of it that `prepare` looks at, with CR4 as it is going to be. -/
theorem Capabilities.met_of_prepare {caps : Capabilities} {s : Settings} {v : UInt64}
    (h : caps.prepare s.cr0 s.cr4 = .ok v) (hv : s.vmx = true)
    (hl : s.msrs.get .featureControl &&& lockBit ≠ 0)
    (ho : s.msrs.get .featureControl &&& outsideSmxBit ≠ 0) :
    caps.Met { s with cr4 := v } := by
  unfold prepare at h
  split_ifs at h with h0 h4 hr hm ha
  cases h
  exact
    { present := hv
      cr0 := by simpa using h0
      cr4 := by simpa using h4
      vmxe := or_vmxe _
      locked := hl
      outsideSmx := ho
      regionSize := UInt16.not_lt.1 hr
      memoryType := Decidable.not_not.1 hm
      fullAddresses := by simpa using ha }

/-- VMXON is permitted by the register as it was, or as it is written now. -/
theorem permitVmxon_ok {s t : Machine Emulator} (h : permitVmxon s = (.ok (), t)) :
    t.processor.vmx = s.processor.vmx ∧
      t.processor.msrs.get .featureControl &&& lockBit ≠ 0 ∧
      t.processor.msrs.get .featureControl &&& outsideSmxBit ≠ 0 := by
  have hr : Processor.readMsr .featureControl s.processor =
      (s.processor.msrs.get .featureControl, (s.processor.readMsr .featureControl).2) := rfl
  simp only [permitVmxon, hr] at h
  split at h
  · cases h
    refine ⟨rfl, ?_, ?_⟩
    · show ((s.processor.msrs.put .featureControl _).get .featureControl) &&& lockBit ≠ 0
      rw [Store.get_put_same, UInt64.or_assoc, UInt64.or_comm lockBit, ← UInt64.or_assoc,
        or_and_self]
      decide
    · show ((s.processor.msrs.put .featureControl _).get .featureControl) &&& outsideSmxBit ≠ 0
      rw [Store.get_put_same, or_and_self]
      decide
  · next hl =>
    split at h
    · cases h
    · next ho =>
      cases h
      exact ⟨rfl, hl, ho⟩

namespace Core

theorem Disabled.check_ok {c : Disabled} {s t : Machine Emulator} {v : UInt64}
    (h : c.check s = (.ok v, t)) : c.caps.Met { t.processor.settings with cr4 := v } := by
  have hp : Processor.present s.processor = (s.processor.vmx, s.processor.present.2) := rfl
  simp only [check, hp] at h
  split at h
  · split at h
    · next hv =>
      split at h
      · next u hu =>
        obtain ⟨hvmx, hl, ho⟩ := permitVmxon_ok hu
        simp only [Prod.mk.injEq] at h
        obtain ⟨h, rfl⟩ := h
        exact Capabilities.met_of_prepare h (hvmx.trans hv) hl ho
      · cases h
    · cases h
  · cases h

/-- Setting CR4 is the last thing that enabling does. -/
theorem Disabled.enable_ok {c : Disabled} {d : Enabled} {s t : Machine Emulator}
    (h : c.enable s = (.ok d, t)) : c.caps.Met t.processor.settings := by
  unfold enable at h
  split at h
  · next hc =>
    cases h
    exact check_ok hc
  · cases h

theorem Root.Moves.toIdentity {c : Root} {e : Emulator} {f : Effect Root} (h : c.Moves e f) :
    f.core.toIdentity = c.toIdentity := by
  cases h <;> rfl

end Core

/-- Commands that set no register leave all of this alone. -/
theorem Machine.Executes.settings {can : Command → Prop} {s t : Machine Emulator}
    (h : s.Executes can t) (hc : ∀ c, can c → ¬ c.Sets) :
    t.processor.settings = s.processor.settings :=
  h.keeps (I := fun e => e.settings = s.processor.settings)
    (fun c e hcan he => (e.settings_on (hc c hcan)).trans he) rfl

namespace Station

variable {s : Station}

/-- The core is the one that has this identity, and while it is not disabled its processor meets
its capabilities. -/
def Ready (i : Identity) (s : Station) : Prop :=
  ∀ c, s.core = some c →
    c.identity = i ∧ (c.mode ≠ .disabled → i.caps.Met s.machine.processor.settings)

theorem ready_of_disabled {c : Core.Disabled} (hc : s.core = some (.disabled c)) :
    s.Ready c.toIdentity := by
  intro x hx
  cases hc.symm.trans hx
  exact ⟨rfl, fun hm => absurd rfl hm⟩

theorem Ready.of_settings {i : Identity} {t : Station} {c d : Core} (h : s.Ready i)
    (hs : s.core = some c) (ht : t.core = some d) (hi : d.identity = c.identity)
    (hm : c.mode ≠ .disabled)
    (he : t.machine.processor.settings = s.machine.processor.settings) : t.Ready i := by
  intro x hx
  cases ht.symm.trans hx
  exact ⟨hi.trans (h c hs).1, fun _ => he ▸ (h c hs).2 hm⟩

theorem ready_enable {i : Identity} {c : Core.Disabled} (h : s.Ready i)
    (hc : s.core = some (.disabled c)) : (s.call .enable).2.Ready i := by
  have hi : c.toIdentity = i := (h _ hc).1
  rcases he : c.enable s.machine with ⟨r | d, t⟩
  · simp only [call, hc, he]
    rintro x ⟨rfl⟩
    obtain ⟨t', he', -⟩ | ⟨f, t', he', -⟩ := c.enable_cases s.machine
    · cases he.symm.trans he'
    · cases he.symm.trans he'
      exact ⟨hi, fun hm => absurd rfl hm⟩
  · have hm := Core.Disabled.enable_ok he
    simp only [call, hc, he]
    rintro x ⟨rfl⟩
    obtain ⟨t', he', -⟩ | ⟨f, t', he', -⟩ := c.enable_cases s.machine
    · cases he.symm.trans he'
      exact ⟨hi, fun _ => hi ▸ hm⟩
    · cases he.symm.trans he'

theorem ready_enterRoot {i : Identity} {c : Core.Enabled} (h : s.Ready i)
    (hc : s.core = some (.enabled c)) (region : Region .vmxon) :
    (s.call (.enterRoot region)).2.Ready i := by
  obtain ⟨-, t, he, -⟩ | ⟨-, ⟨t, he, -⟩ | ⟨f, t, he, -⟩⟩ := c.enterRoot_cases region s.machine
  · simp only [call, hc, he]
    rintro x ⟨⟩
  all_goals
    have hk := (Core.Enabled.executes_of_enterRoot he).settings fun _ hx => hx.2
    simp only [call, hc, he]
    exact h.of_settings hc rfl rfl (by simp [Core.mode]) hk

theorem ready_exitRoot {i : Identity} {c : Core.Root} (h : s.Ready i)
    (hc : s.core = some (.root c)) : (s.call .exitRoot).2.Ready i := by
  have hk := (c.executes_exitRoot s.machine).settings fun x hx => by
    cases x <;> first | exact id | exact hx.elim
  obtain ⟨t, he, -⟩ | ⟨f, t, he, -⟩ := c.exitRoot_cases s.machine
  all_goals
    rw [he] at hk
    simp only [call, hc, he]
    exact h.of_settings hc rfl rfl (by simp [Core.mode]) hk

theorem ready_inRoot {i : Identity} {c : Core.Root} (h : s.Ready i)
    (hc : s.core = some (.root c)) (call : RootCall) : (s.call (.inRoot call)).2.Ready i := by
  have hk := ((s.running c).executes_call call).settings fun _ hx => hx.not_sets
  obtain ⟨f, hm, -, hcore, -⟩ := (s.running c).call_moves call
  simp only [Station.call, hc]
  refine h.of_settings hc rfl ?_ (by simp [Core.mode]) hk
  exact (congrArg Core.Root.toIdentity hcore).trans hm.toIdentity

theorem ready_call {i : Identity} (c : Call) (h : s.Ready i) : (s.call c).2.Ready i := by
  cases s.finds c with
  | nothing he => exact he ▸ h
  | enable hc => exact ready_enable h hc
  | disable hc =>
    simp only [call, hc]
    rintro x ⟨rfl⟩
    exact ⟨(h _ hc).1, fun hm => absurd rfl hm⟩
  | enterRoot hc => exact ready_enterRoot h hc _
  | exitRoot hc => exact ready_exitRoot h hc
  | inRoot hc => exact ready_inRoot h hc _
  | drop hc =>
    simp only [call, hc]
    rintro x ⟨⟩

theorem ready_step {i : Identity} (e : Event) (h : s.Ready i) : (s.step e).Ready i := by
  cases e with
  | call c => exact ready_call c h
  | influence x => cases x <;> exact h

/-- Whatever happens to a core that starts out disabled, and whatever its capabilities and its
processor were: while it is enabled or in root operation the capabilities are still the same, and
the processor meets them. -/
theorem capabilities_met_along_runs {c : Core.Disabled} (hc : s.core = some (.disabled c))
    (es : List Event) {d : Core} (hd : (s.run es).core = some d) (hm : d.mode ≠ .disabled) :
    d.identity = c.toIdentity ∧ c.caps.Met (s.run es).machine.processor.settings := by
  obtain ⟨hi, hmet⟩ := run_keeps (fun _ => ready_step) (ready_of_disabled hc) es d hd
  exact ⟨hi, hmet hm⟩

/-- Firmware that has not decided whether VMXON is permitted. -/
def undecided : Station :=
  { fresh with machine.processor := fresh.machine.processor.setMsr .featureControl 0 }

/-- In root operation the capabilities that a new processor announces are met, whether firmware has
permitted VMXON or left that to us. -/
theorem announced_met_in_root :
    Core.announced.Met (fresh.run toRoot).machine.processor.settings ∧
      Core.announced.Met (undecided.run toRoot).machine.processor.settings :=
  ⟨(capabilities_met_along_runs (s := fresh) rfl toRoot
      (d := .root ⟨⟨0, Core.announced⟩, stamped .vmxon 0x100000, none⟩) rfl (by decide)).2,
    (capabilities_met_along_runs (s := undecided) rfl toRoot
      (d := .root ⟨⟨0, Core.announced⟩, stamped .vmxon 0x100000, none⟩) rfl (by decide)).2⟩

end Station

end VmxControl
