import VmxControl.Core.Record
import VmxControl.Proofs.Masking
import VmxControl.Proofs.Moves

/-!
# The mode and the processor

The mode of a core is a tag, and whether its processor is in VMX operation lies in CR4 and in the
VMXON pointer. The two agree after every run that starts outside of VMX operation. So VMXON is
executed only where it is an instruction, and a core in root operation has the region it runs on.
-/

namespace VmxControl

theorem or_vmxe (v : UInt64) : (v ||| vmxe) &&& vmxe ≠ 0 := by
  rw [or_and_self]
  decide

theorem and_not_vmxe (v : UInt64) : v &&& ~~~vmxe &&& vmxe = 0 := by
  rw [UInt64.and_assoc, UInt64.not_and_self, UInt64.and_zero]

namespace Core

/-- What the processor is like when the core is in this mode. -/
def Fits (st : Standing) : Core → Prop
  | .disabled _ => st.vmxonPtr = none
  | .enabled _ => st.vmxonPtr = none ∧ st.cr4 &&& vmxe ≠ 0
  | .root c => st.vmxonPtr = some c.vmxon.addr ∧ st.cr4 &&& vmxe ≠ 0

/-- No call in root operation touches CR4 or what VMX operation runs on. -/
theorem Root.Moves.keeps_vmx {c : Root} {e : Emulator} {f : Effect Root} (h : c.Moves e f)
    (st : Standing) :
    f.core.vmxon = c.vmxon ∧ (f.after st).vmxonPtr = st.vmxonPtr ∧ (f.after st).cr4 = st.cr4 := by
  cases h with
  | quiet ho =>
    have ha := st.alike_passive ho
    exact ⟨rfl, ha.vmxonPtr, ha.cr4⟩
  | refuse | load | undo | strand | clear | clearCurrent | fail | enter | unseen =>
    exact ⟨rfl, rfl, rfl⟩

end Core

namespace Station

variable {s : Station}

def ModeAgrees (s : Station) : Prop := ∀ c, s.core = some c → c.Fits s.standing

theorem Moves.fits {e : Event} {f : Effect (Option Core)} (hm : s.Moves e f) (h : s.ModeAgrees)
    (c : Core) (hc : f.core = some c) : c.Fits (f.after s.standing) := by
  cases hm with
  | stay => exact h c hc
  | check hd ho =>
    cases hc.symm.trans hd
    exact (s.standing.alike_passive ho).vmxonPtr.trans (h _ hd)
  | enable hd ho =>
    have ha := s.standing.alike_passive_cr4 ho (s.standing.cr4 ||| vmxe)
    cases hc
    exact ⟨ha.vmxonPtr.trans (h _ hd), ha.cr4 ▸ or_vmxe _⟩
  | disable he =>
    cases hc
    exact (h _ he).1
  | enterRoot he =>
    cases hc
    exact ⟨rfl, (h _ he).2⟩
  | exitRoot hr hn =>
    cases hc
    exact ⟨rfl, (h _ hr).2⟩
  | inRoot hr hm =>
    obtain ⟨hx, hv, h4⟩ := hm.keeps_vmx s.standing
    cases hc
    exact ⟨hv.trans (hx ▸ (h _ hr).1), h4 ▸ (h _ hr).2⟩
  | drop | trap => cases hc

theorem modeAgrees_step (e : Event) (h : s.ModeAgrees) : (s.step e).ModeAgrees :=
  step_of_moves fun _ hm => hm.fits h

/-- A disabled core that is not new has found CR4.VMXE clear ever since. -/
def Cleared (s : Station) : Prop :=
  ∀ d, s.core = some (.disabled d) → s.standing.cr4 &&& vmxe = 0

theorem Moves.cleared {e : Event} {f : Effect (Option Core)} (hm : s.Moves e f) (h : s.Cleared)
    (d : Core.Disabled) (hd : f.core = some (.disabled d)) :
    (f.after s.standing).cr4 &&& vmxe = 0 := by
  cases hm with
  | stay => exact h d hd
  | check hc ho =>
    exact (s.standing.alike_passive ho).cr4 ▸ h d hd
  | disable hc => exact and_not_vmxe _
  | enable | enterRoot | exitRoot | inRoot | drop | trap => cases hd

theorem cleared_step (e : Event) (h : s.Cleared) : (s.step e).Cleared := by
  obtain ⟨f, hm, -, hc, hs⟩ := s.step_moves e
  intro d hd
  rw [hs]
  exact hm.cleared h d (hc ▸ hd)

/-- After every run that starts outside of VMX operation the mode agrees with the processor, and a
core that was enabled at some time and is disabled now has CR4.VMXE clear. So entering root
operation never traps. The record of the core has the region that leaving root operation looks for,
and the structure that clearing hands back. -/
theorem mode_agrees_along_runs {c : Core.Disabled} (hc : s.core = some (.disabled c))
    (hv : s.standing.vmxonPtr = none) (es : List Event) :
    (s.run es).ModeAgrees ∧
    (∀ xs, xs <+: es → ∀ c d, (s.run xs).core = some (.enabled c) →
      (s.run es).core = some (.disabled d) → (s.run es).standing.cr4 &&& vmxe = 0) ∧
    (∀ c region, (s.run es).core = some (.enabled c) →
      ∃ r, (c.enterRoot region (s.run es).machine).1 = .ok r) ∧
    ∀ c, (s.run es).core = some (.root c) →
      (∃ r, ((Core.root c).record.exitRoot (s.run es).machine).1 = .ok r) ∧
      ∀ cur, c.current = some cur →
        ((s.run es).machine.attempt (Processor.vmclear cur.region.addr)).1 = .ok () →
        ((Core.root c).record.clearCurrent (s.run es).machine).1 = .ok cur.region := by
  have h0 : s.ModeAgrees := by
    intro d hd
    cases hc.symm.trans hd
    exact hv
  have hm : (s.run es).ModeAgrees := run_keeps (fun _ => modeAgrees_step) h0 es
  refine ⟨hm, fun xs hx c d he hd => ?_, fun c region he => ?_,
    fun c hr => ⟨?_, fun cur hk ha => ?_⟩⟩
  · obtain ⟨ys, rfl⟩ := hx
    rw [run_append] at hd ⊢
    have hcl : (s.run xs).Cleared := fun d hd => by cases he.symm.trans hd
    exact run_keeps (fun _ => cleared_step) hcl ys d hd
  · have hx : (s.run es).machine.processor.cr4 &&& vmxe ≠ 0 := (hm _ he).2
    obtain ⟨hn, -⟩ | ⟨-, ⟨t, he, -⟩ | ⟨f, t, he, -⟩⟩ := c.enterRoot_cases region (s.run es).machine
    · exact absurd hn hx
    · exact ⟨_, congrArg Prod.fst he⟩
    · exact ⟨_, congrArg Prod.fst he⟩
  · exact ⟨_, congrArg Prod.fst (Core.Record.exitRoot_record c _)⟩
  · exact Core.Record.clearCurrent_of_vmclear hk ha

/-- A new core agrees with its processor in root operation, and again after the way back. -/
theorem mode_agrees_on_round_trip :
    (fresh.run toRoot).standing.vmxonPtr = some 0x100000 ∧
      (fresh.run (toRoot ++ [.call .exitRoot, .call .disable])).standing.vmxonPtr = none ∧
      (fresh.run (toRoot ++ [.call .exitRoot, .call .disable])).standing.cr4 &&& vmxe = 0 := by
  obtain ⟨hroot, -⟩ := mode_agrees_along_runs (s := fresh) rfl rfl toRoot
  obtain ⟨hend, hback, -⟩ := mode_agrees_along_runs (s := fresh) rfl rfl
    (toRoot ++ [.call .exitRoot, .call .disable])
  refine ⟨(hroot (.root ⟨⟨0, Core.announced⟩, stamped .vmxon 0x100000, none⟩) rfl).1,
    hend (.disabled ⟨0, Core.announced⟩) rfl, ?_⟩
  exact hback [.call .enable] ⟨_, rfl⟩ ⟨0, Core.announced⟩ ⟨0, Core.announced⟩ rfl rfl

end Station

end VmxControl
