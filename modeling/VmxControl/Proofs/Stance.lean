import VmxControl.Proofs.Footing

/-!
# The stance of a core

Every mode calls for a footing, and in root operation the current structure has to lie apart from the
region that VMX operation runs on. Each transition takes a core and its processor from one stance to
the next, or is rejected and leaves both where they were; the calls in root operation keep it.
-/

namespace VmxControl

variable {P α : Type} [Processor P] [Grounded P]

namespace Machine

def footing (s : Machine P) : Footing := Grounded.footing s.processor

@[simp] theorem footing_note (s : Machine P) (id : UInt64) (n : CoreNote) :
    (s.note id n).footing = s.footing := rfl

@[simp] theorem footing_release (s : Machine P) (f : Frame) :
    (s.release f).footing = s.footing := rfl

@[simp] theorem footing_writeCr4 (s : Machine P) (v : UInt64) :
    (s.writeCr4 v).footing = { s.footing with cr4 := v } :=
  Grounded.writeCr4 v s.processor

@[simp] theorem footing_clearVmxe (s : Machine P) :
    s.clearVmxe.footing = { s.footing with cr4 := s.footing.cr4 &&& ~~~vmxe } := by
  rw [clearVmxe, footing_writeCr4, Grounded.readCr4]
  rfl

theorem footing_diagnose (s : Machine P) (f : VmFail) : (s.diagnose f).2.footing = s.footing := by
  cases f with
  | invalid => rfl
  | valid =>
    have hv := Grounded.vmread Field.instructionError s.processor
    rcases hr : Processor.vmread Field.instructionError s.processor with ⟨e | v, q⟩
    all_goals
      rw [hr] at hv
      simp only [diagnose, exec, hr]
      exact hv

theorem footing_attempt {s : Machine P} {i : P → Except VmFail α × P}
    (h : Grounded.footing (i s.processor).2 = s.footing) : (s.attempt i).2.footing = s.footing := by
  rcases hi : i s.processor with ⟨f | a, q⟩
  · rw [hi] at h
    simp only [attempt, exec, hi]
    exact (footing_diagnose _ f).trans h
  · rw [hi] at h
    simp only [attempt, exec, hi]
    exact h

theorem attempt_turns {s : Machine P} {t : Footing} {i : P → Except VmFail Unit × P}
    (h : Turns Grounded.footing s.processor t (i s.processor)) :
    (∃ u, s.attempt i = (.ok (), u) ∧ u.footing = t) ∨
    ∃ e u, s.attempt i = (.error e, u) ∧ u.footing = s.footing := by
  obtain ⟨q, hi, hq⟩ | ⟨f, q, hi, hq⟩ := h
  · exact .inl ⟨{ s with processor := q }, by simp only [attempt, exec, hi], hq⟩
  · refine .inr ⟨(diagnose { s with processor := q } f).1, (diagnose { s with processor := q } f).2,
      by simp only [attempt, exec, hi], ?_⟩
    exact (footing_diagnose _ f).trans hq

end Machine

namespace Core

/-- The footing that the mode calls for. -/
def Stands (f : Footing) : Core → Prop
  | .disabled _ => f.region = none
  | .enabled _ => f.region = none ∧ f.cr4 &&& vmxe ≠ 0
  | .root c =>
    f.region = some c.vmxon.addr ∧ f.cr4 &&& vmxe ≠ 0 ∧
      ∀ r, c.region? = some r → r.addr ≠ c.vmxon.addr

theorem Stands.region_isSome {f : Footing} {c : Core} (h : c.Stands f) :
    f.region.isSome = true ↔ c.mode = .root := by
  cases c with
  | disabled c => simp [show f.region = none from h, mode]
  | enabled c => simp [h.1, mode]
  | root c => simp [h.1, mode]

theorem Stands.apart {f : Footing} {c : Root} {cur : Current} (h : (root c).Stands f)
    (hc : c.current = some cur) : c.vmxon.addr ≠ cur.region.addr :=
  (h.2.2 cur.region (by rw [Root.region?, hc]; rfl)).symm

theorem Stands.vmxe {f : Footing} {c : Core} (h : c.Stands f) (hm : c.mode ≠ .disabled) :
    f.cr4 &&& VmxControl.vmxe ≠ 0 := by
  cases c with
  | disabled c => exact absurd rfl hm
  | enabled c => exact h.2
  | root c => exact h.2.1

/-- What a core sees to itself, wherever it was put: before it enters root operation the processor may
already be in it for someone else. -/
def Leans (f : Footing) : Core → Prop
  | .disabled _ => True
  | .enabled _ => f.cr4 &&& VmxControl.vmxe ≠ 0
  | .root c => (root c).Stands f

theorem Stands.leans {f : Footing} {c : Core} (h : c.Stands f) : c.Leans f := by
  cases c with
  | disabled c => trivial
  | enabled c => exact h.2
  | root c => exact h

/-! ## Transitions -/

theorem footing_permitVmxon (s : Machine P) : (permitVmxon s).2.footing = s.footing := by
  have hr := Grounded.readMsr .featureControl s.processor
  rcases hx : Processor.readMsr .featureControl s.processor with ⟨control, p⟩
  rw [hx] at hr
  simp only [permitVmxon, hx]
  split
  · exact (Grounded.writeMsr _ _ _).trans hr
  · split <;> exact hr

namespace Disabled

theorem check_footing (c : Disabled) (s : Machine P) :
    (c.check s).2.footing = s.footing ∧
      ∀ v, (c.check s).1 = .ok v → v = s.footing.cr4 ||| vmxe := by
  unfold check
  split
  · have hp := Grounded.present s.processor
    rcases hx : Processor.present s.processor with ⟨present, p⟩
    rw [hx] at hp
    simp only
    split
    · have hf := footing_permitVmxon { s with processor := p }
      rcases hc : permitVmxon { s with processor := p } with ⟨e | u, t⟩
      all_goals
        rw [hc] at hf
        simp only
      · exact ⟨hf.trans hp, nofun⟩
      · refine ⟨hf.trans hp, fun v hv => ?_⟩
        have h4 : Processor.readCr4 t.processor = s.footing.cr4 :=
          (Grounded.readCr4 _).trans (congrArg Footing.cr4 (hf.trans hp))
        rw [← h4]
        exact prepare_ok hv
    · exact ⟨hp, nofun⟩
  · exact ⟨rfl, nofun⟩

theorem enable_footing (c : Disabled) (s : Machine P) :
    (∃ t, c.enable s = (.ok ⟨c.toIdentity⟩, t) ∧
      t.footing = { s.footing with cr4 := s.footing.cr4 ||| vmxe }) ∨
    ∃ f t, c.enable s = (.error ⟨c, f⟩, t) ∧ t.footing = s.footing := by
  obtain ⟨hf, hv⟩ := c.check_footing s
  rcases hc : c.check s with ⟨e | v, t⟩
  · rw [hc] at hf
    exact .inr ⟨e, t.note c.id (.cannotEnable e), by simp only [enable, hc], hf⟩
  · rw [hc] at hf hv
    have h4 : v = s.footing.cr4 ||| vmxe := hv v rfl
    refine .inl ⟨(t.writeCr4 v).note c.id .enabled, by simp only [enable, hc], ?_⟩
    rw [Machine.footing_note, Machine.footing_writeCr4, h4, show t.footing = s.footing from hf]

end Disabled

namespace Enabled

/-- With CR4.VMXE set nothing traps. -/
theorem enterRoot_footing (c : Enabled) (region : Region .vmxon) {s : Machine P}
    (hx : s.footing.cr4 &&& vmxe ≠ 0) :
    (∃ t, c.enterRoot region s = (.ok (.ok ⟨c.toIdentity, region, none⟩), t) ∧
      t.footing = { s.footing with region := some region.addr }) ∨
    ∃ f t, c.enterRoot region s = (.ok (.error ⟨(c, region), f⟩), t) ∧ t.footing = s.footing := by
  obtain ⟨r, he, ⟨q, rfl, hq⟩ | ⟨f, q, rfl, hq⟩⟩ :=
    Grounded.vmxon region.addr s.host.memory s.processor hx
  · exact .inl ⟨Machine.note { s with processor := q } c.id .enteredRoot,
      by simp only [enterRoot, he], hq⟩
  · rcases hd : Machine.diagnose { s with processor := q } f with ⟨why, t⟩
    have ht := Machine.footing_diagnose { s with processor := q } f
    rw [hd] at ht
    exact .inr ⟨why, t.note c.id (.vmxonFailed region.addr why), by simp only [enterRoot, he, hd],
      ht.trans hq⟩

theorem disable_footing (c : Enabled) (s : Machine P) :
    (c.disable s).2.footing = { s.footing with cr4 := s.footing.cr4 &&& ~~~vmxe } :=
  s.footing_clearVmxe

end Enabled

namespace Root

theorem exitRoot_footing (c : Root) (s : Machine P) :
    (∃ t, c.exitRoot s = (.ok (⟨c.toIdentity⟩, c.vmxon), t) ∧
      t.footing = { s.footing with region := none }) ∨
    ∃ f t, c.exitRoot s = (.error ⟨c, f⟩, t) ∧ t.footing = s.footing := by
  cases hc : c.current with
  | some cur =>
    exact .inr ⟨.regionBusy, s.note c.id .vmxoffWithCurrent, by simp [exitRoot, hc], rfl⟩
  | none =>
    obtain ⟨t, ha, ht⟩ | ⟨f, t, ha, ht⟩ :=
      Machine.attempt_turns (i := Processor.vmxoff) (Grounded.vmxoff s.processor)
    · exact .inl ⟨t.note c.id .leftRoot, by simp [exitRoot, hc, ha], ht⟩
    · exact .inr ⟨f, t.note c.id (.vmxoffFailed f), by simp [exitRoot, hc, ha], ht⟩

/-! ## Calls in root operation -/

/-- The footing is where it was and so is the region, and a structure that has become current is not
the one that VMX operation runs on. -/
structure Keeps (c : Root) (s : Machine P) (d : Root) (t : Machine P) : Prop where
  footing : t.footing = s.footing
  vmxon : d.vmxon = c.vmxon
  apart : ∀ r, d.region? = some r → c.region? = some r ∨ s.footing.region ≠ some r.addr

theorem Keeps.of_footing {c : Root} {s t : Machine P} (h : t.footing = s.footing) :
    c.Keeps s c t := ⟨h, rfl, fun _ hr => .inl hr⟩

theorem Keeps.trans {c d e : Root} {s t u : Machine P} (h : c.Keeps s d t) (h' : d.Keeps t e u) :
    c.Keeps s e u := by
  refine ⟨h'.footing.trans h.footing, h'.vmxon.trans h.vmxon, fun r hr => ?_⟩
  obtain hd | hn := h'.apart r hr
  · exact h.apart r hd
  · exact .inr (h.footing ▸ hn)

theorem Keeps.stands {c d : Root} {s t : Machine P} (h : c.Keeps s d t)
    (hs : (root c).Stands s.footing) : (root d).Stands t.footing := by
  obtain ⟨hr, hx, ha⟩ := hs
  rw [Stands, h.footing, h.vmxon]
  refine ⟨hr, hx, fun r hd he => ?_⟩
  obtain hc | hn := h.apart r hd
  · exact ha r hc he
  · exact hn (he ▸ hr)

theorem footing_unload (c : Root) (region : Region .vmcs) (why : Failure) (s : Machine P) :
    (c.unload region why s).footing = s.footing := by
  have hf := Machine.footing_attempt (s := s.note c.id (.hostStateFailed why))
    (Grounded.vmclear region.addr s.processor)
  unfold unload
  split <;> next ha => rw [ha] at hf; exact hf

theorem load_keeps (c : Root) (region : Region .vmcs) (s : Machine P) :
    c.Keeps s (c.load region s).2.1 (c.load region s).2.2 := by
  unfold load
  split
  · exact .of_footing rfl
  · have hf := Machine.footing_attempt (Grounded.vmptrld region.addr s.host.memory s.processor)
    rcases ha : s.attempt (Processor.vmptrld region.addr s.host.memory) with ⟨e | u, t⟩
    · rw [ha] at hf
      exact .of_footing hf
    · rw [ha] at hf
      have hne := Grounded.vmptrld_apart _ _ _ (congrArg Prod.fst (Machine.of_attempt_ok ha).1)
      have hw := Machine.footing_attempt (Grounded.writeHostState t.processor)
      simp only
      rcases hh : t.attempt Processor.writeHostState with ⟨e | u, t'⟩
      · rw [hh] at hw
        exact .of_footing ((c.footing_unload region e t').trans (hw.trans hf))
      · rw [hh] at hw
        refine ⟨hw.trans hf, rfl, fun r hr => .inr ?_⟩
        cases hr
        exact hne

theorem clearCurrent_keeps (c : Root) (s : Machine P) :
    c.Keeps s (c.clearCurrent s).2.1 (c.clearCurrent s).2.2 := by
  unfold clearCurrent
  split
  · exact .of_footing rfl
  · next cur hc =>
    have hf := Machine.footing_attempt (Grounded.vmclear cur.region.addr s.processor)
    split
    · next ha =>
      rw [ha] at hf
      exact ⟨hf, rfl, nofun⟩
    · next ha =>
      rw [ha] at hf
      exact .of_footing hf

theorem footing_clear (c : Root) (region : Region .vmcs) (s : Machine P) :
    (c.clear region s).2.footing = s.footing := by
  have hf := Machine.footing_attempt (Grounded.vmclear region.addr s.processor)
  unfold clear
  split <;> next ha => rw [ha] at hf; exact hf

theorem footing_read (c : Root) (f : Field) (s : Machine P) :
    (c.read f s).2.footing = s.footing := by
  have hf := Machine.footing_attempt (Grounded.vmread f.encoding s.processor)
  unfold read
  split
  · split <;> next ha => rw [ha] at hf; exact hf
  · rfl

theorem footing_write (c : Root) (f : Field) (v : UInt64) (s : Machine P) :
    (c.write f v s).2.footing = s.footing := by
  unfold write
  split
  · exact Machine.footing_attempt (Grounded.vmwrite _ _ s.processor)
  · rfl

theorem footing_invalidateEpt (c : Root) (pointer : UInt64) (scope : EptScope) (s : Machine P) :
    (c.invalidateEpt pointer scope s).2.footing = s.footing := by
  have hf := Machine.footing_attempt (Grounded.invept scope ⟨pointer, 0⟩ s.processor)
  unfold invalidateEpt
  split
  · split <;> next ha => rw [ha] at hf; exact hf
  · rfl

theorem footing_invalidateVpid (c : Root) (tag : Tag) (scope : VpidScope) (address : UInt64)
    (s : Machine P) : (c.invalidateVpid tag scope address s).2.footing = s.footing := by
  have hf := Machine.footing_attempt
    (Grounded.invvpid scope ⟨tag.value.toUInt64, address⟩ s.processor)
  unfold invalidateVpid
  split
  · split
    · rfl
    · split <;> next ha => rw [ha] at hf; exact hf
  · rfl

theorem afterExit_keeps (c : Root) (s : Machine P) :
    c.Keeps s (c.afterExit s).2.1 (c.afterExit s).2.2 := by
  have hf := Machine.footing_attempt (Grounded.vmread Field.exitReason s.processor)
  unfold afterExit
  split
  · next ha =>
    rw [ha] at hf
    refine ⟨hf, ?_, fun r hr => .inl ?_⟩
    · dsimp only
      split <;> rfl
    · dsimp only at hr
      split at hr
      · exact hr
      · exact c.region?_setLaunched ▸ hr
  · next ha =>
    rw [ha] at hf
    exact .of_footing hf

theorem enter_keeps (c : Root) (k : Entry) (regs : Registers) (s : Machine P) :
    c.Keeps s (c.enter k regs s).2.1 (c.enter k regs s).2.2.2 := by
  have hp := Grounded.enter k regs s.processor
  unfold enter
  split
  · exact .of_footing rfl
  · split
    · exact .of_footing rfl
    · split
      · next he =>
        rw [he] at hp
        have hk : c.Keeps s c _ := .of_footing (t := ⟨_, s.host⟩) hp
        exact hk.trans (c.afterExit_keeps _)
      · next he =>
        rw [he] at hp
        exact .of_footing ((Machine.footing_diagnose _ _).trans hp)
      · next he =>
        rw [he] at hp
        exact .of_footing hp

end Root

end Core

namespace Running

/-- What a run keeps, for the core and for the machine. -/
def Keeps (w v : Running P) : Prop := w.core.Keeps w.machine v.core v.machine

theorem footing_now (w : Running P) : w.now.2.machine.footing = w.machine.footing :=
  Grounded.timestamp w.machine.processor

theorem keeps_count (w : Running P) (raw : RawExit) (entered time : UInt64) :
    w.Keeps (w.count raw entered time) := by
  unfold count
  split <;> exact .of_footing rfl

theorem keeps_report (w : Running P) (raw : RawExit) (time : UInt64) :
    w.Keeps (w.report raw time).2 := by
  have hf := Machine.footing_attempt (Grounded.vmread Field.exitQualification w.machine.processor)
  unfold report
  split <;> next ha => rw [ha] at hf; exact .of_footing hf

theorem keeps_enter (w : Running P) (k : Entry) : w.Keeps (w.enter k).2 := by
  have hn : w.core.Keeps w.machine w.core w.now.2.machine := .of_footing w.footing_now
  have he : w.core.Keeps w.machine (w.now.2.core.enter k w.now.2.regs w.now.2.machine).2.1
      (w.now.2.core.enter k w.now.2.regs w.now.2.machine).2.2.2 :=
    hn.trans (w.core.enter_keeps k w.regs w.now.2.machine)
  rcases hx : w.now.2.core.enter k w.now.2.regs w.now.2.machine with ⟨t | e | raw, core, regs, m⟩
  all_goals
    rw [hx] at he
    simp only [enter, hx]
  · exact he
  · exact he.trans (.of_footing rfl)
  · let v : Running P := { w.now.2 with core, regs, machine := m }
    have hv : w.Keeps v.now.2 := he.trans (.of_footing v.footing_now)
    exact hv.trans ((v.now.2.keeps_count raw w.now.1 v.now.1).trans (keeps_report _ raw v.now.1))

theorem keeps_dispatch {β : Type} (w : Running P) (h : Handler β) : w.Keeps (w.dispatch h).2 := by
  have hr : w.Keeps w.run.2 := w.keeps_enter _
  unfold dispatch
  split
  · next he =>
    rw [he] at hr
    exact hr
  · next he =>
    rw [he] at hr
    exact hr
  · next he =>
    rw [he] at hr
    split <;> exact hr

theorem keeps_call (w : Running P) (call : RootCall) : w.Keeps (w.call call).2 := by
  have hstay : w.Keeps w := .of_footing rfl
  cases call with
  | load region =>
    have hk := w.core.load_keeps region w.machine
    cases hh : w.core.holds region.addr with
    | true => simpa only [call, hh, ↓reduceIte] using hstay
    | false =>
      simp only [call, hh, Bool.false_eq_true, ↓reduceIte]
      split <;> next he => rw [he] at hk; exact hk
  | clear region =>
    cases hh : w.core.holds region.addr with
    | true => simpa only [call, hh, ↓reduceIte] using hstay
    | false =>
      simp only [call, hh, Bool.false_eq_true, ↓reduceIte]
      exact .of_footing (w.core.footing_clear region w.machine)
  | clearCurrent =>
    have hk := w.core.clearCurrent_keeps w.machine
    simp only [call]
    split <;> next he => rw [he] at hk; exact hk
  | enter k => exact w.core.enter_keeps k w.regs w.machine
  | enterCounted k => exact w.keeps_enter k
  | run => exact w.keeps_enter _
  | dispatch h => exact w.keeps_dispatch h
  | read f => exact .of_footing (w.core.footing_read f w.machine)
  | write f v => exact .of_footing (w.core.footing_write f v w.machine)
  | invalidateEpt pointer scope =>
    exact .of_footing (w.core.footing_invalidateEpt pointer scope w.machine)
  | invalidateVpid tag scope address =>
    exact .of_footing (w.core.footing_invalidateVpid tag scope address w.machine)

end Running

end VmxControl
