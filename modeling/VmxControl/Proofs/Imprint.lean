import VmxControl.Proofs.Journal
import VmxControl.Proofs.Masking
import VmxControl.Proofs.Readiness

/-!
# The imprint of the control plane

A run of a core leaves its mark on two registers and nowhere else. In CR4 it sets and clears VMXE. The
feature-control register it locks if firmware has not, and since a locked register is never written
again this happens at most once. What other bits say, known or not, is kept.
-/

namespace VmxControl

/-- Firmware had left the register unlocked, and the new value adds the two bits to it. -/
structure Locking (old new : UInt64) : Prop where
  unlocked : old &&& lockBit = 0
  locked : new &&& lockBit ≠ 0
  outsideSmx : new &&& outsideSmxBit ≠ 0
  rest : new &&& ~~~(lockBit ||| outsideSmxBit) = old &&& ~~~(lockBit ||| outsideSmxBit)

theorem Locking.of_unlocked {old : UInt64} (h : old &&& lockBit = 0) :
    Locking old (old ||| lockBit ||| outsideSmxBit) where
  unlocked := h
  locked := by
    rw [UInt64.or_assoc, UInt64.or_comm lockBit, ← UInt64.or_assoc, or_and_self]
    decide
  outsideSmx := by
    rw [or_and_self]
    decide
  rest := by rw [UInt64.or_assoc, or_and_not]

namespace Settings

def featureControl (s : Settings) : UInt64 := s.msrs.get .featureControl

/-- What may be done to registers that are set up like this. -/
def Permits (s : Settings) : Op → Prop
  | .wrmsr r v => r = .featureControl ∧ Locking s.featureControl v
  | .cr4 v => v &&& ~~~vmxe = s.cr4 &&& ~~~vmxe
  | _ => True

/-- Each effect is permitted on what the effects before it leave. -/
def PermitsAll (s : Settings) : List Op → Prop
  | [] => True
  | o :: ops => s.Permits o ∧ (s.apply o).PermitsAll ops

theorem permitsAll_append {s : Settings} {xs ys : List Op} :
    s.PermitsAll (xs ++ ys) ↔ s.PermitsAll xs ∧ (s.applyAll xs).PermitsAll ys := by
  induction xs generalizing s with
  | nil => simp [PermitsAll]
  | cons o xs ih => simp [PermitsAll, ih, and_assoc]

theorem permits_of_not_sets {o : Op} (h : ¬ o.Sets) (s : Settings) : s.Permits o ∧ s.apply o = s := by
  cases o with
  | wrmsr | cr4 => exact absurd trivial h
  | _ => exact ⟨trivial, rfl⟩

/-- Effects that set no register are always permitted, and change none. -/
theorem permitsAll_of_not_sets {ops : List Op} (h : ∀ o ∈ ops, ¬ o.Sets) (s : Settings) :
    s.PermitsAll ops ∧ s.applyAll ops = s := by
  induction ops with
  | nil => exact ⟨trivial, rfl⟩
  | cons o ops ih =>
    obtain ⟨hp, he⟩ := permits_of_not_sets (h o List.mem_cons_self) s
    obtain ⟨hps, hes⟩ := ih fun x hx => h x (List.mem_cons_of_mem o hx)
    rw [PermitsAll, applyAll_cons, he]
    exact ⟨⟨hp, hps⟩, hes⟩

end Settings

/-- The writes to model-specific registers among the effects. -/
def Op.msrWrites : List Op → List (Msr × UInt64)
  | [] => []
  | .wrmsr r v :: ops => (r, v) :: msrWrites ops
  | _ :: ops => msrWrites ops

/-- What the effects have made of the registers `s`. -/
structure Settings.Imprint (s t : Settings) (ops : List Op) : Prop where
  vmx : t.vmx = s.vmx
  cr0 : t.cr0 = s.cr0
  cr4 : t.cr4 &&& ~~~vmxe = s.cr4 &&& ~~~vmxe
  cr4Writes : ∀ v, .cr4 v ∈ ops → v &&& ~~~vmxe = s.cr4 &&& ~~~vmxe
  msrs : (Op.msrWrites ops = [] ∧ t.msrs = s.msrs) ∨
    ∃ v, Op.msrWrites ops = [(.featureControl, v)] ∧ Locking s.featureControl v ∧
      t.msrs = s.msrs.put .featureControl v

namespace Settings

/-- Once the register is locked it is not written any more. -/
theorem Imprint.locked {s t : Settings} {ops : List Op} (h : s.Imprint t ops)
    (hl : s.featureControl &&& lockBit ≠ 0) : Op.msrWrites ops = [] ∧ t.msrs = s.msrs := by
  obtain h | ⟨v, -, hv, -⟩ := h.msrs
  · exact h
  · exact absurd hv.unlocked hl

theorem imprint_of_permitsAll {s : Settings} {ops : List Op} (h : s.PermitsAll ops) :
    s.Imprint (s.applyAll ops) ops := by
  induction ops generalizing s with
  | nil => exact ⟨rfl, rfl, rfl, nofun, .inl ⟨rfl, rfl⟩⟩
  | cons o ops ih =>
    obtain ⟨ho, hops⟩ := h
    have hi := ih hops
    cases o with
    | cr4 v =>
      have hv : v &&& ~~~vmxe = s.cr4 &&& ~~~vmxe := ho
      refine ⟨hi.vmx, hi.cr0, hi.cr4.trans hv, fun w hw => ?_, hi.msrs⟩
      obtain hw | hw := List.mem_cons.1 hw
      · cases hw
        exact hv
      · exact (hi.cr4Writes w hw).trans hv
    | wrmsr r v =>
      obtain ⟨rfl, hv⟩ := ho
      -- The register is locked from here on, so no later effect can be another write of it.
      have hl : (s.apply (.wrmsr .featureControl v)).featureControl &&& lockBit ≠ 0 := by
        rw [apply, featureControl, Store.get_put_same]
        exact hv.locked
      obtain ⟨hw, hm⟩ := hi.locked hl
      refine ⟨hi.vmx, hi.cr0, hi.cr4, fun w hw => hi.cr4Writes w ?_, .inr ⟨v, ?_, hv, hm⟩⟩
      · simpa using hw
      · rw [Op.msrWrites, hw]
    | _ =>
      refine ⟨hi.vmx, hi.cr0, hi.cr4, fun w hw => hi.cr4Writes w ?_, hi.msrs⟩
      simpa using hw

theorem permits_set_vmxe (s : Settings) : s.Permits (.cr4 (s.cr4 ||| vmxe)) := or_and_not _ _

theorem permits_clear_vmxe (s : Settings) : s.Permits (.cr4 (s.cr4 &&& ~~~vmxe)) := by
  rw [Permits, UInt64.and_assoc, UInt64.and_self]

end Settings

/-! ## Events -/

namespace Station

variable {s : Station}

/-- Enabling locks the feature-control register where that is left to it, and writes CR4 if all its
checks succeed. -/
theorem executes_enable {c : Core.Disabled} (hc : s.core = some (.disabled c)) :
    s.executes (.call .enable) =
      (if c.Locks s.machine.processor then [s.machine.processor.lockOp] else []) ++
        if (c.enable s.machine).1.isOk then [.cr4 (s.standing.cr4 ||| vmxe)] else [] := by
  have hk : (c.checked s.machine.processor).journal =
      (if c.Locks s.machine.processor then [s.machine.processor.lockOp] else []) ++
        s.standing.journal := by
    unfold Core.Disabled.checked
    split <;> rfl
  apply executes_of_journal
  obtain ⟨t, he, hs, -⟩ | ⟨f, t, he, hs, -⟩ := c.enable_cases s.machine
  all_goals
    have hn : (s.step (.call .enable)).standing = t.standing := by
      simp only [step, act, call, hc, he]
      rfl
  · rw [hn, hs, Standing.journal_apply, hk, he]
    split <;> rfl
  · rw [hn, hs, hk, he]
    split <;> rfl

theorem executes_disable {c : Core.Enabled} (hc : s.core = some (.enabled c)) :
    s.executes (.call .disable) = [.cr4 (s.standing.cr4 &&& ~~~vmxe)] := by
  apply executes_of_journal
  simp only [step, act, call, hc]
  rfl

/-- Entering root operation writes CR4 only if it traps. -/
theorem executes_enterRoot {c : Core.Enabled} (hc : s.core = some (.enabled c))
    (region : Region .vmxon) :
    s.executes (.call (.enterRoot region)) = [.cr4 (s.standing.cr4 &&& ~~~vmxe)] ∨
      ∀ o ∈ s.executes (.call (.enterRoot region)), ¬ o.Sets := by
  obtain ⟨-, t, he, hs⟩ | ⟨-, ⟨t, he, hs, -⟩ | ⟨f, t, he, hs, -⟩⟩ := c.enterRoot_cases region s.machine
  all_goals
    have hn : (s.step (.call (.enterRoot region))).standing = t.standing := by
      simp only [step, act, call, hc, he]
      rfl
  · refine .inl (executes_of_journal ?_)
    rw [hn, hs]
    rfl
  · have hx : s.executes (.call (.enterRoot region)) = [.vmxon region.addr] :=
      executes_of_journal (by rw [hn, hs]; rfl)
    rw [hx]
    exact .inr (by simp [Op.Sets])
  · have hx : s.executes (.call (.enterRoot region)) = [] :=
      executes_of_journal (by rw [hn, hs]; rfl)
    rw [hx]
    exact .inr (by simp)

/-- A call whose commands set no register has no effect that does. -/
theorem executes_not_sets {call : Call} (h : ∀ c, call.Uses c → ¬ c.Sets) :
    ∀ o ∈ s.executes (.call call), ¬ o.Sets := by
  intro o ho
  obtain ⟨-, hu⟩ := s.step_journals (.call call)
  obtain ⟨call', c, he, hc, hx⟩ := hu o ho
  cases he
  exact Command.entry?_not_sets (h c hc) hx

/-- A drop clears VMXE last. It leaves CR4 alone if VMX is off already, or cannot be turned off. -/
theorem executes_drop {c : Core} (hc : s.core = some c) :
    ((∀ o ∈ s.executes (.call .drop), ¬ o.Sets) ∧
      (c.mode = .disabled ∨ c.mode = .root ∧ .vmxoff ∉ s.executes (.call .drop))) ∨
    ∃ ops, (∀ o ∈ ops, ¬ o.Sets) ∧
      s.executes (.call .drop) = ops ++ [.cr4 (s.standing.cr4 &&& ~~~vmxe)] := by
  have hn : (s.step (.call .drop)).standing = (c.drop s.machine).standing := by
    simp only [step, act, call, hc]
    rfl
  cases c with
  | disabled c =>
    have he : s.executes (.call .drop) = [] := executes_of_journal (congrArg Standing.journal hn)
    refine .inl ⟨?_, .inl rfl⟩
    rw [he]
    simp
  | enabled c =>
    refine .inr ⟨[], by simp, executes_of_journal ?_⟩
    rw [hn]
    rfl
  | root c =>
    obtain ⟨ops, hl, hs | hs⟩ := c.drop_cases s.machine
    · have he : s.executes (.call .drop) = ops := by
        refine executes_of_journal ?_
        rw [hn]
        exact (congrArg Standing.journal hs).trans (Standing.journal_applyAll _ _)
      rw [he]
      refine .inl ⟨fun o ho => ?_, .inr ⟨rfl, fun ho => ?_⟩⟩
      · obtain ⟨a, rfl⟩ := hl o ho
        exact id
      · obtain ⟨a, ha⟩ := hl _ ho
        cases ha
    · refine .inr ⟨ops ++ [.vmxoff], fun o ho => ?_, executes_of_journal ?_⟩
      · obtain ho | ho := List.mem_append.1 ho
        · obtain ⟨a, rfl⟩ := hl o ho
          exact id
        · rw [List.mem_singleton.1 ho]
          exact id
      · rw [hn, List.append_assoc]
        exact (congrArg Standing.journal hs).trans (Standing.journal_applyAll _ _)

theorem permitsAll_enable {c : Core.Disabled} (hc : s.core = some (.disabled c)) :
    s.settings.PermitsAll (s.executes (.call .enable)) := by
  have hset (t : Settings) (ok : Bool) :
      t.PermitsAll (if ok then [.cr4 (t.cr4 ||| vmxe)] else []) := by
    cases ok with
    | true => exact ⟨t.permits_set_vmxe, trivial⟩
    | false => trivial
  rw [executes_enable hc]
  split
  · next hl =>
    have hlock : s.settings.Permits s.machine.processor.lockOp := ⟨rfl, .of_unlocked hl.2.2⟩
    exact ⟨hlock, hset (s.settings.apply s.machine.processor.lockOp) _⟩
  · exact hset s.settings _

/-- Whatever a call comes to, its effects on the registers are permitted. -/
theorem permitsAll_call (s : Station) (call : Call) :
    s.settings.PermitsAll (s.executes (.call call)) := by
  have hset {ops : List Op} (h : ∀ o ∈ ops, ¬ o.Sets) : s.settings.PermitsAll ops :=
    (Settings.permitsAll_of_not_sets h s.settings).1
  have hclear : s.settings.PermitsAll [.cr4 (s.standing.cr4 &&& ~~~vmxe)] :=
    ⟨s.settings.permits_clear_vmxe, trivial⟩
  cases s.finds call with
  | nothing h =>
    have he : s.executes (.call call) = [] := executes_of_journal (by simp only [step, act, h]; rfl)
    rw [he]
    trivial
  | enable hc => exact permitsAll_enable hc
  | disable hc =>
    rw [executes_disable hc]
    exact hclear
  | enterRoot hc =>
    obtain he | he := executes_enterRoot hc _
    · rw [he]
      exact hclear
    · exact hset he
  | exitRoot hc =>
    refine hset (executes_not_sets fun x hx => ?_)
    cases x <;> first | exact id | exact hx.elim
  | inRoot hc => exact hset (executes_not_sets fun _ hx => hx.not_sets)
  | drop hc =>
    obtain ⟨he, -⟩ | ⟨ops, ho, he⟩ := executes_drop hc
    · exact hset he
    · rw [he, Settings.permitsAll_append, (Settings.permitsAll_of_not_sets ho _).2]
      exact ⟨hset ho, hclear⟩

theorem permitsAll_step (s : Station) (e : Event) : s.settings.PermitsAll (s.executes e) := by
  cases e with
  | call c => exact s.permitsAll_call c
  | influence i =>
    rw [executes_influence]
    trivial

theorem permitsAll_run (s : Station) (es : List Event) : s.settings.PermitsAll (s.executed es) := by
  induction es generalizing s with
  | nil =>
    rw [executed_nil]
    trivial
  | cons e es ih =>
    rw [executed_cons, Settings.permitsAll_append, ← settings_step]
    exact ⟨s.permitsAll_step e, ih (s.step e)⟩

theorem imprint_run (s : Station) (es : List Event) :
    s.settings.Imprint (s.run es).settings (s.executed es) := by
  rw [settings_run]
  exact Settings.imprint_of_permitsAll (s.permitsAll_run es)

/-- The drop of a core that was enabled at some time gives CR4 back, unless VMXOFF fails. -/
theorem cr4_dropped {c : Core} (hc : s.core = some c) (h : s.Cleared)
    (hx : c.mode = .root → .vmxoff ∈ s.executes (.call .drop)) :
    (s.step (.call .drop)).settings.cr4 = s.settings.cr4 &&& ~~~vmxe := by
  rw [settings_step]
  obtain ⟨ho, hd | ⟨hr, hn⟩⟩ | ⟨ops, ho, he⟩ := executes_drop hc
  · cases c with
    | disabled d =>
      rw [(Settings.permitsAll_of_not_sets ho _).2]
      exact (and_not_of_and_eq_zero (h d hc)).symm
    | enabled | root => cases hd
  · exact absurd (hx hr) hn
  · rw [he, Settings.applyAll_append, (Settings.permitsAll_of_not_sets ho _).2]
    rfl

/-- Every run leaves CR0 alone, and CR4 except for VMXE. It writes no model-specific register but
that of feature control, and this one only to lock it. Once a core was enabled, CR4 is what it was,
with VMXE clear, when the core is disabled again, and after a drop that turns VMX off. -/
theorem run_leaves_imprint (s : Station) (es : List Event) :
    s.settings.Imprint (s.run es).settings (s.executed es) ∧
    ∀ xs c, xs <+: es → (s.run xs).core = some (.enabled c) →
      (∀ d, (s.run es).core = some (.disabled d) →
        (s.run es).settings.cr4 = s.settings.cr4 &&& ~~~vmxe) ∧
      ∀ d, (s.run es).core = some d →
        (d.mode = .root → .vmxoff ∈ (s.run es).executes (.call .drop)) →
        ((s.run es).step (.call .drop)).settings.cr4 = s.settings.cr4 &&& ~~~vmxe := by
  have hi := s.imprint_run es
  refine ⟨hi, fun xs c hx he => ?_⟩
  have hcl : (s.run es).Cleared := by
    obtain ⟨ys, rfl⟩ := hx
    rw [run_append]
    exact run_keeps (fun _ => cleared_step) (fun d hd => by cases he.symm.trans hd) ys
  refine ⟨fun d hd => ?_, fun d hd hv => ?_⟩
  · exact (and_not_of_and_eq_zero (hcl d hd)).symm.trans hi.cr4
  · exact (cr4_dropped hd hcl hv).trans hi.cr4

/-- The way back from root operation, where firmware had left it to us whether VMXON is permitted. -/
theorem imprint_of_undecided :
    Op.msrWrites (undecided.executed toRoot) = [(.featureControl, 5)] ∧
      (undecided.run (toRoot ++ [.call .exitRoot, .call .disable])).settings.cr4 = 0x620 ∧
      ((undecided.run toRoot).step (.call .drop)).settings.cr4 = 0x620 := by
  obtain ⟨-, hback⟩ := run_leaves_imprint undecided (toRoot ++ [.call .exitRoot, .call .disable])
  obtain ⟨-, hdrop⟩ := run_leaves_imprint undecided toRoot
  refine ⟨rfl, ?_, ?_⟩
  · exact (hback [.call .enable] ⟨⟨0, Core.announced⟩⟩ ⟨_, rfl⟩ rfl).1 ⟨⟨0, Core.announced⟩⟩ rfl
  · exact (hdrop [.call .enable] ⟨⟨0, Core.announced⟩⟩ ⟨_, rfl⟩ rfl).2
      (.root ⟨⟨0, Core.announced⟩, stamped .vmxon 0x100000, none⟩) rfl fun _ => by decide

end Station

end VmxControl
