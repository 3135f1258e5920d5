import VmxControl.Holder
import VmxControl.Proofs.Stance

/-!
# Holders along their runs

A holder at work: VMX is turned on and off, the core is lent out in root operation, and from outside
anything may happen to the processor that leaves its footing alone, so that any instruction fails
whenever it likes. After every such run the holder has its core, in the mode that the processor is in.
-/

namespace VmxControl

variable {P : Type} [Processor P] [Grounded P]

namespace Holder

/-- Enabling the core is rejected. -/
def Unfit (h : Holder) (s : Machine P) : Prop :=
  ∃ c r, h.core = some (.disabled c) ∧ (c.enable s).1 = .error r

theorem enterRoot_cases (c : Core.Enabled) {s : Machine P} (hx : s.footing.cr4 &&& vmxe ≠ 0) :
    (∃ d t, enterRoot c s = (.ok (.ok ()), ⟨some (.root d)⟩, t) ∧ (Core.root d).Stands t.footing) ∨
    ∃ e t, enterRoot c s = (.ok (.error e), ⟨some (.enabled c)⟩, t) ∧ t.footing = s.footing := by
  unfold enterRoot
  rcases RawRegion.allocate .vmxon s.host with ⟨e | raw, host⟩
  · exact .inr ⟨e, { s with host }, rfl, rfl⟩
  · rcases hr : raw.stamp c.caps host with ⟨region, host'⟩
    simp only [hr]
    obtain ⟨t, he, ht⟩ | ⟨f, t, he, ht⟩ :=
      c.enterRoot_footing region (s := { s with host := host' }) hx
    · refine .inl ⟨⟨c.toIdentity, region, none⟩, t, by rw [he], ?_⟩
      rw [ht]
      exact ⟨rfl, hx, nofun⟩
    · exact .inr ⟨f, t.release region.frame, by rw [he], ht⟩

/-- All that turning VMX on does, by the core that the holder has. -/
theorem hardwareEnable_cases {h : Holder} {s : Machine P} {c : Core} (hc : h.core = some c)
    (hs : c.Stands s.footing) :
    (∃ d t, c.mode ≠ .root ∧ h.hardwareEnable s = (.ok (.ok ()), ⟨some (.root d)⟩, t) ∧
      (Core.root d).Stands t.footing) ∨
    (c.mode = .root ∧ h.hardwareEnable s = (.ok (.error (.valid .vmxonInRoot)), h, s)) ∨
    (∃ d e t, c = .disabled d ∧ h.Unfit s ∧
      h.hardwareEnable s = (.ok (.error e), ⟨some (.disabled d)⟩, t) ∧ t.footing = s.footing) ∨
    ∃ d e t, c.mode ≠ .root ∧ ¬ h.Unfit s ∧
      h.hardwareEnable s = (.ok (.error e), ⟨some (.enabled d)⟩, t) ∧
      (Core.enabled d).Stands t.footing := by
  cases c with
  | root c => exact .inr (.inl ⟨rfl, by simp only [hardwareEnable, hc]⟩)
  | enabled c =>
    have hu : ¬ h.Unfit s := by
      rintro ⟨d, r, hd, -⟩
      cases hc.symm.trans hd
    obtain ⟨d, t, he, ht⟩ | ⟨e, t, he, ht⟩ := enterRoot_cases c hs.2
    · exact .inl ⟨d, t, nofun, by simp only [hardwareEnable, hc, he], ht⟩
    · refine .inr (.inr (.inr ⟨c, e, t, nofun, hu, by simp only [hardwareEnable, hc, he], ?_⟩))
      rwa [ht]
  | disabled c =>
    obtain ⟨t, he, ht⟩ | ⟨f, t, he, ht⟩ := c.enable_footing s
    · have hu : ¬ h.Unfit s := by
        rintro ⟨d, r, hd, hr⟩
        cases hc.symm.trans hd
        rw [he] at hr
        cases hr
      have hn : (Core.enabled ⟨c.toIdentity⟩).Stands t.footing := by
        rw [ht]
        exact ⟨hs, or_vmxe _⟩
      obtain ⟨d, u, hr, hu'⟩ | ⟨e, u, hr, hu'⟩ := enterRoot_cases ⟨c.toIdentity⟩ hn.2
      · exact .inl ⟨d, u, nofun, by simp only [hardwareEnable, hc, he, hr], hu'⟩
      · refine .inr (.inr (.inr
          ⟨⟨c.toIdentity⟩, e, u, nofun, hu, by simp only [hardwareEnable, hc, he, hr], ?_⟩))
        rwa [hu']
    · exact .inr (.inr (.inl ⟨c, f, t, rfl, ⟨c, _, hc, by rw [he]⟩,
        by simp only [hardwareEnable, hc, he], ht⟩))

theorem clearCurrent_keeps (c : Core.Root) (s : Machine P) :
    c.Keeps s (clearCurrent c s).2.1 (clearCurrent c s).2.2 := by
  have hk := c.clearCurrent_keeps s
  unfold clearCurrent
  split
  · split
    · next he =>
      rw [he] at hk
      exact hk.trans (.of_footing rfl)
    · next he =>
      rw [he] at hk
      exact hk
  · exact .of_footing rfl

theorem leaveRoot_cases (c : Core.Root) (s : Machine P) :
    (∃ d t, leaveRoot c s = (.ok (), ⟨some (.disabled d)⟩, t) ∧
      t.footing = ⟨none, s.footing.cr4 &&& ~~~vmxe⟩) ∨
    ∃ e d t, leaveRoot c s = (.error e, ⟨some (.root d)⟩, t) ∧ c.Keeps s d t := by
  have hk := clearCurrent_keeps c s
  unfold leaveRoot
  rcases hc : clearCurrent c s with ⟨e | u, d, t⟩
  · rw [hc] at hk
    exact .inr ⟨e, d, t, rfl, hk⟩
  · rw [hc] at hk
    obtain ⟨u, he, hu⟩ | ⟨f, u, he, hu⟩ := d.exitRoot_footing t
    · refine .inl ⟨⟨d.toIdentity⟩, (u.clearVmxe.note d.id .disabled).release d.vmxon.frame,
        by simp only [he]; rfl, ?_⟩
      rw [Machine.footing_release, Machine.footing_note, Machine.footing_clearVmxe, hu, hk.footing]
    · exact .inr ⟨f, d, u, by simp only [he], hk.trans (.of_footing hu)⟩

theorem hardwareDisable_cases {h : Holder} {s : Machine P} {c : Core} (hc : h.core = some c)
    (hs : c.Stands s.footing) :
    (c.mode = .disabled ∧ h.hardwareDisable s = (.ok (), h, s)) ∨
    (∃ d t, c.mode ≠ .disabled ∧ h.hardwareDisable s = (.ok (), ⟨some (.disabled d)⟩, t) ∧
      t.footing = ⟨none, s.footing.cr4 &&& ~~~vmxe⟩) ∨
    ∃ e d t, c.mode ≠ .disabled ∧ h.hardwareDisable s = (.error e, ⟨some (.root d)⟩, t) ∧
      (Core.root d).Stands t.footing := by
  cases c with
  | disabled c => exact .inl ⟨rfl, by simp only [hardwareDisable, hc]⟩
  | enabled c =>
    refine .inr (.inl ⟨(c.disable s).1, (c.disable s).2, nofun,
      by simp only [hardwareDisable, hc], (c.disable_footing s).trans ?_⟩)
    exact congrArg (Footing.mk · _) hs.1
  | root c =>
    obtain ⟨d, t, he, ht⟩ | ⟨e, d, t, he, ht⟩ := leaveRoot_cases c s
    · exact .inr (.inl ⟨d, t, nofun, by simp only [hardwareDisable, hc, he], ht⟩)
    · exact .inr (.inr ⟨e, d, t, nofun, by simp only [hardwareDisable, hc, he], ht.stands hs⟩)

end Holder

namespace Core.Root

theorem clearCurrent_ok {c : Root} {cur : Current} {s : Machine P} (hc : c.current = some cur)
    (hs : (root c).Stands s.footing) (hp : Grounded.pending .vmclear s.processor = false) :
    ∃ t, c.clearCurrent s = (.ok cur.region, { c with current := none }, t) ∧
      Grounded.pending .vmxoff t.processor = Grounded.pending .vmxoff s.processor := by
  obtain ⟨q, hq, hx⟩ :=
    Grounded.vmclear_ok cur.region.addr c.vmxon.addr s.processor hs.1 (hs.apart hc) hp
  exact ⟨Machine.note { s with processor := q } c.id (.cleared cur.region.addr),
    by simp only [clearCurrent, hc, Machine.attempt, Machine.exec, hq], hx⟩

theorem exitRoot_ok {c : Root} {s : Machine P} (hc : c.current = none)
    (hr : s.footing.region ≠ none) (hp : Grounded.pending .vmxoff s.processor = false) :
    ∃ t, c.exitRoot s = (.ok (⟨c.toIdentity⟩, c.vmxon), t) := by
  obtain ⟨q, hq⟩ := Grounded.vmxoff_ok s.processor hr hp
  exact ⟨Machine.note { s with processor := q } c.id .leftRoot,
    by simp [exitRoot, hc, Machine.attempt, Machine.exec, hq]⟩

end Core.Root

namespace Holder

/-- VMXOFF is still free of failures once VMCLEAR was. -/
theorem clearCurrent_ok {c : Core.Root} {s : Machine P} (hs : (Core.root c).Stands s.footing)
    (hp : Grounded.pending .vmclear s.processor = false) :
    ∃ t, clearCurrent c s = (.ok (), { c with current := none }, t) ∧
      Grounded.pending .vmxoff t.processor = Grounded.pending .vmxoff s.processor := by
  cases hc : c.current with
  | none =>
    have he : { c with current := none } = c := by rw [← hc]
    exact ⟨s, by simp [clearCurrent, hc, he], rfl⟩
  | some cur =>
    obtain ⟨t, he, ht⟩ := c.clearCurrent_ok hc hs hp
    exact ⟨t.release cur.region.frame, by simp [clearCurrent, hc, he], ht⟩

theorem leaveRoot_ok {c : Core.Root} {s : Machine P} (hs : (Core.root c).Stands s.footing)
    (hp : Grounded.pending .vmclear s.processor = false)
    (hx : Grounded.pending .vmxoff s.processor = false) : (leaveRoot c s).1 = .ok () := by
  obtain ⟨t, hc, ht⟩ := clearCurrent_ok hs hp
  have hk := clearCurrent_keeps c s
  rw [hc] at hk
  have hr : t.footing.region ≠ none := by
    rw [hk.footing, hs.1]
    exact nofun
  obtain ⟨u, hu⟩ := Core.Root.exitRoot_ok (c := { c with current := none }) rfl hr (ht.trans hx)
  simp only [leaveRoot, hc, hu]

theorem hardwareDisable_ok {h : Holder} {s : Machine P} {c : Core} (hc : h.core = some c)
    (hs : c.Leans s.footing) (hp : Grounded.pending .vmclear s.processor = false)
    (hx : Grounded.pending .vmxoff s.processor = false) : (h.hardwareDisable s).1 = .ok () := by
  cases c with
  | disabled c | enabled c => simp only [hardwareDisable, hc]
  | root c => simpa only [hardwareDisable, hc] using leaveRoot_ok hs hp hx

end Holder

/-! ## Runs -/

/-- A holder with its machine, and what a core in root operation works on besides. -/
structure Post (P : Type) where
  holder : Holder
  regs : Registers
  telemetry : Telemetry
  machine : Machine P

namespace Post

inductive Event (P : Type) where
  | hardwareEnable
  | hardwareDisable
  | lent (call : RootCall)
  | outside (p : P) (h : Host) (r : Registers)

def mode (s : Post P) : Mode := s.holder.mode

def footing (s : Post P) : Footing := s.machine.footing

def enable (s : Post P) : Except Trap (Except Failure Unit) × Post P :=
  let (r, holder, machine) := s.holder.hardwareEnable s.machine
  (r, { s with holder, machine })

def disable (s : Post P) : Except Failure Unit × Post P :=
  let (r, holder, machine) := s.holder.hardwareDisable s.machine
  (r, { s with holder, machine })

/-- A call to the core that the holder lends. -/
def lend (s : Post P) (call : RootCall) : Post P :=
  match s.holder.root? with
  | none => s
  | some c =>
    let (_, w) := (⟨c, s.regs, s.telemetry, s.machine⟩ : Running P).call call
    ⟨⟨some (.root w.core)⟩, w.regs, w.telemetry, w.machine⟩

def step (s : Post P) : Event P → Post P
  | .hardwareEnable => s.enable.2
  | .hardwareDisable => s.disable.2
  | .lent call => s.lend call
  | .outside p h r =>
    if Grounded.footing p = s.footing then { s with regs := r, machine := ⟨p, h⟩ } else s

def run (s : Post P) : List (Event P) → Post P
  | [] => s
  | e :: es => (s.step e).run es

def Owns (s : Post P) : Prop := ∃ c, s.holder.core = some c ∧ c.Stands s.footing

/-- The holder has a core, in the mode that the processor is in. -/
structure Sound (s : Post P) : Prop where
  owns : s.Owns
  enabled : s.holder.isEnabled = true ↔ s.mode = .root
  lends : s.holder.root?.isSome = true ↔ s.mode = .root
  operates : s.footing.region.isSome = true ↔ s.mode = .root
  vmxe : s.mode ≠ .disabled → s.footing.cr4 &&& vmxe ≠ 0

/-- What turning VMX on from `s` may answer, and what it leaves. -/
structure TurnsOn (s : Post P) (r : Except Trap (Except Failure Unit)) (t : Post P) : Prop where
  answers : ∃ a, r = .ok a
  ok : r = .ok (.ok ()) → t.mode = .root
  root : s.mode = .root → r = .ok (.error (.valid ⟨15⟩)) ∧ t = s
  unfit : s.mode ≠ .root → ∀ e, r = .ok (.error e) → s.holder.Unfit s.machine → t.mode = .disabled
  fit : s.mode ≠ .root → ∀ e, r = .ok (.error e) → ¬ s.holder.Unfit s.machine → t.mode = .enabled

structure TurnsOff (s : Post P) (r : Except Failure Unit) (t : Post P) : Prop where
  ok : r = .ok () ↔ t.mode = .disabled
  error : r ≠ .ok () → t.mode = .root
  disabled : s.mode = .disabled → t = s

omit [Processor P] [Grounded P] in
theorem mode_of_core {s : Post P} {c : Core} (hc : s.holder.core = some c) : s.mode = c.mode := by
  simp [mode, Holder.mode, hc]

theorem Owns.sound {s : Post P} (h : s.Owns) : s.Sound := by
  obtain ⟨c, hc, hs⟩ := h
  have hm := mode_of_core hc
  have hr : s.holder.root?.isSome = true ↔ s.mode = .root := by
    rw [hm]
    cases c <;> simp [Holder.root?, hc, Core.root?, Core.mode]
  exact ⟨⟨c, hc, hs⟩, hr, hr, hm ▸ hs.region_isSome, fun hd => hs.vmxe (hm ▸ hd)⟩

theorem Owns.turnsOn {s : Post P} (h : s.Owns) : s.TurnsOn s.enable.1 s.enable.2 := by
  obtain ⟨c, hc, hs⟩ := h
  have hm := mode_of_core hc
  obtain ⟨d, t, hr, he, -⟩ | ⟨hr, he⟩ | ⟨d, e, t, hd, hu, he, -⟩ | ⟨d, e, t, hr, hu, he, -⟩ :=
    Holder.hardwareEnable_cases hc hs
  all_goals simp only [enable, he]
  · have hn : s.mode ≠ .root := hm ▸ hr
    exact ⟨⟨_, rfl⟩, fun _ => rfl, fun h => absurd h hn, nofun, nofun⟩
  · have hn : s.mode = .root := hm.trans hr
    exact ⟨⟨_, rfl⟩, nofun, fun _ => ⟨rfl, rfl⟩, fun h => absurd hn h, fun h => absurd hn h⟩
  · have hn : s.mode ≠ .root := by
      rw [hm, hd]
      exact nofun
    exact ⟨⟨_, rfl⟩, nofun, fun h => absurd h hn, fun _ _ _ _ => rfl, fun _ _ _ h => absurd hu h⟩
  · have hn : s.mode ≠ .root := hm ▸ hr
    exact ⟨⟨_, rfl⟩, nofun, fun h => absurd h hn, fun _ _ _ h => absurd h hu, fun _ _ _ _ => rfl⟩

theorem Owns.turnsOff {s : Post P} (h : s.Owns) : s.TurnsOff s.disable.1 s.disable.2 := by
  obtain ⟨c, hc, hs⟩ := h
  have hm := mode_of_core hc
  obtain ⟨hd, he⟩ | ⟨d, t, hd, he, -⟩ | ⟨e, d, t, hd, he, -⟩ := Holder.hardwareDisable_cases hc hs
  all_goals simp only [disable, he]
  · have hn : s.mode = .disabled := hm.trans hd
    exact ⟨⟨fun _ => hn, fun _ => rfl⟩, fun h => absurd rfl h, fun _ => rfl⟩
  · have hn : s.mode ≠ .disabled := hm ▸ hd
    exact ⟨⟨fun _ => rfl, fun _ => rfl⟩, fun h => absurd rfl h, fun h => absurd h hn⟩
  · have hn : s.mode ≠ .disabled := hm ▸ hd
    exact ⟨⟨nofun, nofun⟩, fun _ => rfl, fun h => absurd h hn⟩

/-! ### What every step keeps -/

theorem owns_of_new {s : Post P} {id : UInt64} {caps : Capabilities}
    (hs : s.holder = .new id caps) (hr : s.footing.region = none) : s.Owns :=
  ⟨.disabled (Core.new id caps), by rw [hs]; rfl, hr⟩

/-- From outside nothing happens to the holder, or to what VMX operation stands on. -/
theorem holder_outside (s : Post P) (p : P) (k : Host) (r : Registers) :
    (s.step (.outside p k r)).holder = s.holder ∧ (s.step (.outside p k r)).footing = s.footing := by
  by_cases hf : Grounded.footing p = s.footing
  · rw [Post.step, if_pos hf]
    exact ⟨rfl, hf⟩
  · rw [Post.step, if_neg hf]
    exact ⟨rfl, rfl⟩

theorem Owns.lend {s : Post P} (h : s.Owns) (call : RootCall) :
    (s.lend call).Owns ∧ (s.lend call).mode = s.mode ∧ (s.lend call).footing = s.footing := by
  obtain ⟨c, hc, hs⟩ := h
  cases c with
  | disabled c | enabled c =>
    have he : s.lend call = s := by simp [Post.lend, Holder.root?, hc, Core.root?]
    rw [he]
    exact ⟨⟨_, hc, hs⟩, rfl, rfl⟩
  | root c =>
    let w : Running P := ⟨c, s.regs, s.telemetry, s.machine⟩
    have hk : w.Keeps (w.call call).2 := w.keeps_call call
    have he : s.lend call = ⟨⟨some (.root (w.call call).2.core)⟩, (w.call call).2.regs,
        (w.call call).2.telemetry, (w.call call).2.machine⟩ := by
      simp [Post.lend, Holder.root?, hc, Core.root?, w]
    rw [he]
    exact ⟨⟨_, rfl, hk.stands hs⟩, (mode_of_core hc).symm, hk.footing⟩

theorem Owns.step {s : Post P} (h : s.Owns) (e : Event P) : (s.step e).Owns := by
  obtain ⟨c, hc, hs⟩ := h
  cases e with
  | hardwareEnable =>
    obtain ⟨d, t, -, he, ht⟩ | ⟨-, he⟩ | ⟨d, e, t, rfl, -, he, ht⟩ | ⟨d, e, t, -, -, he, ht⟩ :=
      Holder.hardwareEnable_cases hc hs
    all_goals simp only [Post.step, enable, he]
    · exact ⟨_, rfl, ht⟩
    · exact ⟨c, hc, hs⟩
    · refine ⟨_, rfl, ?_⟩
      rwa [footing, ht]
    · exact ⟨_, rfl, ht⟩
  | hardwareDisable =>
    obtain ⟨-, he⟩ | ⟨d, t, -, he, ht⟩ | ⟨e, d, t, -, he, ht⟩ := Holder.hardwareDisable_cases hc hs
    all_goals simp only [Post.step, disable, he]
    · exact ⟨c, hc, hs⟩
    · exact ⟨_, rfl, congrArg Footing.region ht⟩
    · exact ⟨_, rfl, ht⟩
  | lent call => exact (Owns.lend ⟨c, hc, hs⟩ call).1
  | outside p k r =>
    obtain ⟨hh, hf⟩ := s.holder_outside p k r
    exact ⟨c, hh ▸ hc, hf ▸ hs⟩

/-- CR4.VMXE is clear while VMX is off. -/
def Off (s : Post P) : Prop := s.mode = .disabled → s.footing.cr4 &&& VmxControl.vmxe = 0

theorem Off.disable {s : Post P} (ho : s.Off) (h : s.Owns) : s.disable.2.Off := by
  obtain ⟨c, hc, hs⟩ := h
  intro hm
  obtain ⟨-, he⟩ | ⟨d, t, -, he, ht⟩ | ⟨e, d, t, -, he, -⟩ := Holder.hardwareDisable_cases hc hs
  all_goals simp only [Post.disable, he] at hm ⊢
  · exact ho hm
  · rw [footing, ht]
    exact and_not_vmxe _
  · cases hm

theorem Off.step {s : Post P} (ho : s.Off) (h : s.Owns) (e : Event P) : (s.step e).Off := by
  cases e with
  | hardwareEnable =>
    obtain ⟨c, hc, hs⟩ := h
    intro hm
    obtain ⟨d, t, -, he, -⟩ | ⟨-, he⟩ | ⟨d, e, t, rfl, -, he, ht⟩ | ⟨d, e, t, -, -, he, -⟩ :=
      Holder.hardwareEnable_cases hc hs
    all_goals simp only [Post.step, enable, he] at hm ⊢
    · cases hm
    · exact ho hm
    · rw [footing, ht]
      exact ho (mode_of_core hc)
    · cases hm
  | hardwareDisable => exact ho.disable h
  | lent call =>
    obtain ⟨-, hm, hf⟩ := h.lend call
    intro hd
    exact hf ▸ ho (hm ▸ hd)
  | outside p k r =>
    obtain ⟨hh, hf⟩ := s.holder_outside p k r
    intro hd
    have hm : s.mode = .disabled := (congrArg Holder.mode hh).symm.trans hd
    exact hf ▸ ho hm

theorem Owns.run {s : Post P} (h : s.Owns) (es : List (Event P)) : (s.run es).Owns := by
  induction es generalizing s with
  | nil => exact h
  | cons e es ih => exact ih (h.step e)

theorem Off.run {s : Post P} (ho : s.Off) (h : s.Owns) (es : List (Event P)) : (s.run es).Off := by
  induction es generalizing s with
  | nil => exact ho
  | cons e es ih => exact ih (ho.step h e) (h.step e)

/-- Only turning VMX on ends the mode without it. -/
theorem Owns.stays_disabled {s : Post P} (h : s.Owns) (hd : s.mode = .disabled)
    {es : List (Event P)} (hn : Event.hardwareEnable ∉ es) : (s.run es).mode = .disabled := by
  induction es generalizing s with
  | nil => exact hd
  | cons e es ih =>
    rw [List.mem_cons, not_or] at hn
    obtain ⟨hne, hn⟩ := hn
    refine ih (h.step e) ?_ hn
    cases e with
    | hardwareEnable => exact absurd rfl hne
    | hardwareDisable =>
      have he : s.disable.2 = s := h.turnsOff.disabled hd
      exact (congrArg mode he).trans hd
    | lent call => exact (h.lend call).2.1.trans hd
    | outside p k r =>
      obtain ⟨hh, -⟩ := s.holder_outside p k r
      exact (congrArg Holder.mode hh).trans hd

/-- Where VMX is off, turning it off does nothing. -/
theorem Owns.disable_of_disabled {s : Post P} (h : s.Owns) (hd : s.mode = .disabled) :
    s.disable = (.ok (), s) := by
  have ht : s.disable.2 = s := h.turnsOff.disabled hd
  have hr : s.disable.1 = .ok () := h.turnsOff.ok.2 (ht.symm ▸ hd)
  exact Prod.ext hr ht

/-- After every run of a new holder on a processor outside of VMX operation the holder has its core,
in the mode that the processor is in; if CR4.VMXE was clear at first, it is clear whenever VMX is off.
Turning VMX on and off answers as the mode says. While neither VMCLEAR nor VMXOFF is about to fail,
turning it off succeeds, and does nothing from then on until VMX is turned on again. -/
theorem holder_keeps_its_core_along_runs {s : Post P} {id : UInt64} {caps : Capabilities}
    (hs : s.holder = .new id caps) (hr : s.footing.region = none) (es : List (Event P)) :
    (s.run es).Sound ∧
    (s.run es).TurnsOn (s.run es).enable.1 (s.run es).enable.2 ∧
    (s.run es).TurnsOff (s.run es).disable.1 (s.run es).disable.2 ∧
    (s.footing.cr4 &&& vmxe = 0 → (s.run es).Off) ∧
    (Grounded.pending .vmclear (s.run es).machine.processor = false →
      Grounded.pending .vmxoff (s.run es).machine.processor = false →
        (s.run es).disable.1 = .ok () ∧
        (s.run es).disable.2.footing.region = none ∧
        (s.footing.cr4 &&& vmxe = 0 → (s.run es).disable.2.footing.cr4 &&& vmxe = 0) ∧
        ∀ fs, Event.hardwareEnable ∉ fs →
          ((s.run es).disable.2.run fs).disable = (.ok (), (s.run es).disable.2.run fs)) := by
  have h0 : s.Owns := owns_of_new hs hr
  have h : (s.run es).Owns := h0.run es
  refine ⟨h.sound, h.turnsOn, h.turnsOff, fun h4 => Off.run (fun _ => h4) h0 es, fun hp hx => ?_⟩
  obtain ⟨c, hc, hst⟩ := h
  have hok : (s.run es).disable.1 = .ok () := Holder.hardwareDisable_ok hc hst.leans hp hx
  have hd : (s.run es).disable.2.mode = .disabled := (h0.run es).turnsOff.ok.1 hok
  have ht : (s.run es).disable.2.Owns := (h0.run es).step .hardwareDisable
  refine ⟨hok, ?_, fun h4 => ?_, fun fs hn => ?_⟩
  · have hi : (s.run es).disable.2.footing.region.isSome = true ↔ _ := ht.sound.operates
    rw [hd] at hi
    simpa using hi
  · have hoff : (s.run es).Off := Off.run (fun _ => h4) h0 es
    exact hoff.disable (h0.run es) hd
  · exact (ht.run fs).disable_of_disabled (ht.stays_disabled hd hn)

/-- A new holder whose processor fails its first VMXON and its first VMXOFF. -/
def hindered : Post Rig :=
  ⟨.new 0 Core.announced, .zero, {},
    ⟨((Rig.new {}).force .vmxon .invalid).force .vmxoff .invalid, {}⟩⟩

/-- The second attempt to turn VMX on succeeds, and so does the second to turn it off. -/
theorem hindered_holder_succeeds_in_the_end :
    (hindered.run [.hardwareEnable]).mode = .enabled ∧
      (hindered.run [.hardwareEnable, .hardwareEnable, .hardwareDisable]).mode = .root ∧
      (hindered.run [.hardwareEnable, .hardwareEnable, .hardwareDisable]).disable.1 = .ok () ∧
      (hindered.run [.hardwareEnable, .hardwareEnable, .hardwareDisable]).disable.2.footing.cr4 &&&
        vmxe = 0 := by
  obtain ⟨-, -, -, -, hoff⟩ := holder_keeps_its_core_along_runs (s := hindered) rfl rfl
    [.hardwareEnable, .hardwareEnable, .hardwareDisable]
  obtain ⟨hok, -, h4, -⟩ := hoff rfl rfl
  exact ⟨rfl, rfl, hok, h4 rfl⟩

end Post

end VmxControl
