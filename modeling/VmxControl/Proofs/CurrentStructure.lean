import VmxControl.Proofs.Moves

/-!
# The current structure and the processor

The structure that a core holds as current is the one that is current on its processor, up to one
kind of event: a structure is loaded while neither its host state can be written nor VMCLEAR works.
It is then refused and handed back, and stays current on the processor.
-/

namespace VmxControl

namespace Core

def region? (c : Core) : Option (Region .vmcs) := c.root?.bind Root.region?

/-- The structure that the core holds is current. Without one in root operation, the processor is
taken at its word. -/
def Tracks (st : Standing) : Core → Prop
  | .disabled _ | .enabled _ => st.current = none
  | .root c => ∀ cur, c.current = some cur → st.current = some cur.region.addr

namespace Root

/-- The processor has the structure that the core holds, or none. -/
def Agrees (st : Standing) (c : Root) : Prop := st.current = c.region?.map (·.addr)

theorem Agrees.of_none {st : Standing} {c : Root} (h : c.Agrees st) (hc : c.current = none) :
    st.current = none := by
  simpa [Agrees, region?, hc] using h

theorem Agrees.of_some {st : Standing} {c : Root} {cur : Current} (h : c.Agrees st)
    (hc : c.current = some cur) : st.current = some cur.region.addr := by
  simpa [Agrees, region?, hc] using h

@[simp] theorem region?_setLaunched (c : Root) : c.setLaunched.region? = c.region? := by
  cases hc : c.current <;> simp [setLaunched, region?, hc]

theorem holds_eq_false {c : Root} {cur : Current} {a : PhysAddr} (hc : c.current = some cur)
    (h : c.holds a = false) : cur.region.addr ≠ a := by
  simpa [holds, region?, hc] using h

/-- A structure is taken and stays taken, though neither can it be loaded nor cleared. -/
def Stranding (e : Emulator) (ops : List Op) : Prop :=
  (∃ a, Op.vmptrld a ∈ ops) ∧ e.pending .hostState = true ∧ e.pending .vmclear = true

theorem not_stranding {e : Emulator} {ops : List Op} (h : ∀ o ∈ ops, ¬ o.Hosting) :
    ¬ Stranding e ops := by
  rintro ⟨⟨a, ha⟩, -⟩
  exact h _ ha trivial

namespace Moves

variable {c : Root} {e : Emulator} {f : Effect Root} {st : Standing}

theorem tracks (h : c.Moves e f) (ht : (root c).Tracks st) : (root f.core).Tracks (f.after st) := by
  intro cur hcur
  cases h with
  | quiet ho => exact (st.alike_passive ho).current.trans (ht cur hcur)
  | refuse | fail | unseen => exact ht cur hcur
  | load => cases hcur; rfl
  | undo hc | strand hc => cases hc.symm.trans hcur
  | clear hh =>
    have hne := holds_eq_false hcur hh
    have hst := ht cur hcur
    simp [Effect.after, Standing.apply, hst, hne]
  | clearCurrent => cases hcur
  | enter hc =>
    simp only [setLaunched, hc, Option.map_some, Option.some.injEq] at hcur
    subst hcur
    have hst := ht _ hc
    exact hst

/-- A call keeps the agreement unless it strands a structure. -/
theorem agrees_iff (h : c.Moves e f) (ha : c.Agrees st) :
    f.core.Agrees (f.after st) ↔ ¬ Stranding e f.ops := by
  cases h with
  | quiet ho =>
    exact iff_of_true ((st.alike_passive ho).current.trans ha)
      (not_stranding fun o hm => (ho o hm).not_hosting)
  | refuse | fail | unseen => exact iff_of_true ha (by simp [Stranding])
  | load hc hp => exact iff_of_true rfl (by simp [Stranding, hp])
  | undo hc hp =>
    refine iff_of_true ?_ (by simp [Stranding, hp])
    simp [Agrees, Effect.after, Standing.apply, region?, hc]
  | strand hc hh hp =>
    refine iff_of_false ?_ (by simp [Stranding, hh, hp])
    simp [Agrees, Effect.after, Standing.apply, region?, hc]
  | clear hh =>
    refine iff_of_true ?_ (by simp [Stranding])
    cases hc : c.current with
    | none => simp [Agrees, Effect.after, Standing.apply, region?, hc, ha.of_none hc]
    | some cur =>
      simp [Agrees, Effect.after, Standing.apply, region?, hc, ha.of_some hc, holds_eq_false hc hh]
  | clearCurrent hc =>
    refine iff_of_true ?_ (by simp [Stranding])
    simp [Agrees, Effect.after, Standing.apply, region?, ha.of_some hc]
  | enter =>
    refine iff_of_true ?_ (by simp [Stranding])
    rw [Agrees, region?_setLaunched]
    exact ha

/-- A structure that comes back to the caller is still current only if the call strands it. -/
theorem leaks_iff (h : c.Moves e f) (ha : c.Agrees st) :
    (∃ r, f.back = some r ∧ (f.after st).current = some r.addr) ↔ Stranding e f.ops := by
  cases h with
  | quiet ho => exact iff_of_false (by simp) (not_stranding fun o hm => (ho o hm).not_hosting)
  | load hc hp => exact iff_of_false (by simp) (by simp [Stranding, hp])
  | clear | fail | enter | unseen => exact iff_of_false (by simp) (by simp [Stranding])
  | refuse hh =>
    refine iff_of_false ?_ (by simp [Stranding])
    cases hc : c.current with
    | none => simp [Effect.after, ha.of_none hc]
    | some cur => simp [Effect.after, ha.of_some hc, holds_eq_false hc hh]
  | undo hc hp =>
    refine iff_of_false ?_ (by simp [Stranding, hp])
    simp [Effect.after, Standing.apply]
  | strand hc hh hp =>
    refine iff_of_true ?_ (by simp [Stranding, hh, hp])
    simp [Effect.after, Standing.apply]
  | clearCurrent hc =>
    refine iff_of_false ?_ (by simp [Stranding])
    simp [Effect.after, Standing.apply, ha.of_some hc]

/-- VMPTRLD is executed only while no structure is current. -/
theorem none_of_vmptrld (h : c.Moves e f) (ha : c.Agrees st) {a : PhysAddr}
    (hm : Op.vmptrld a ∈ f.ops) : st.current = none := by
  cases h with
  | quiet ho => exact (ho _ hm).elim
  | load hc | undo hc | strand hc => exact ha.of_none hc
  | refuse | clear | clearCurrent | fail | enter | unseen => simp at hm

end Moves

end Root

end Core

namespace Station

variable {s : Station}

def Tracks (s : Station) : Prop := ∀ c, s.core = some c → c.Tracks s.standing

/-- The same of a core in root operation only. -/
def RootTracks (s : Station) : Prop :=
  ∀ c, s.core = some (.root c) → (Core.root c).Tracks s.standing

/-- The structure that a core in root operation holds is the one that is current. -/
def CurrentAgrees (s : Station) : Prop := ∀ c, s.core = some (.root c) → c.Agrees s.standing

/-- A load that the processor takes while neither the host state can be written nor VMCLEAR
works. -/
def Strands (s : Station) (e : Event) : Prop :=
  Core.Root.Stranding s.machine.processor (s.executes e)

/-- A structure is handed back to the caller and is still current on the processor. -/
def Leaks (s : Station) (e : Event) : Prop :=
  ∃ r, s.back e = some r ∧ (s.step e).standing.current = some r.addr

theorem Moves.tracks {e : Event} {f : Effect (Option Core)} (hm : s.Moves e f) (h : s.Tracks)
    (c : Core) (hc : f.core = some c) : c.Tracks (f.after s.standing) := by
  cases hm with
  | stay => exact h c hc
  | check hd ho =>
    have hst : s.standing.current = none := h _ hd
    cases hc.symm.trans hd
    exact (s.standing.alike_passive ho).current.trans hst
  | enable hd ho =>
    have hst : s.standing.current = none := h _ hd
    cases hc
    exact (s.standing.alike_passive_cr4 ho _).current.trans hst
  | disable he =>
    have hst : s.standing.current = none := h _ he
    cases hc
    exact hst
  | enterRoot | exitRoot =>
    cases hc
    simp [Core.Tracks, Effect.after, Standing.apply]
  | inRoot hr hm =>
    cases hc
    exact hm.tracks (h _ hr)
  | drop | trap => cases hc

theorem tracks_step (e : Event) (h : s.Tracks) : (s.step e).Tracks :=
  step_of_moves fun _ hm => hm.tracks h

theorem Tracks.rootTracks (h : s.Tracks) : s.RootTracks := fun _ hc => h _ hc

/-- A core enters root operation without a structure, whatever is current by then. -/
theorem Moves.rootTracks {e : Event} {f : Effect (Option Core)} (hm : s.Moves e f)
    (h : s.RootTracks) (c : Core.Root) (hc : f.core = some (.root c)) :
    (Core.root c).Tracks (f.after s.standing) := by
  cases hm with
  | stay => exact h c hc
  | check hd => cases hc.symm.trans hd
  | enterRoot =>
    cases hc
    simp [Core.Tracks]
  | inRoot hr hm =>
    cases hc
    exact hm.tracks (h _ hr)
  | enable | disable | exitRoot | drop | trap => cases hc

theorem rootTracks_step (e : Event) (h : s.RootTracks) : (s.step e).RootTracks := by
  obtain ⟨f, hm, -, hc, hs⟩ := s.step_moves e
  intro c hr
  rw [hs]
  exact hm.rootTracks h c (hc ▸ hr)

theorem Moves.currentAgrees_iff {e : Event} {f : Effect (Option Core)} (hm : s.Moves e f)
    (ht : s.Tracks) (ha : s.CurrentAgrees) :
    (∀ c, f.core = some (.root c) → c.Agrees (f.after s.standing)) ↔
      ¬ Core.Root.Stranding s.machine.processor f.ops := by
  obtain ⟨c, g, hr, hg, rfl⟩ | ⟨-, -, ho⟩ := hm.root_or_plain
  · rw [← hg.agrees_iff (ha c hr)]
    exact ⟨fun h => h _ rfl, fun h c hc => by cases hc; exact h⟩
  · refine iff_of_true (fun c hc => ?_) (Core.Root.not_stranding ho)
    cases hm with
    | stay => exact ha c hc
    | check hd => cases hc.symm.trans hd
    | enterRoot he =>
      cases hc
      exact ht _ he
    | inRoot hr hm =>
      cases hc
      exact (hm.agrees_iff (ha _ hr)).2 (Core.Root.not_stranding ho)
    | enable | disable | exitRoot | drop | trap => cases hc

theorem currentAgrees_step (e : Event) (ht : s.Tracks) (ha : s.CurrentAgrees) :
    (s.step e).CurrentAgrees ↔ ¬ s.Strands e := by
  obtain ⟨f, hm, -, hc, hs⟩ := s.step_moves e
  rw [CurrentAgrees, hc, hs, Strands, executes_eq hs]
  exact hm.currentAgrees_iff ht ha

theorem leaks_iff (e : Event) (ha : s.CurrentAgrees) : s.Leaks e ↔ s.Strands e := by
  obtain ⟨f, hm, hb, -, hs⟩ := s.step_moves e
  rw [Leaks, hb, hs, Strands, executes_eq hs]
  obtain ⟨c, g, hr, hg, rfl⟩ | ⟨hn, -, ho⟩ := hm.root_or_plain
  · exact hg.leaks_iff (ha c hr)
  · exact iff_of_false (by simp [hn]) (Core.Root.not_stranding ho)

theorem none_of_vmptrld {e : Event} {a : PhysAddr} (ha : s.CurrentAgrees)
    (hx : Op.vmptrld a ∈ s.executes e) : s.standing.current = none := by
  obtain ⟨f, hm, -, -, hs⟩ := s.step_moves e
  rw [executes_eq hs] at hx
  obtain ⟨c, g, hr, hg, rfl⟩ | ⟨-, -, ho⟩ := hm.root_or_plain
  · exact hg.none_of_vmptrld (ha c hr) hx
  · exact absurd trivial (ho _ hx)

/-- Along a run that starts with no current structure, core and processor agree on the current
structure exactly as long as no event strands one. While they agree, a structure comes back to the
caller and is still current exactly when the event strands it, and VMPTRLD is executed only while no
structure is current. -/
theorem current_agrees_throughout_iff {c : Core.Disabled} (hc : s.core = some (.disabled c))
    (hn : s.standing.current = none) (es : List Event) :
    ((∀ xs, xs <+: es → (s.run xs).CurrentAgrees) ↔
      ∀ xs e, xs ++ [e] <+: es → ¬ (s.run xs).Strands e) ∧
    ((s.run es).CurrentAgrees → ∀ e,
      ((s.run es).Leaks e ↔ (s.run es).Strands e) ∧
      ∀ a, Op.vmptrld a ∈ (s.run es).executes e → (s.run es).standing.current = none) := by
  have ht : s.Tracks := by
    intro d hd
    cases hc.symm.trans hd
    exact hn
  have ha : s.CurrentAgrees := fun d hd => by cases hc.symm.trans hd
  refine ⟨?_, fun ha e => ⟨leaks_iff e ha, fun a hx => none_of_vmptrld ha hx⟩⟩
  exact throughout_iff (fun _ e h => tracks_step e h) (fun _ e => currentAgrees_step e) ht ha es

/-- In root operation, about to fail at the host state and then at VMCLEAR. -/
def doomed : List Event :=
  toRoot ++ [.influence (.inject .hostState 26), .influence (.inject .vmclear 0)]

/-- A load whose host state cannot be set up leaves its structure current when clearing fails. -/
theorem refused_structure_stays_current :
    (fresh.run doomed).back loadStructure = some (stamped .vmcs 0x101000) ∧
      ((fresh.run doomed).step loadStructure).standing.current = some 0x101000 ∧
      ¬ ((fresh.run doomed).step loadStructure).CurrentAgrees := by
  refine ⟨rfl, rfl, fun h => ?_⟩
  cases h ⟨⟨0, Core.announced⟩, stamped .vmxon 0x100000, none⟩ rfl

/-- The same load leaks its structure, and one with neither failure pending leaks none. -/
theorem leaks_of_doomed_load :
    (fresh.run doomed).Leaks loadStructure ∧ ¬ (fresh.run toRoot).Leaks loadStructure := by
  obtain ⟨-, hd⟩ := current_agrees_throughout_iff (s := fresh) rfl rfl doomed
  obtain ⟨-, ht⟩ := current_agrees_throughout_iff (s := fresh) rfl rfl toRoot
  have hda : (fresh.run doomed).CurrentAgrees := fun c hc => by cases hc; rfl
  have hta : (fresh.run toRoot).CurrentAgrees := fun c hc => by cases hc; rfl
  refine ⟨((hd hda _).1).2 ⟨⟨0x101000, List.mem_singleton.2 rfl⟩, rfl, rfl⟩, fun hl => ?_⟩
  obtain ⟨-, hp, -⟩ := ((ht hta _).1).1 hl
  cases hp

end Station

end VmxControl
