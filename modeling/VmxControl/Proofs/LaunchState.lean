import VmxControl.Proofs.CurrentStructure
import VmxControl.Proofs.Mode

/-!
# The launch state and the processor

Core and processor each keep the launch state of the current structure. They agree up to one kind of
event: a launch enters the guest, but the reason of the exit cannot be read. The core then takes the
launch for a failed one, and the next launch is one that the processor refuses.
-/

namespace VmxControl

namespace Core

/-- Only a structure that the core holds can be launched, and it is if the core says so. -/
def Marks (l : Store PhysAddr Bool) : Core → Prop
  | .disabled _ | .enabled _ => ∀ a, l.get a = false
  | .root c =>
    (∀ a, l.get a = true → ∃ cur, c.current = some cur ∧ cur.region.addr = a) ∧
    ∀ cur, c.current = some cur → cur.launched = true → l.get cur.region.addr = true

namespace Root

/-- The core and the processor agree whether the current structure is launched. -/
def LaunchAgrees (l : Store PhysAddr Bool) (c : Root) : Prop :=
  ∀ cur, c.current = some cur → c.launched = l.get cur.region.addr

theorem launched_eq {c : Root} {cur : Current} (hc : c.current = some cur) :
    c.launched = cur.launched := by
  simp [launched, hc]

theorem current_setLaunched {c : Root} {cur : Current} (hc : c.current = some cur) :
    c.setLaunched.current = some { cur with launched := true } := by
  simp [setLaunched, hc]

/-- The entry that the core lets through is the one that it takes for the right one. -/
theorem launched_of_allowed {k : Entry} {cur : Current} (h : forbidden k cur = none) :
    cur.launched = (k == .resume) := by
  cases k <;> cases hl : cur.launched <;> simp_all [forbidden]

/-- A launch enters the guest while the reason of its exit cannot be read. -/
def Unnoticed (e : Emulator) (ops : List Op) : Prop :=
  Op.entered .launch ∈ ops ∧ e.pending (.vmread Field.exitReason) = true

theorem not_unnoticed {e : Emulator} {ops : List Op} (h : ∀ o ∈ ops, ¬ o.Hosting) :
    ¬ Unnoticed e ops :=
  fun hu => h _ hu.1 trivial

theorem launched_none {l : Store PhysAddr Bool} {c : Root} (hm : (root c).Marks l)
    (hc : c.current = none) (a : PhysAddr) : l.get a = false := by
  refine Bool.eq_false_iff.2 fun h => ?_
  obtain ⟨cur, hcur, -⟩ := hm.1 a h
  cases hc.symm.trans hcur

/-- The structure that a core holds may be launched. -/
theorem marks_put {l : Store PhysAddr Bool} {c d : Root} {cur cur' : Current}
    (hm : (root c).Marks l) (hc : c.current = some cur) (hd : d.current = some cur')
    (hr : cur'.region = cur.region) : (root d).Marks (l.put cur.region.addr true) := by
  refine ⟨fun a ha => ?_, fun x hx _ => ?_⟩
  · by_cases he : a = cur.region.addr
    · exact ⟨cur', hd, by rw [hr, he]⟩
    · rw [Store.get_put_other _ _ he] at ha
      obtain ⟨x, hx, rfl⟩ := hm.1 a ha
      cases hc.symm.trans hx
      exact absurd rfl he
  · cases hd.symm.trans hx
    rw [hr, Store.get_put_same]

/-- An entry that reaches the guest launches the structure that the core holds. -/
theorem launched_entered {st : Standing} {c : Root} {cur : Current} (ht : (root c).Tracks st)
    (hc : c.current = some cur) (k : Entry) :
    ((st.attempt k).apply (.entered k)).launched = st.launched.put cur.region.addr true := by
  have hcur : (st.attempt k).current = some cur.region.addr := ht cur hc
  simp only [Standing.apply, hcur, Option.elim_some]
  rfl

namespace Moves

variable {c : Root} {e : Emulator} {f : Effect Root} {st : Standing}

theorem marks (h : c.Moves e f) (ht : (root c).Tracks st) (hm : (root c).Marks st.launched) :
    (root f.core).Marks (f.after st).launched := by
  cases h with
  | quiet ho =>
    have hl := (st.alike_passive ho).launched
    exact hl.symm ▸ hm
  | refuse | fail | strand => exact hm
  | load hc =>
    refine ⟨fun a ha => ?_, fun cur hcur hl => ?_⟩
    · cases (launched_none hm hc a).symm.trans ha
    · cases hcur
      cases hl
  | @undo region hc =>
    have hl : ∀ a, (st.launched.put region.addr false).get a = false := fun a => by
      simp [Store.get_put, launched_none hm hc]
    refine ⟨fun a ha => ?_, fun cur hcur => ?_⟩
    · cases (hl a).symm.trans ha
    · cases hc.symm.trans hcur
  | @clear region hh =>
    refine ⟨fun a ha => ?_, fun cur hcur hl => ?_⟩
    · have hx : (st.launched.put region.addr false).get a = true := ha
      rw [Store.get_put] at hx
      split at hx
      · cases hx
      · exact hm.1 a hx
    · exact (Store.get_put_other _ _ (holds_eq_false hcur hh)).trans (hm.2 cur hcur hl)
  | @clearCurrent cur hc =>
    refine ⟨fun a ha => ?_, fun cur hcur => by cases hcur⟩
    have hx : (st.launched.put cur.region.addr false).get a = true := ha
    rw [Store.get_put] at hx
    split at hx
    · cases hx
    · next hne =>
      obtain ⟨cur', hcur', ha'⟩ := hm.1 a hx
      cases hc.symm.trans hcur'
      exact absurd ha'.symm hne
  | @enter k cur hc =>
    have hl := launched_entered ht hc k
    exact hl.symm ▸ marks_put hm hc (current_setLaunched hc) rfl
  | @unseen k cur hc =>
    have hl := launched_entered ht hc k
    exact hl.symm ▸ marks_put hm hc hc rfl

/-- A call keeps the agreement unless it is a launch that goes unnoticed. -/
theorem launchAgrees_iff (h : c.Moves e f) (ht : (root c).Tracks st)
    (hm : (root c).Marks st.launched) (ha : c.LaunchAgrees st.launched) :
    f.core.LaunchAgrees (f.after st).launched ↔ ¬ Unnoticed e f.ops := by
  cases h with
  | quiet ho =>
    have hl := (st.alike_passive ho).launched
    exact iff_of_true (hl.symm ▸ ha) (not_unnoticed fun o hm => (ho o hm).not_hosting)
  | refuse | fail => exact iff_of_true ha (by simp [Unnoticed])
  | load hc =>
    refine iff_of_true (fun cur hcur => ?_) (by simp [Unnoticed])
    exact (launched_eq hcur).trans (by cases hcur; exact (launched_none hm hc _).symm)
  | strand hc | undo hc =>
    exact iff_of_true (fun cur hcur => by cases hc.symm.trans hcur) (by simp [Unnoticed])
  | clear hh =>
    refine iff_of_true (fun cur hcur => ?_) (by simp [Unnoticed])
    exact (ha cur hcur).trans (Store.get_put_other _ _ (holds_eq_false hcur hh)).symm
  | clearCurrent => exact iff_of_true (fun cur hcur => by cases hcur) (by simp [Unnoticed])
  | @enter k cur hc hk hp =>
    have hl := launched_entered ht hc k
    refine iff_of_true (fun x hx => ?_) (by simp [Unnoticed, hp])
    cases (current_setLaunched hc).symm.trans hx
    rw [launched_eq hx]
    exact (congrArg (·.get cur.region.addr) hl |>.trans (Store.get_put_same _ _ _)).symm
  | @unseen k cur hc hk hp =>
    have hg : (((st.attempt k).apply (.entered k)).launched).get cur.region.addr = true := by
      rw [launched_entered ht hc k, Store.get_put_same]
    have hl : c.launched = (k == .resume) := (launched_eq hc).trans (launched_of_allowed hk)
    cases k with
    | launch =>
      refine iff_of_false (fun h => ?_) (by simp [Unnoticed, hp])
      cases (hl.symm.trans (h cur hc)).trans hg
    | resume =>
      refine iff_of_true (fun x hx => ?_) (by simp [Unnoticed])
      cases hc.symm.trans hx
      exact hl.trans hg.symm

/-- Only an entry that the core lets through is sent. -/
theorem allowed (h : c.Moves e f) {k : Entry} (hs : f.sent = some k) :
    ∃ cur, c.current = some cur ∧ forbidden k cur = none := by
  cases h with
  | fail hc hk | enter hc hk | unseen hc hk =>
    cases hs
    exact ⟨_, hc, hk⟩
  | quiet | refuse | load | undo | strand | clear | clearCurrent => cases hs

end Moves

end Root

end Core

/-- The processor refuses the entry that does not fit the launch state. -/
theorem Emulator.misplaced?_ne_none (e : Emulator) (k : Entry) (vmcs : PhysAddr) :
    e.misplaced? k vmcs ≠ none ↔ e.launched.get vmcs = (k == .launch) := by
  cases k <;> cases hl : e.launched.get vmcs <;> simp [misplaced?, hl]

namespace Station

variable {s : Station}

def Marks (s : Station) : Prop := ∀ c, s.core = some c → c.Marks s.standing.launched

/-- A core in root operation says of its current structure what the processor says. -/
def LaunchAgrees (s : Station) : Prop :=
  ∀ c, s.core = some (.root c) → c.LaunchAgrees s.standing.launched

/-- A launch that reaches the guest without the core noticing. -/
def Unnoticed (s : Station) (e : Event) : Prop :=
  Core.Root.Unnoticed s.machine.processor (s.executes e)

/-- The processor refuses this entry because of the launch state of the current structure. -/
def Misplaces (s : Station) (k : Entry) : Prop :=
  ∃ vmcs, s.standing.current = some vmcs ∧ s.machine.processor.misplaced? k vmcs ≠ none

theorem Moves.marks {e : Event} {f : Effect (Option Core)} (hm : s.Moves e f) (ht : s.Tracks)
    (h : s.Marks) (c : Core) (hc : f.core = some c) : c.Marks (f.after s.standing).launched := by
  cases hm with
  | stay => exact h c hc
  | check hd ho =>
    have hl := (s.standing.alike_passive ho).launched
    exact hl.symm ▸ h c hc
  | enable hd ho =>
    have hl := (s.standing.alike_passive_cr4 ho (s.standing.cr4 ||| vmxe)).launched
    have hx := h _ hd
    cases hc
    exact hl.symm ▸ hx
  | disable he =>
    have hx := h _ he
    cases hc
    exact hx
  | enterRoot he =>
    have hx := h _ he
    cases hc
    refine ⟨fun a ha => ?_, fun cur hcur => ?_⟩
    · cases (hx a).symm.trans ha
    · cases hcur
  | exitRoot hr hn =>
    have hx := h _ hr
    cases hc
    exact Core.Root.launched_none hx hn
  | inRoot hr hm =>
    cases hc
    exact hm.marks (ht _ hr) (h _ hr)
  | drop | trap => cases hc

theorem marks_step (e : Event) (ht : s.Tracks) (h : s.Marks) : (s.step e).Marks :=
  step_of_moves (Q := fun st c => c.Marks st.launched) fun _ hm => hm.marks ht h

/-- A core that starts with nothing current and nothing launched knows of every structure that is
launched later. -/
theorem marks_run {c : Core.Disabled} (hc : s.core = some (.disabled c))
    (hn : s.standing.current = none) (hl : ∀ a, s.standing.launched.get a = false)
    (es : List Event) : (s.run es).Marks := by
  have h0 : s.Tracks ∧ s.Marks := by
    refine ⟨fun d hd => ?_, fun d hd => ?_⟩
    all_goals cases hc.symm.trans hd
    · exact hn
    · exact hl
  exact (run_keeps (I := fun s => s.Tracks ∧ s.Marks)
    (fun s e h => ⟨tracks_step e h.1, marks_step e h.1 h.2⟩) h0 es).2

theorem Moves.launchAgrees_iff {e : Event} {f : Effect (Option Core)} (hm : s.Moves e f)
    (ht : s.Tracks) (hk : s.Marks) (ha : s.LaunchAgrees) :
    (∀ c, f.core = some (.root c) → c.LaunchAgrees (f.after s.standing).launched) ↔
      ¬ Core.Root.Unnoticed s.machine.processor f.ops := by
  obtain ⟨c, g, hr, hg, rfl⟩ | ⟨-, -, ho⟩ := hm.root_or_plain
  · rw [← hg.launchAgrees_iff (ht _ hr) (hk _ hr) (ha c hr)]
    exact ⟨fun h => h _ rfl, fun h c hc => by cases hc; exact h⟩
  · refine iff_of_true (fun c hc => ?_) (Core.Root.not_unnoticed ho)
    cases hm with
    | stay => exact ha c hc
    | check hd => cases hc.symm.trans hd
    | enterRoot =>
      cases hc
      exact fun cur hcur => by cases hcur
    | inRoot hr hm =>
      cases hc
      exact (hm.launchAgrees_iff (ht _ hr) (hk _ hr) (ha _ hr)).2 (Core.Root.not_unnoticed ho)
    | enable | disable | exitRoot | drop | trap => cases hc

theorem launchAgrees_step (e : Event) (ht : s.Tracks) (hk : s.Marks) (ha : s.LaunchAgrees) :
    (s.step e).LaunchAgrees ↔ ¬ s.Unnoticed e := by
  obtain ⟨f, hm, -, hc, hs⟩ := s.step_moves e
  rw [LaunchAgrees, hc, hs, Unnoticed, executes_eq hs]
  exact hm.launchAgrees_iff ht hk ha

/-- A processor that was idle is so again whenever its core is disabled, and a core that is made on
it then starts where the first one did. -/
theorem idle_of_disabled {c d : Core.Disabled} (hc : s.core = some (.disabled c))
    (h : s.standing.Idle) {es : List Event} (hd : (s.run es).core = some (.disabled d)) :
    (s.run es).standing.Idle := by
  have h0 : s.ModeAgrees ∧ s.Tracks ∧ s.Marks := by
    refine ⟨fun x hx => ?_, fun x hx => ?_, fun x hx => ?_⟩
    all_goals cases hc.symm.trans hx
    · exact h.off
    · exact h.noCurrent
    · exact h.noLaunched
  obtain ⟨hm, ht, hk⟩ := run_keeps (I := fun s => s.ModeAgrees ∧ s.Tracks ∧ s.Marks)
    (fun s e h => ⟨modeAgrees_step e h.1, tracks_step e h.2.1, marks_step e h.2.1 h.2.2⟩) h0 es
  exact ⟨hm _ hd, ht _ hd, hk _ hd⟩

/-- An entry that is sent is refused for the launch state exactly when the two sides disagree. -/
theorem misplaces_iff {e : Event} {k : Entry} (ht : s.Tracks) (hs : s.Sends e k) :
    s.Misplaces k ↔ ¬ s.LaunchAgrees := by
  obtain ⟨f, hm, -, -, hst⟩ := s.step_moves e
  have hsent := (sends_iff hst k).1 hs
  obtain ⟨c, g, hr, hg, rfl⟩ | ⟨-, hn, -⟩ := hm.root_or_plain
  · obtain ⟨cur, hc, hk⟩ := hg.allowed hsent
    have hcur : s.standing.current = some cur.region.addr := ht _ hr cur hc
    have hl : c.launched = (k == .resume) :=
      (Core.Root.launched_eq hc).trans (Core.Root.launched_of_allowed hk)
    have hmis : s.Misplaces k ↔ s.standing.launched.get cur.region.addr = (k == .launch) := by
      rw [Misplaces, hcur]
      simp only [Option.some.injEq, exists_eq_left', Emulator.misplaced?_ne_none]
      rfl
    have hagr : s.LaunchAgrees ↔ (k == .resume) = s.standing.launched.get cur.region.addr := by
      refine ⟨fun h => hl.symm.trans (h c hr cur hc), fun h d hd x hx => ?_⟩
      cases hr.symm.trans hd
      cases hc.symm.trans hx
      exact hl.trans h
    rw [hmis, hagr]
    cases k <;> cases s.standing.launched.get cur.region.addr <;> decide
  · cases hn.symm.trans hsent

/-- A dispatcher that runs the current structure sends the entry that the core takes for the right
one. -/
theorem run_sends {c : Core.Root} {cur : Current} (hr : s.core = some (.root c))
    (hc : c.current = some cur) :
    s.Sends (.call (.inRoot .run)) (if c.launched then .resume else .launch) := by
  have hk : Core.Root.forbidden (if c.launched then .resume else .launch) cur = none := by
    rw [Core.Root.launched_eq hc]
    cases hl : cur.launched <;> simp [Core.Root.forbidden, hl]
  have ha := ((s.running c).enter_entering _).attempts hc hk
  have hst : (s.step (.call (.inRoot .run))).standing = ((s.running c).run).2.machine.standing := by
    simp only [step, act, call, hr]
    rfl
  rw [Sends, hst, Running.run_eq]
  exact fun h => Nat.succ_ne_self _ (ha.symm.trans h)

/-- Along a run that starts with nothing current and nothing launched, core and processor agree on
the launch state exactly as long as no launch goes unnoticed. An entry that is sent is refused for
the launch state exactly when they disagree, and a dispatcher always sends one. -/
theorem launch_agrees_throughout_iff {c : Core.Disabled} (hc : s.core = some (.disabled c))
    (hn : s.standing.current = none) (hl : ∀ a, s.standing.launched.get a = false)
    (es : List Event) :
    ((∀ xs, xs <+: es → (s.run xs).LaunchAgrees) ↔
      ∀ xs e, xs ++ [e] <+: es → ¬ (s.run xs).Unnoticed e) ∧
    (∀ e k, (s.run es).Sends e k → ((s.run es).Misplaces k ↔ ¬ (s.run es).LaunchAgrees)) ∧
    ∀ c cur, (s.run es).core = some (.root c) → c.current = some cur →
      (s.run es).Sends (.call (.inRoot .run)) (if c.launched then .resume else .launch) := by
  have h0 : s.Tracks ∧ s.Marks := by
    refine ⟨fun d hd => ?_, fun d hd => ?_⟩
    · cases hc.symm.trans hd
      exact hn
    · cases hc.symm.trans hd
      exact hl
  have hi (s : Station) (e : Event) (h : s.Tracks ∧ s.Marks) :
      (s.step e).Tracks ∧ (s.step e).Marks :=
    ⟨tracks_step e h.1, marks_step e h.1 h.2⟩
  have ha : s.LaunchAgrees := fun d hd => by cases hc.symm.trans hd
  refine ⟨throughout_iff hi (fun s e h => launchAgrees_step e h.1 h.2) h0 ha es, fun e k hs => ?_,
    fun d cur hd hcur => run_sends hd hcur⟩
  exact misplaces_iff (run_keeps hi h0 es).1 hs

/-- A structure is loaded. -/
def loaded : List Event := toRoot ++ [loadStructure]

/-- It is launched, and the reason of its exit is not to be read. -/
def blinded : List Event :=
  loaded ++ [.influence (.inject (.vmread Field.exitReason) 12), .call (.inRoot (.enter .launch))]

/-- After a launch that goes unnoticed the two sides disagree, and a dispatcher that runs the
structure launches it again, which the processor refuses. -/
theorem unnoticed_launch_is_repeated :
    ¬ (fresh.run blinded).LaunchAgrees ∧ (fresh.run blinded).Misplaces .launch ∧
      ((fresh.run blinded).step (.call (.inRoot .run))).standing.launches = 2 := by
  refine ⟨fun h => ?_, ⟨0x101000, rfl, ?_⟩, rfl⟩
  · cases h ⟨⟨0, Core.announced⟩, stamped .vmxon 0x100000, some ⟨stamped .vmcs 0x101000, false⟩⟩ rfl
      ⟨stamped .vmcs 0x101000, false⟩ rfl
  · exact (Emulator.misplaced?_ne_none _ _ _).2 rfl

/-- A dispatcher launches a structure that was just loaded, and the processor takes the launch. -/
theorem loaded_structure_is_launched :
    (fresh.run loaded).Sends (.call (.inRoot .run)) .launch ∧
      ¬ (fresh.run loaded).Misplaces .launch := by
  obtain ⟨-, hmis, hrun⟩ := launch_agrees_throughout_iff (s := fresh) rfl rfl (fun _ => rfl) loaded
  have ha : (fresh.run loaded).LaunchAgrees := fun c hc cur hcur => by
    cases hc
    cases hcur
    rfl
  have hs := hrun _ ⟨stamped .vmcs 0x101000, false⟩ rfl rfl
  exact ⟨hs, fun hm => (hmis _ _ hs).1 hm ha⟩

end Station

end VmxControl
