import VmxControl.Proofs.Holding

/-!
# Orderly and abrupt shutdown

A core can be taken out of VMX operation step by step, each step giving back what it no longer needs,
or it is dropped. Where the orderly way succeeds, the other comes to the same: the processor executes
the same instructions and the same frames are returned, in the same order. Only the notes differ. And
it succeeds unless VMCLEAR or VMXOFF is about to fail, wherever the run of a holder has led.
-/

namespace VmxControl

variable {P α : Type}

namespace Machine

/-- The two differ in their notes at most. -/
structure Matches (s t : Machine P) : Prop where
  processor : t.processor = s.processor
  memory : t.host.memory = s.host.memory

namespace Matches

variable {s t : Machine P}

protected theorem refl (s : Machine P) : s.Matches s := ⟨rfl, rfl⟩

theorem note_left (h : s.Matches t) (id : UInt64) (n : CoreNote) : (s.note id n).Matches t :=
  ⟨h.processor, h.memory⟩

theorem note_right (h : s.Matches t) (id : UInt64) (n : CoreNote) : s.Matches (t.note id n) :=
  ⟨h.processor, h.memory⟩

theorem release (h : s.Matches t) (f : Frame) : (s.release f).Matches (t.release f) :=
  ⟨h.processor, congrArg (Memory.giveBack · f.addr) h.memory⟩

variable [Processor P]

theorem clearVmxe (h : s.Matches t) : s.clearVmxe.Matches t.clearVmxe := by
  refine ⟨?_, h.memory⟩
  simp only [Machine.clearVmxe, writeCr4, h.processor]

/-- An instruction that succeeds does so on both. -/
theorem exec_of_attempt (h : s.Matches t) {i : P → Except VmFail α × P} {a : α} {u : Machine P}
    (hi : s.attempt i = (.ok a, u)) : ∃ v, t.exec i = (.ok a, v) ∧ u.Matches v := by
  obtain ⟨hp, hh⟩ := of_attempt_ok hi
  refine ⟨{ t with processor := u.processor }, ?_, ⟨rfl, ?_⟩⟩
  · simp only [exec, h.processor, hp]
  · rw [hh]
    exact h.memory

end Matches

end Machine

variable [Processor P]

theorem Core.Root.of_exitRoot_ok {c : Root} {e : Enabled} {r : Region .vmxon} {s t : Machine P}
    (h : c.exitRoot s = (.ok (e, r), t)) :
    r = c.vmxon ∧ ∃ u, s.attempt Processor.vmxoff = (.ok (), u) ∧ t = u.note c.id .leftRoot := by
  unfold exitRoot at h
  split at h
  · cases h
  · split at h
    · next u hu =>
      cases h
      exact ⟨rfl, u, hu, rfl⟩
    · cases h

namespace Holder

variable {s t u : Machine P}

/-- Clearing that succeeds is what a drop begins with. -/
theorem clearCurrent_matches {c d : Core.Root} (h : s.Matches u)
    (hc : clearCurrent c s = (.ok (), d, t)) :
    d.vmxon = c.vmxon ∧ t.Matches (c.dropCurrent u) := by
  cases hk : c.current with
  | none =>
    simp only [clearCurrent, hk, Option.isSome_none, Bool.false_eq_true, ↓reduceIte] at hc
    cases hc
    refine ⟨rfl, ?_⟩
    simpa only [Core.Root.dropCurrent, hk] using h
  | some cur =>
    simp only [clearCurrent, hk, Option.isSome_some, ↓reduceIte, Core.Root.clearCurrent] at hc
    rcases ha : s.attempt (Processor.vmclear cur.region.addr) with ⟨e | ⟨⟩, v⟩
    · rw [ha] at hc
      cases hc
    · rw [ha] at hc
      cases hc
      obtain ⟨w, hw, hm⟩ := h.exec_of_attempt ha
      refine ⟨rfl, ?_⟩
      simp only [Core.Root.dropCurrent, hk, hw]
      exact (hm.note_left _ _).release _

theorem leaveRoot_matches {c : Core.Root} {h : Holder} (hl : leaveRoot c s = (.ok (), h, t)) :
    (∃ d, h.core = some (.disabled d)) ∧ t.Matches (c.drop s) := by
  rcases hc : clearCurrent c s with ⟨e | ⟨⟩, d, v⟩
  · simp only [leaveRoot, hc] at hl
    cases hl
  · have h0 : s.Matches (s.note c.id .droppedInRoot) := (Machine.Matches.refl s).note_right _ _
    obtain ⟨hx, hm⟩ := clearCurrent_matches h0 hc
    rcases he : d.exitRoot v with ⟨r | ⟨e, region⟩, w⟩
    · simp only [leaveRoot, hc, he] at hl
      cases hl
    · obtain ⟨rfl, u, ha, rfl⟩ := Core.Root.of_exitRoot_ok he
      obtain ⟨x, hw, hm⟩ := hm.exec_of_attempt ha
      simp only [leaveRoot, hc, he, Core.Enabled.disable] at hl
      cases hl
      refine ⟨⟨_, rfl⟩, ?_⟩
      simp only [Core.Root.drop, hw]
      rw [hx]
      exact ((hm.note_left _ _).clearVmxe.note_left _ _).release _

/-- Where turning VMX off succeeds it comes to the same as a drop in its place. -/
theorem hardwareDisable_matches {h h' : Holder} (hd : h.hardwareDisable s = (.ok (), h', t)) :
    (∃ d, h'.core = some (.disabled d)) ∧ t.Matches (h.drop s) := by
  cases hc : h.core with
  | none =>
    simp only [hardwareDisable, hc] at hd
    cases hd
  | some core =>
    cases core with
    | disabled c =>
      simp only [hardwareDisable, hc] at hd
      cases hd
      refine ⟨⟨c, hc⟩, ?_⟩
      simp only [drop, hc, Core.drop]
      exact .refl s
    | enabled c =>
      simp only [hardwareDisable, hc, Core.Enabled.disable] at hd
      cases hd
      refine ⟨⟨_, rfl⟩, ?_⟩
      simp only [drop, hc, Core.drop, Core.Enabled.drop]
      exact (Machine.Matches.refl _).note_left _ _
    | root c =>
      simp only [hardwareDisable, hc] at hd
      simpa only [drop, hc, Core.drop] using leaveRoot_matches hd

theorem drop_of_disabled {h : Holder} {d : Core.Disabled} (hc : h.core = some (.disabled d))
    (s : Machine P) : h.drop s = s := by
  simp only [drop, hc, Core.drop]

end Holder

/-! ## Runs -/

namespace Post

variable [Grounded P] {s : Post P}

/-- The holder has its core, whatever state the processor was in when the core was made. -/
def Manned (s : Post P) : Prop := ∃ c, s.holder.core = some c ∧ c.Leans s.footing

theorem Manned.enable (h : s.Manned) : s.enable.2.Manned := by
  obtain ⟨c, hc, hl⟩ := h
  cases c with
  | root c =>
    simp only [Post.enable, Holder.hardwareEnable, hc]
    exact ⟨_, hc, hl⟩
  | enabled c =>
    obtain ⟨d, t, he, ht⟩ | ⟨e, t, he, ht⟩ := Holder.enterRoot_cases c hl
    all_goals simp only [Post.enable, Holder.hardwareEnable, hc, he]
    · exact ⟨_, rfl, ht⟩
    · have hx : t.footing.cr4 &&& vmxe ≠ 0 := by
        rw [ht]
        exact hl
      exact ⟨_, rfl, hx⟩
  | disabled c =>
    obtain ⟨t, he, ht⟩ | ⟨f, t, he, ht⟩ := c.enable_footing s.machine
    · have hx : t.footing.cr4 &&& vmxe ≠ 0 := by
        rw [ht]
        exact or_vmxe _
      obtain ⟨d, u, hr, hu⟩ | ⟨e, u, hr, hu⟩ := Holder.enterRoot_cases ⟨c.toIdentity⟩ hx
      all_goals simp only [Post.enable, Holder.hardwareEnable, hc, he, hr]
      · exact ⟨_, rfl, hu⟩
      · have hy : u.footing.cr4 &&& vmxe ≠ 0 := by rwa [hu]
        exact ⟨_, rfl, hy⟩
    · simp only [Post.enable, Holder.hardwareEnable, hc, he]
      exact ⟨_, rfl, trivial⟩

theorem Manned.disable (h : s.Manned) : s.disable.2.Manned := by
  obtain ⟨c, hc, hl⟩ := h
  cases c with
  | disabled c =>
    simp only [Post.disable, Holder.hardwareDisable, hc]
    exact ⟨_, hc, trivial⟩
  | enabled c =>
    simp only [Post.disable, Holder.hardwareDisable, hc]
    exact ⟨_, rfl, trivial⟩
  | root c =>
    obtain ⟨d, t, he, -⟩ | ⟨e, d, t, he, hk⟩ := Holder.leaveRoot_cases c s.machine
    all_goals simp only [Post.disable, Holder.hardwareDisable, hc, he]
    · exact ⟨_, rfl, trivial⟩
    · exact ⟨_, rfl, hk.stands hl⟩

theorem Manned.lend (h : s.Manned) (call : RootCall) : (s.lend call).Manned := by
  obtain ⟨c, hc, hl⟩ := h
  cases c with
  | disabled c | enabled c =>
    have he : s.lend call = s := by simp [Post.lend, Holder.root?, hc, Core.root?]
    exact he.symm ▸ ⟨_, hc, hl⟩
  | root c =>
    obtain ⟨h, -⟩ := Owns.lend ⟨_, hc, hl⟩ call
    obtain ⟨d, hd, hs⟩ := h
    exact ⟨d, hd, hs.leans⟩

theorem Manned.step (h : s.Manned) (e : Event P) : (s.step e).Manned := by
  cases e with
  | hardwareEnable => exact h.enable
  | hardwareDisable => exact h.disable
  | lent call => exact h.lend call
  | outside p k r =>
    obtain ⟨c, hc, hl⟩ := h
    obtain ⟨hh, hf⟩ := s.holder_outside p k r
    exact ⟨c, hh ▸ hc, hf ▸ hl⟩

theorem Manned.run (h : s.Manned) (es : List (Event P)) : (s.run es).Manned := by
  induction es generalizing s with
  | nil => exact h
  | cons e es ih => exact ih (h.step e)

/-- The machine once the holder was dropped. -/
def dropped (s : Post P) : Machine P := s.holder.drop s.machine

/-- After every run of a new holder, while neither VMCLEAR nor VMXOFF is about to fail: turning VMX off
succeeds, and dropping the holder after that leaves the same processor and the same memory, with its
traffic, as dropping it at once. -/
theorem drop_matches_shutdown {id : UInt64} {caps : Capabilities} (hs : s.holder = .new id caps)
    (es : List (Event P))
    (hp : Grounded.pending .vmclear (s.run es).machine.processor = false)
    (hx : Grounded.pending .vmxoff (s.run es).machine.processor = false) :
    (s.run es).disable.1 = .ok () ∧ (s.run es).disable.2.mode = .disabled ∧
      (s.run es).disable.2.dropped.Matches (s.run es).dropped := by
  have h0 : s.Manned := ⟨.disabled (Core.new id caps), by rw [hs]; rfl, trivial⟩
  obtain ⟨c, hc, hl⟩ := h0.run es
  have hok : (s.run es).disable.1 = .ok () := Holder.hardwareDisable_ok hc hl hp hx
  obtain ⟨⟨d, hd⟩, hm⟩ := Holder.hardwareDisable_matches
    (h := (s.run es).holder) (s := (s.run es).machine) (Prod.ext hok rfl)
  have hd : (s.run es).disable.2.holder.core = some (.disabled d) := hd
  refine ⟨hok, mode_of_core hd, ?_⟩
  rw [dropped, Holder.drop_of_disabled hd]
  exact hm

/-- A new holder on a new processor, and memory that has handed out a frame for a control structure. -/
def supplied : Post Emulator :=
  ⟨.new 0 Core.announced, .zero, {}, ⟨Emulator.new,
    { memory := (({} : Memory).handOut 0).2.writeWord 0x100000 Emulator.revision }⟩⟩

/-- The structure in that frame is loaded and its guest launched. -/
def launching : List (Event Emulator) :=
  [.hardwareEnable, .lent (.load (Station.stamped .vmcs 0x100000)), .lent (.enter .launch)]

/-- With a guest that was launched, both ways return the two frames and end outside of VMX operation. -/
theorem drop_matches_after_launch :
    (supplied.run launching).machine.processor.current = some 0x100000 ∧
      (supplied.run launching).disable.2.dropped.Matches (supplied.run launching).dropped ∧
      (supplied.run launching).dropped.processor.vmxonPtr = none ∧
      (supplied.run launching).dropped.host.memory.traffic.take 2 =
        [.returned 0x101000, .returned 0x100000] :=
  ⟨rfl, (drop_matches_shutdown (s := supplied) rfl launching rfl rfl).2.2, rfl, rfl⟩

end Post

end VmxControl
