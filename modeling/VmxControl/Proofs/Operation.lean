import VmxControl.Core.Invalidation
import VmxControl.Dispatch
import VmxControl.Proofs.Standing

/-!
# Operations and the standing

What a core in root operation can do to the standing of an emulated processor: for each operation,
the instructions that had an effect, in their order, and what became of the core. Where instructions
can be made to fail one after the other, the cases say which failures were pending.
-/

namespace VmxControl

namespace Machine

variable {α : Type}

/-- Only passive effects lie between the two. -/
def Quiet (s t : Machine Emulator) : Prop :=
  ∃ ops : List Op, (∀ o ∈ ops, o.Passive) ∧ t.standing = s.standing.applyAll ops

theorem Quiet.of_eq {s t : Machine Emulator} (h : t.standing = s.standing) : s.Quiet t :=
  ⟨[], by simp, h⟩

theorem quiet_attempt {s : Machine Emulator} {i : Emulator → Except VmFail α × Emulator} {o : Op}
    (h : s.processor.Settles o (i s.processor)) (ho : o.Passive) : s.Quiet (s.attempt i).2 := by
  obtain ⟨a, p, ha, hs⟩ | ⟨f, p, ha, hs⟩ := attempt_settles h
  · rw [ha]
    exact ⟨[o], fun x hx => List.mem_singleton.1 hx ▸ ho, hs⟩
  · rw [ha]
    exact .of_eq hs

end Machine

namespace Core.Root

theorem quiet_read (c : Root) (f : Field) (s : Machine Emulator) : s.Quiet (c.read f s).2 := by
  unfold read
  split
  · obtain ⟨r, p, hr, hs, -⟩ := s.processor.vmread_eq f.encoding
    have hv : Processor.vmread f.encoding s.processor = (r, p) := hr
    cases r with
    | ok v =>
      rw [Machine.attempt_ok hv]
      exact .of_eq hs
    | error g =>
      obtain ⟨why, q, ha, hq, -⟩ := Machine.attempt_error hv
      rw [ha]
      exact .of_eq (hq.trans hs)
  · exact .of_eq rfl

theorem quiet_write (c : Root) (f : Field) (v : UInt64) (s : Machine Emulator) :
    s.Quiet (c.write f v s).2 := by
  unfold write
  split
  · exact Machine.quiet_attempt (s.processor.settles_vmwrite _ _) trivial
  · exact .of_eq rfl

theorem quiet_invalidateEpt (c : Root) (pointer : UInt64) (scope : EptScope)
    (s : Machine Emulator) : s.Quiet (c.invalidateEpt pointer scope s).2 := by
  unfold invalidateEpt
  split
  · have hq := Machine.quiet_attempt (i := Processor.invept scope ⟨pointer, 0⟩)
      (s.processor.settles_invept scope ⟨pointer, 0⟩) trivial
    split
    · next t ht =>
      rw [ht] at hq
      exact hq
    · next e t ht =>
      rw [ht] at hq
      exact hq
  · exact .of_eq rfl

theorem quiet_invalidateVpid (c : Root) (tag : Tag) (scope : VpidScope) (address : UInt64)
    (s : Machine Emulator) : s.Quiet (c.invalidateVpid tag scope address s).2 := by
  unfold invalidateVpid
  split
  · split
    · exact .of_eq rfl
    · have hq := Machine.quiet_attempt (i := Processor.invvpid scope ⟨tag.value.toUInt64, address⟩)
        (s.processor.settles_invvpid scope ⟨tag.value.toUInt64, address⟩) trivial
      split
      · next t ht =>
        rw [ht] at hq
        exact hq
      · next e t ht =>
        rw [ht] at hq
        exact hq
  · exact .of_eq rfl

/-! ## The current structure -/

/-- In VMX operation a structure that was taken is cleared again unless a failure of VMCLEAR is
pending. -/
theorem unload_cases (c : Root) {region : Region .vmcs} (why : Failure) {s : Machine Emulator}
    {on : PhysAddr} (hon : s.standing.vmxonPtr = some on) (hne : on ≠ region.addr) :
    (s.processor.pending .vmclear = true ∧ (c.unload region why s).standing = s.standing) ∨
    (s.processor.pending .vmclear = false ∧
      (c.unload region why s).standing = s.standing.apply (.vmclear region.addr)) := by
  obtain ⟨hp, hf⟩ | ⟨hp, q, hq, hs⟩ := Emulator.vmclear_cases hon hne
  · obtain ⟨e, q, ha, hs, -⟩ := Machine.attempt_fails
      (s := s.note c.id (.hostStateFailed why)) (i := Processor.vmclear region.addr) hf
    refine .inl ⟨hp, ?_⟩
    rw [unload, ha]
    exact hs
  · have ha := Machine.attempt_ok
      (s := s.note c.id (.hostStateFailed why)) (i := Processor.vmclear region.addr) hq
    refine .inr ⟨hp, ?_⟩
    rw [unload, ha]
    exact hs

/-- What becomes of a structure that the processor has taken. The failures that decide it were
pending before the load. -/
theorem load_taken {c : Root} {region : Region .vmcs} {s : Machine Emulator} {p : Emulator}
    (hc : c.current = none)
    (hp : Processor.vmptrld region.addr s.host.memory s.processor = (.ok (), p)) :
    (s.processor.pending .hostState = false ∧
      ∃ t, c.load region s = (.ok (), { c with current := some ⟨region, false⟩ }, t) ∧
        t.standing = p.standing.apply .hostState) ∨
    (s.processor.pending .vmclear = false ∧
      ∃ f t, c.load region s = (.error ⟨region, f⟩, c, t) ∧
        t.standing = p.standing.apply (.vmclear region.addr)) ∨
    (s.processor.pending .hostState = true ∧ s.processor.pending .vmclear = true ∧
      ∃ f t, c.load region s = (.error ⟨region, f⟩, c, t) ∧ t.standing = p.standing) := by
  obtain ⟨⟨on, hon, hne⟩, he⟩ := Emulator.vmptrld_ok hp
  have ha := Machine.attempt_ok hp
  have hcur : p.current = some region.addr := by rw [he]
  have hinj : ∀ j, p.pending j = s.processor.pending j := fun j => by rw [he]; rfl
  obtain ⟨hh, hf⟩ | ⟨hh, q, hq, hqs⟩ := Emulator.writeHostState_cases hcur
  · obtain ⟨why, q, hw, hws, hwp⟩ := Machine.attempt_fails
      (s := { s with processor := p }) (i := Processor.writeHostState) hf
    have hl : c.load region s = (.error ⟨region, why⟩, c, c.unload region why ⟨q, s.host⟩) := by
      simp [load, hc, ha, hw]
    -- Finding the cause reads a field, which uses up no failure of VMCLEAR.
    have hqc : q.pending .vmclear = s.processor.pending .vmclear :=
      (hwp _ (by decide) (by decide)).trans (hinj _)
    have hqon : q.standing.vmxonPtr = some on := by
      rw [hws, Machine.standing_mk, he]
      exact hon
    obtain ⟨hv, hu⟩ | ⟨hv, hu⟩ := c.unload_cases (s := ⟨q, s.host⟩) why hqon hne
    · exact .inr (.inr ⟨hinj _ ▸ hh, hqc ▸ hv, why, _, hl, hu.trans hws⟩)
    · refine .inr (.inl ⟨hqc ▸ hv, why, _, hl, hu.trans ?_⟩)
      exact congrArg (Standing.apply · _) hws
  · have hw := Machine.attempt_ok
      (s := { s with processor := p }) (i := Processor.writeHostState) hq
    exact .inl ⟨hinj _ ▸ hh, Machine.note { s with processor := q } c.id (.loaded region.addr),
      by simp [load, hc, ha, hw], hqs⟩

/-- The ways in which loading ends. A structure is refused before the processor has taken it, or is
taken and cleared again, or is taken and stays taken because clearing fails as well. -/
theorem load_cases (c : Root) (region : Region .vmcs) (s : Machine Emulator) :
    (∃ f t, c.load region s = (.error ⟨region, f⟩, c, t) ∧ t.standing = s.standing) ∨
    c.current = none ∧
      ((s.processor.pending .hostState = false ∧
        ∃ t, c.load region s = (.ok (), { c with current := some ⟨region, false⟩ }, t) ∧
          t.standing = s.standing.applyAll [.vmptrld region.addr, .hostState]) ∨
      (s.processor.pending .vmclear = false ∧
        ∃ f t, c.load region s = (.error ⟨region, f⟩, c, t) ∧
          t.standing = s.standing.applyAll [.vmptrld region.addr, .vmclear region.addr]) ∨
      (s.processor.pending .hostState = true ∧ s.processor.pending .vmclear = true ∧
        ∃ f t, c.load region s = (.error ⟨region, f⟩, c, t) ∧
          t.standing = s.standing.applyAll [.vmptrld region.addr])) := by
  cases hc : c.current with
  | some cur => exact .inl ⟨.regionBusy, s, by simp [load, hc], rfl⟩
  | none =>
    obtain ⟨u, p, hp, hs⟩ | ⟨f, p, hp, hs⟩ := s.processor.settles_vmptrld region.addr s.host.memory
    · have hl := load_taken hc hp
      rw [hs] at hl
      exact .inr ⟨rfl, hl⟩
    · obtain ⟨why, q, ha, hq, -⟩ :=
        Machine.attempt_error (i := Processor.vmptrld region.addr s.host.memory) hp
      exact .inl ⟨why, Machine.note { s with processor := q } c.id (.vmptrldFailed region.addr why),
        by simp [load, hc, ha], hq.trans hs⟩

theorem clear_cases (c : Root) (region : Region .vmcs) (s : Machine Emulator) :
    (c.clear region s).2.standing = s.standing ∨
    (c.clear region s).2.standing = s.standing.apply (.vmclear region.addr) := by
  obtain ⟨u, p, ha, hs⟩ | ⟨f, p, ha, hs⟩ := Machine.attempt_settles
    (i := Processor.vmclear region.addr) (s.processor.settles_vmclear region.addr)
  · exact .inr (by simpa [clear, ha] using hs)
  · exact .inl (by simpa [clear, ha] using hs)

theorem clearCurrent_cases (c : Root) (s : Machine Emulator) :
    (∃ f t, c.clearCurrent s = (.error f, c, t) ∧ t.standing = s.standing) ∨
    ∃ cur, c.current = some cur ∧
      ∃ t, c.clearCurrent s = (.ok cur.region, { c with current := none }, t) ∧
        t.standing = s.standing.apply (.vmclear cur.region.addr) := by
  cases hc : c.current with
  | none => exact .inl ⟨.invalid, s, by simp [clearCurrent, hc], rfl⟩
  | some cur =>
    obtain ⟨u, p, ha, hs⟩ | ⟨f, p, ha, hs⟩ := Machine.attempt_settles
      (i := Processor.vmclear cur.region.addr) (s.processor.settles_vmclear cur.region.addr)
    · exact .inr ⟨cur, rfl, Machine.note { s with processor := p } c.id (.cleared cur.region.addr),
        by simp [clearCurrent, hc, ha], hs⟩
    · exact .inl ⟨f, { s with processor := p }, by simp [clearCurrent, hc, ha], hs⟩

/-! ## Entries -/

/-- What an entry comes to, for the core and for the standing. It is withheld from the processor, or
it is attempted and does not reach the guest; if it does, the core takes note of that only when the
reason of the exit can be read. -/
inductive Entering (c : Root) (k : Entry) (e : Emulator) : Root → Standing → Prop
  | withheld (h : ∀ cur, c.current = some cur → forbidden k cur ≠ none) :
      Entering c k e c e.standing
  | failed {cur : Current} (hc : c.current = some cur) (hk : forbidden k cur = none) :
      Entering c k e c (e.standing.attempt k)
  | seen {cur : Current} (hc : c.current = some cur) (hk : forbidden k cur = none)
      (hp : e.pending (.vmread Field.exitReason) = false) :
      Entering c k e c.setLaunched ((e.standing.attempt k).apply (.entered k))
  | unseen {cur : Current} (hc : c.current = some cur) (hk : forbidden k cur = none)
      (hp : e.pending (.vmread Field.exitReason) = true) :
      Entering c k e c ((e.standing.attempt k).apply (.entered k))

/-- An entry that the core lets through is attempted, whatever becomes of it. -/
theorem Entering.attempts {c c' : Root} {k : Entry} {e : Emulator} {st : Standing} {cur : Current}
    (h : c.Entering k e c' st) (hc : c.current = some cur) (hk : forbidden k cur = none) :
    st.attempts k = e.standing.attempts k + 1 := by
  cases h with
  | withheld h => exact absurd hk (h cur hc)
  | failed | seen | unseen => cases k <;> rfl

/-- The word of an exit is read back as it was left. -/
theorem afterExit_cases (c : Root) {s : Machine Emulator} {vmcs : PhysAddr} {raw : RawExit}
    (hc : s.processor.current = some vmcs)
    (hr : s.processor.fields.get (vmcs, Field.exitReason) = raw.word.toUInt64) :
    (s.processor.pending (.vmread Field.exitReason) = true ∧
      ∃ f t, c.afterExit s = (.error f, c, t) ∧ t.standing = s.standing) ∨
    (s.processor.pending (.vmread Field.exitReason) = false ∧
      c.afterExit s = (.ok raw, if raw.entryFailure then c else c.setLaunched, s)) := by
  obtain ⟨hp, hf⟩ | ⟨hp, hv⟩ := Emulator.vmread_cases hc Field.exitReason
  · obtain ⟨why, q, ha, hs, -⟩ :=
      Machine.attempt_fails (i := Processor.vmread Field.exitReason) hf
    exact .inl ⟨hp, why, { s with processor := q }, by simp only [afterExit, ha], hs⟩
  · have ha := Machine.attempt_ok (i := Processor.vmread Field.exitReason) hv
    refine .inr ⟨hp, ?_⟩
    simp only [afterExit, ha, hr, UInt32.toUInt32_toUInt64]

theorem enter_cases (c : Root) (k : Entry) (regs : Registers) (s : Machine Emulator) :
    ∃ r c' t, c.enter k regs s = (.ok r, c', regs, t) ∧
      c.Entering k s.processor c' t.standing := by
  cases hc : c.current with
  | none =>
    refine ⟨.error .invalid, c, s, by simp only [enter, hc], .withheld fun cur hcur => ?_⟩
    cases hc.symm.trans hcur
  | some cur =>
    cases hk : forbidden k cur with
    | some e =>
      refine ⟨.error e, c, s, by simp only [enter, hc, hk], .withheld fun x hx => ?_⟩
      cases hc.symm.trans hx
      simp [hk]
    | none =>
      obtain ⟨f, p, hp, hs⟩ | ⟨vmcs, raw, p, hp, hcur, hraw, hinj, hs⟩ :=
        (s.processor.count k).tryEnter_cases k regs
      · have he : Processor.enter k regs s.processor = (.ok (.error f), regs, p) := by
          show s.processor.enter k regs = _
          simp only [Emulator.enter, hp]
        obtain ⟨why, q, hd, hq, -⟩ := Machine.diagnose_eq { s with processor := p } f
        refine ⟨.error why, c, ⟨q, s.host⟩, by simp only [enter, hc, hk, he, hd], ?_⟩
        have hst : q.standing = s.processor.standing.attempt k :=
          (hq.trans hs).trans (s.processor.standing_count k)
        rw [Machine.standing_mk, hst]
        exact .failed hc hk
      · have he : Processor.enter k regs s.processor = (.ok (.ok ()), regs, p) := by
          show s.processor.enter k regs = _
          simp only [Emulator.enter, hp]
        have hpend : p.pending (.vmread Field.exitReason) =
            s.processor.pending (.vmread Field.exitReason) := by
          rw [← s.processor.pending_count k, Emulator.pending, hinj]
          rfl
        rw [s.processor.standing_count] at hs
        obtain ⟨hv, why, t, ha, ht⟩ | ⟨hv, ha⟩ :=
          c.afterExit_cases (s := { s with processor := p }) hcur hraw
        · refine ⟨.error why, c, t, by simp only [enter, hc, hk, he, ha], ?_⟩
          rw [ht, Machine.standing_mk, hs]
          split
          · exact .failed hc hk
          · exact .unseen hc hk (hpend ▸ hv)
        · refine ⟨.ok raw, if raw.entryFailure then c else c.setLaunched, { s with processor := p },
            by simp only [enter, hc, hk, he, ha], ?_⟩
          rw [Machine.standing_mk, hs]
          split
          · exact .failed hc hk
          · exact .seen hc hk (hpend ▸ hv)

end Core.Root

namespace Running

/-- Taking the time leaves a processor that an entry cannot tell from the one before. -/
theorem entering_now {c c' : Core.Root} {k : Entry} {e : Emulator} {st : Standing}
    (h : c.Entering k (Processor.timestamp e).2 c' st) : c.Entering k e c' st := by
  cases h with
  | withheld h => exact .withheld h
  | failed hc hk => exact .failed hc hk
  | seen hc hk hp => exact .seen hc hk hp
  | unseen hc hk hp => exact .unseen hc hk hp

@[simp] theorem core_count (w : Running Emulator) (raw : RawExit) (entered time : UInt64) :
    (w.count raw entered time).core = w.core := by
  unfold count
  split <;> rfl

@[simp] theorem standing_count (w : Running Emulator) (raw : RawExit) (entered time : UInt64) :
    (w.count raw entered time).machine.standing = w.machine.standing := by
  unfold count
  split <;> rfl

theorem report_standing (w : Running Emulator) (raw : RawExit) (time : UInt64) :
    (w.report raw time).2.core = w.core ∧
      (w.report raw time).2.machine.standing = w.machine.standing := by
  obtain ⟨r, p, hr, hs, -⟩ := w.machine.processor.vmread_eq Field.exitQualification
  cases r with
  | ok v =>
    have ha := Machine.attempt_ok (i := Processor.vmread Field.exitQualification) hr
    rw [report, ha]
    exact ⟨rfl, hs⟩
  | error f =>
    obtain ⟨why, q, ha, hq, -⟩ :=
      Machine.attempt_error (i := Processor.vmread Field.exitQualification) hr
    rw [report, ha]
    exact ⟨rfl, hq.trans hs⟩

/-- Counting an entry and reporting its exit add nothing to what the entry does. -/
theorem enter_entering (w : Running Emulator) (k : Entry) :
    w.core.Entering k w.machine.processor (w.enter k).2.core (w.enter k).2.machine.standing := by
  obtain ⟨r, c, t, he, hx⟩ := w.now.2.core.enter_cases k w.now.2.regs w.now.2.machine
  have hx := entering_now hx
  cases r with
  | error f =>
    simp only [enter, he]
    exact hx
  | ok raw =>
    have hr := report_standing
    simp only [enter, he, hr, core_count, standing_count]
    exact hx

theorem run_eq (w : Running Emulator) :
    w.run = w.enter (if w.core.launched then .resume else .launch) := rfl

/-- Whatever the handler makes of the exit, core and processor are as the run left them. -/
theorem dispatch_standing {β : Type} (w : Running Emulator) (h : Handler β) :
    (w.dispatch h).2.core = w.run.2.core ∧
      (w.dispatch h).2.machine = w.run.2.machine := by
  unfold dispatch
  split
  · next w' hw => rw [hw]; exact ⟨rfl, rfl⟩
  · next w' hw => rw [hw]; exact ⟨rfl, rfl⟩
  · next w' hw =>
    rw [hw]
    split <;> exact ⟨rfl, rfl⟩

end Running

end VmxControl
