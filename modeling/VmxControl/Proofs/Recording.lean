import VmxControl.Proofs.Projection
import VmxControl.Proofs.Refusal

/-!
# What a recorder shows of a failure

The control plane runs a command, and when it fails reads the number of the failure. On a recorder
either the command has been carried out and nothing was noted, or it was noted together with the
processor that it was given to, and all of that processor is spared. Unless reading the number is
made to fail as well, nothing else is noted and the cause is the one that the processor had.
-/

namespace VmxControl

/-- The number of a failure can be read, for no failure of this waits. -/
def Emulator.Legible (e : Emulator) : Prop := e.pending (.vmread Field.instructionError) = false

namespace Emulator.Legible

variable {e e' : Emulator}

theorem next (h : e.Legible) (c : Command) : (e.next c).Legible := by
  rw [Legible, pending, injected_next]
  exact h

theorem of_spares (h : e.Legible) (hs : e.Spares e') : e'.Legible := hs.not_pending h

end Emulator.Legible

/-- The cause that is to be reported for a failure of the command. -/
def Emulator.report (e : Emulator) (c : Command) : Failure :=
  match e.number? c with
  | some n => if e.current.isSome then .valid ⟨n⟩ else .invalid
  | none => .invalid

namespace Emulator

variable {e : Emulator} {c : Command}

theorem report_of_some {n : UInt32} (h : e.number? c = some n) :
    e.report c = if e.current.isSome then .valid ⟨n⟩ else .invalid := by
  simp only [report, h]

theorem report_of_none (h : e.number? c = none) : e.report c = .invalid := by
  simp only [report, h]

end Emulator

/-- The recorded machine after a command that was carried out. -/
def Machine.done (s : Machine Recorder) (c : Command) : Machine Recorder :=
  ⟨⟨s.processor.emulator.next c, s.processor.failures⟩, s.host⟩

/-- The command has failed, and `why` is the cause that was found. -/
structure Machine.Failed (s : Machine Recorder) (c : Command) (why : Failure)
    (t : Machine Recorder) : Prop where
  memory : t.host.memory = s.host.memory
  spares : s.processor.emulator.Spares t.processor.emulator
  noted : (c, s.processor.emulator) :: s.processor.failures <:+ t.processor.failures
  faithful : s.processor.emulator.Legible →
    t.processor.failures = (c, s.processor.emulator) :: s.processor.failures ∧
      why = s.processor.emulator.report c

theorem Machine.Failed.note {s t : Machine Recorder} {c : Command} {why : Failure}
    (h : s.Failed c why t) (id : UInt64) (n : CoreNote) : s.Failed c why (t.note id n) :=
  ⟨h.memory, h.spares, h.noted, h.faithful⟩

namespace Emulator.Declines

variable {e e' : Emulator} {c : Command}

theorem report_of_invalid (h : e.Declines (e.number? c) .invalid e') : e.report c = .invalid := by
  have hf := h.flag
  cases hn : e.number? c with
  | none => exact report_of_none hn
  | some n =>
    rw [report_of_some hn]
    cases hc : e.current with
    | none => rfl
    | some a => simp [hn, hc] at hf

/-- The number is in the current structure. -/
theorem report_of_valid (h : e.Declines (e.number? c) .valid e') :
    ∃ n a, e.report c = .valid ⟨n⟩ ∧ e'.current = some a ∧
      e'.fields.get (a, Field.instructionError) = n.toUInt64 := by
  have hf := h.flag
  cases hn : e.number? c with
  | none => simp [hn] at hf
  | some n =>
    cases hc : e.current with
    | none => simp [hn, hc] at hf
    | some a =>
      have hr : e.report c = .valid ⟨n⟩ := (report_of_some hn).trans (by simp [hc])
      exact ⟨n, a, hr, h.current.trans hc, h.number n a hn hc⟩

end Emulator.Declines

namespace Recorder

variable {α : Type} {c : Command} {i : Emulator → Except VmFail α × Emulator} {r : Recorder}
  {e : Emulator}

theorem watch_ok {a : α} (h : i r.emulator = (.ok a, e)) :
    r.watch c i = (.ok a, ⟨e, r.failures⟩) := by
  simp only [watch, h]

theorem watch_error {f : VmFail} (h : i r.emulator = (.error f, e)) :
    r.watch c i = (.error f, ⟨e, (c, r.emulator) :: r.failures⟩) := by
  simp only [watch, h]

end Recorder

namespace Machine

variable {α : Type} {s : Machine Recorder} {c : Command} {f : VmFail} {e' : Emulator}

/-- The cause of a failure is found. -/
theorem failed_diagnose
    (hd : s.processor.emulator.Declines (s.processor.emulator.number? c) f e') :
    ∃ why t, diagnose ⟨⟨e', (c, s.processor.emulator) :: s.processor.failures⟩, s.host⟩ f =
      (why, t) ∧ s.Failed c why t := by
  let r : Recorder := ⟨e', (c, s.processor.emulator) :: s.processor.failures⟩
  cases f with
  | invalid =>
    exact ⟨.invalid, ⟨r, s.host⟩, rfl, rfl, hd.toSpares, List.suffix_rfl,
      fun _ => ⟨rfl, hd.report_of_invalid.symm⟩⟩
  | valid =>
    obtain ⟨n, a, hr, hc, hw⟩ := hd.report_of_valid
    obtain ⟨-, hv⟩ | ⟨f, q, hv, hq⟩ := e'.obeys_vmread Field.instructionError
    · have hx : Processor.vmread Field.instructionError r = (.ok n.toUInt64, r) := by
        have hword : e'.word Field.instructionError = n.toUInt64 := by
          simp only [Emulator.word, hc, Option.elim_some, hw]
        rw [hword] at hv
        exact Recorder.watch_ok hv
      refine ⟨.valid ⟨n⟩, ⟨r, s.host⟩, ?_, rfl, hd.toSpares, List.suffix_rfl,
        fun _ => ⟨rfl, hr.symm⟩⟩
      simp only [diagnose, exec, r, hx, UInt32.toUInt32_toUInt64]
    · have hx : Processor.vmread Field.instructionError r =
          (.error f, ⟨q, (.vmread Field.instructionError, e') :: r.failures⟩) :=
        Recorder.watch_error hv
      refine ⟨.valid ⟨0⟩, ⟨⟨q, (.vmread Field.instructionError, e') :: r.failures⟩, s.host⟩, ?_,
        rfl, hd.toSpares.trans hq.toSpares, List.suffix_cons _ _, fun hp => ?_⟩
      · simp only [diagnose, exec, r, hx]
      · obtain ⟨hy, -⟩ | ⟨-, hy⟩ := Emulator.vmread_cases hc Field.instructionError
        · cases (hd.not_pending hp).symm.trans hy
        · cases hv.symm.trans hy

/-- The result of running a command: it is carried out, or it has failed. -/
def Attempts (s : Machine Recorder) (c : Command) (a : α)
    (r : Except Failure α × Machine Recorder) : Prop :=
  r = (.ok a, s.done c) ∨ ∃ why t, r = (.error why, t) ∧ s.Failed c why t

theorem attempts_watch {i : Emulator → Except VmFail α × Emulator} {a : α}
    (h : s.processor.emulator.Obeys (s.processor.emulator.number? c)
      (a, s.processor.emulator.next c) (i s.processor.emulator)) :
    s.Attempts c a (s.attempt (Recorder.watch c i)) := by
  obtain ⟨-, hi⟩ | ⟨f, e', hi, hd⟩ := h
  · have hx := Recorder.watch_ok (c := c) hi
    exact .inl (by simp only [attempt, exec, hx, done])
  · have hx := Recorder.watch_error (c := c) hi
    obtain ⟨why, t, ht, hf⟩ := failed_diagnose hd
    exact .inr ⟨why, t, by simp only [attempt, exec, hx, ht], hf⟩

/-- The result of what runs one command at most. -/
inductive Runs (s : Machine Recorder) : Except Failure α × Machine Recorder → Prop
  | ok {a : α} {t : Machine Recorder} (h : t.processor.failures = s.processor.failures) :
      Runs s (.ok a, t)
  | withheld {why : Failure} : Runs s (.error why, s)
  | failed {x : Command} {why : Failure} {t : Machine Recorder} (h : s.Failed x why t) :
      Runs s (.error why, t)

theorem Attempts.runs {a : α} {r : Except Failure α × Machine Recorder} (h : s.Attempts c a r) :
    s.Runs r := by
  obtain rfl | ⟨why, t, rfl, hf⟩ := h
  · exact .ok rfl
  · exact .failed hf

theorem attempts_vmxoff (s : Machine Recorder) :
    s.Attempts .vmxoff () (s.attempt Processor.vmxoff) :=
  attempts_watch s.processor.emulator.obeys_vmxoff

theorem attempts_vmptrld (s : Machine Recorder) (a : PhysAddr) (m : Memory) :
    s.Attempts (.vmptrld a m) () (s.attempt (Processor.vmptrld a m)) :=
  attempts_watch (s.processor.emulator.obeys_vmptrld a m)

theorem attempts_vmclear (s : Machine Recorder) (a : PhysAddr) :
    s.Attempts (.vmclear a) () (s.attempt (Processor.vmclear a)) :=
  attempts_watch (s.processor.emulator.obeys_vmclear a)

theorem attempts_vmread (s : Machine Recorder) (f : UInt32) :
    s.Attempts (.vmread f) (s.processor.emulator.word f) (s.attempt (Processor.vmread f)) :=
  attempts_watch (s.processor.emulator.obeys_vmread f)

theorem attempts_vmwrite (s : Machine Recorder) (f : UInt32) (v : UInt64) :
    s.Attempts (.vmwrite f v) () (s.attempt (Processor.vmwrite f v)) :=
  attempts_watch (s.processor.emulator.obeys_vmwrite f v)

theorem attempts_invept (s : Machine Recorder) (k : EptScope) (d : Descriptor) :
    s.Attempts (.invept k d) () (s.attempt (Processor.invept k d)) :=
  attempts_watch (s.processor.emulator.obeys_invept k d)

theorem attempts_invvpid (s : Machine Recorder) (k : VpidScope) (d : Descriptor) :
    s.Attempts (.invvpid k d) () (s.attempt (Processor.invvpid k d)) :=
  attempts_watch (s.processor.emulator.obeys_invvpid k d)

theorem attempts_writeHostState (s : Machine Recorder) :
    s.Attempts .writeHostState () (s.attempt Processor.writeHostState) :=
  attempts_watch s.processor.emulator.obeys_writeHostState

end Machine

/-! ## Operations of more than one command -/

namespace Core

/-- Entering root operation traps, is carried out, or fails. -/
theorem Enabled.enterRoot_recorded (c : Enabled) (region : Region .vmxon) (s : Machine Recorder) :
    (∃ trap t, c.enterRoot region s = (.error trap, t) ∧
      t.processor.failures = s.processor.failures) ∨
    (∃ d, c.enterRoot region s =
      (.ok (.ok d), (s.done (.vmxon region.addr s.host.memory)).note c.id .enteredRoot)) ∨
    ∃ why t, c.enterRoot region s = (.ok (.error ⟨(c, region), why⟩), t) ∧
      s.Failed (.vmxon region.addr s.host.memory) why t := by
  let e := s.processor.emulator
  by_cases hx : e.cr4 &&& vmxe = 0
  · have hv : e.vmxon region.addr s.host.memory = .error .vmxonWithoutVmxe := if_pos hx
    have hr : Processor.vmxon region.addr s.host.memory s.processor =
        .error .vmxonWithoutVmxe := congrArg (Except.map _) hv
    exact .inl ⟨.vmxonWithoutVmxe, c.drop (s.release region.frame),
      by simp only [enterRoot, hr], rfl⟩
  · obtain ⟨r, hv, ho⟩ := Emulator.obeys_vmxon (a := region.addr) (m := s.host.memory) hx
    have hr : Processor.vmxon region.addr s.host.memory s.processor =
        .ok (s.processor.watch (.vmxon region.addr s.host.memory) fun _ => r) :=
      congrArg (Except.map _) hv
    obtain ⟨-, hi⟩ | ⟨f, e', hi, hd⟩ := ho
    · rw [Recorder.watch_ok hi] at hr
      exact .inr (.inl ⟨⟨c.toIdentity, region, none⟩, by simp only [enterRoot, hr]; rfl⟩)
    · rw [Recorder.watch_error hi] at hr
      obtain ⟨why, t, ht, hf⟩ := Machine.failed_diagnose hd
      exact .inr (.inr ⟨why, t.note c.id (.vmxonFailed region.addr why),
        by simp only [enterRoot, hr, ht], hf.note _ _⟩)

namespace Root

theorem unload_recorded (c : Root) (region : Region .vmcs) (why : Failure)
    (s : Machine Recorder) :
    c.unload region why s = (s.note c.id (.hostStateFailed why)).done (.vmclear region.addr) ∨
    ∃ e, s.Failed (.vmclear region.addr) e (c.unload region why s) := by
  obtain hx | ⟨e, t, hx, hf⟩ :=
    (s.note c.id (.hostStateFailed why)).attempts_vmclear region.addr
  · exact .inl (by simp only [unload, hx])
  · have hu : c.unload region why s = t.note c.id (.vmclearFailed region.addr e) := by
      simp only [unload, hx]
    exact .inr ⟨e, hu ▸ ⟨hf.memory, hf.spares, hf.noted, hf.faithful⟩⟩

/-- A structure is refused before or after the processor has taken it, or it is loaded. -/
theorem load_recorded (c : Root) (region : Region .vmcs) (s : Machine Recorder) :
    c.load region s = (.error ⟨region, .regionBusy⟩, c, s) ∨
    (∃ why t, c.load region s = (.error ⟨region, why⟩, c, t) ∧
      s.Failed (.vmptrld region.addr s.host.memory) why t) ∨
    (∃ why t, c.load region s = (.error ⟨region, why⟩, c, c.unload region why t) ∧
      c.current = none ∧
      (s.done (.vmptrld region.addr s.host.memory)).Failed .writeHostState why t) ∨
    ∃ d, c.load region s = (.ok (), d,
      ((s.done (.vmptrld region.addr s.host.memory)).done .writeHostState).note c.id
        (.loaded region.addr)) := by
  cases hc : c.current with
  | some cur => exact .inl (by simp [load, hc])
  | none =>
    obtain hx | ⟨why, t, hx, hf⟩ := s.attempts_vmptrld region.addr s.host.memory
    · obtain hy | ⟨why, t, hy, hf⟩ :=
        (s.done (.vmptrld region.addr s.host.memory)).attempts_writeHostState
      · exact .inr (.inr (.inr ⟨_, by simp [load, hc, hx, hy]; rfl⟩))
      · exact .inr (.inr (.inl ⟨why, t, by simp [load, hc, hx, hy], rfl, hf⟩))
    · exact .inr (.inl ⟨why, t.note c.id (.vmptrldFailed region.addr why), by simp [load, hc, hx],
        hf.note _ _⟩)

/-- An entry is withheld, or it is refused, or the guest has run. The reason of the exit can then be
read or not. -/
theorem enter_recorded (c : Root) (k : Entry) (regs : Registers) (s : Machine Recorder) :
    (∃ e, c.enter k regs s = (.ok (.error e), c, regs, s)) ∨
    (∃ why t, c.enter k regs s = (.ok (.error why), c, regs, t) ∧
      s.Failed (.enter k regs) why t) ∨
    (∃ why t, c.enter k regs s = (.ok (.error why), c, regs, t) ∧
      (s.done (.enter k regs)).Failed (.vmread Field.exitReason) why t) ∨
    ∃ raw d, c.enter k regs s =
      (.ok (.ok raw), d, regs, (s.done (.enter k regs)).done (.vmread Field.exitReason)) := by
  cases hc : c.current with
  | none => exact .inl ⟨.invalid, by simp only [enter, hc]⟩
  | some cur =>
    cases hk : forbidden k cur with
    | some e => exact .inl ⟨e, by simp only [enter, hc, hk]⟩
    | none =>
      obtain ⟨-, hi⟩ | ⟨f, e', hi, hd⟩ := s.processor.emulator.obeys_enter k regs
      · have he : Processor.enter k regs s.processor =
            (.ok (.ok ()), regs, (s.done (.enter k regs)).processor) := by
          have hw := Recorder.watch_ok (c := .enter k regs)
            (i := fun e => (e.count k).tryEnter k regs) hi
          show s.processor.enter k regs = _
          simp only [Recorder.enter, hw]
          rfl
        have hr : c.enter k regs s =
            (.ok (c.afterExit (s.done (.enter k regs))).1,
              (c.afterExit (s.done (.enter k regs))).2.1, regs,
              (c.afterExit (s.done (.enter k regs))).2.2) := by
          simp only [enter, hc, hk, he]
          rfl
        obtain hx | ⟨why, t, hx, hf⟩ := (s.done (.enter k regs)).attempts_vmread Field.exitReason
        · exact .inr (.inr (.inr ⟨_, _, by simp only [hr, afterExit, hx]; rfl⟩))
        · exact .inr (.inr (.inl ⟨why, t, by simp only [hr, afterExit, hx], hf⟩))
      · have he : Processor.enter k regs s.processor = (.ok (.error f), regs,
            ⟨e', (.enter k regs, s.processor.emulator) :: s.processor.failures⟩) := by
          have hw := Recorder.watch_error (c := .enter k regs)
            (i := fun e => (e.count k).tryEnter k regs) hi
          show s.processor.enter k regs = _
          simp only [Recorder.enter, hw]
        obtain ⟨why, t, ht, hf⟩ := Machine.failed_diagnose hd
        exact .inr (.inl ⟨why, t, by simp only [enter, hc, hk, he, ht], hf⟩)

end Root

/-! ## All operations -/

/-- What an operation comes to on a recorder. Where it fails the core is still there, and so is the
structure that a load was given. -/
inductive Performs (c : Core) (s : Machine Recorder) : Operation → Outcome Recorder → Prop
  | carriedOut {o : Operation} {r : Outcome Recorder} (hf : r.failure = none)
      (hn : r.machine.processor.failures = s.processor.failures) : Performs c s o r
  | withheld {o : Operation} {why : Failure} {t : Machine Recorder}
      (hp : t.processor = s.processor) (hm : t.host.memory = s.host.memory) :
      Performs c s o ⟨some why, o.given, some c, t⟩
  | failed {o : Operation} {x : Command} {why : Failure} {t : Machine Recorder}
      (hf : s.Failed x why t) : Performs c s o ⟨some why, o.given, some c, t⟩
  | undone {d : Root} {region : Region .vmcs} {why : Failure} {t : Machine Recorder}
      (hc : c = .root d) (hd : d.current = none)
      (hf : (s.done (.vmptrld region.addr s.host.memory)).Failed .writeHostState why t) :
      Performs c s (.load region)
        ⟨some why, some region, some c, t.done (.vmclear region.addr)⟩
  | stranded {region : Region .vmcs} {why e : Failure} {t u : Machine Recorder}
      (hf : (s.done (.vmptrld region.addr s.host.memory)).Failed .writeHostState why t)
      (hu : t.Failed (.vmclear region.addr) e u) :
      Performs c s (.load region) ⟨some why, some region, some c, u⟩
  | unseen {k : Entry} {regs : Registers} {why : Failure} {t : Machine Recorder}
      (hf : (s.done (.enter k regs)).Failed (.vmread Field.exitReason) why t) :
      Performs c s (.enter k regs) ⟨some why, none, some c, t⟩

namespace Root

theorem clear_runs (c : Root) (region : Region .vmcs) (s : Machine Recorder) :
    s.Runs (c.clear region s) := by
  unfold clear
  obtain hx | ⟨why, t, hx, hf⟩ := s.attempts_vmclear region.addr
  · simpa only [hx] using .ok rfl
  · simpa only [hx] using .failed hf

theorem read_runs (c : Root) (f : Field) (s : Machine Recorder) : s.Runs (c.read f s) := by
  unfold read
  split
  · obtain hx | ⟨why, t, hx, hf⟩ := s.attempts_vmread f.encoding
    · simpa only [hx] using .ok rfl
    · simpa only [hx] using .failed hf
  · exact .withheld

theorem write_runs (c : Root) (f : Field) (v : UInt64) (s : Machine Recorder) :
    s.Runs (c.write f v s) := by
  unfold write
  split
  · exact (s.attempts_vmwrite f.encoding (f.encode v)).runs
  · exact .withheld

theorem invalidateEpt_runs (c : Root) (pointer : UInt64) (scope : EptScope)
    (s : Machine Recorder) : s.Runs (c.invalidateEpt pointer scope s) := by
  unfold invalidateEpt
  split
  · obtain hx | ⟨why, t, hx, hf⟩ := s.attempts_invept scope ⟨pointer, 0⟩
    · simpa only [hx] using .ok rfl
    · simpa only [hx] using .failed hf
  · exact .withheld

theorem invalidateVpid_runs (c : Root) (tag : Tag) (scope : VpidScope) (address : UInt64)
    (s : Machine Recorder) : s.Runs (c.invalidateVpid tag scope address s) := by
  unfold invalidateVpid
  split
  · split
    · exact .withheld
    · obtain hx | ⟨why, t, hx, hf⟩ := s.attempts_invvpid scope ⟨tag.value.toUInt64, address⟩
      · simpa only [hx] using .ok rfl
      · simpa only [hx] using .failed hf
  · exact .withheld

end Root

theorem performs_of {α : Type} {c : Core} {o : Operation} {s : Machine Recorder}
    {r : Except Failure α × Machine Recorder} (h : s.Runs r) (hg : o.given = none) :
    c.Performs s o (.of c r) := by
  cases h with
  | ok h => exact .carriedOut rfl h
  | @withheld why =>
    have hw : c.Performs s o ⟨some why, o.given, some c, s⟩ := .withheld rfl rfl
    rwa [hg] at hw
  | @failed x why t h =>
    have hf : c.Performs s o ⟨some why, o.given, some c, t⟩ := .failed h
    rwa [hg] at hf

theorem enterRoot_performs (c : Enabled) (region : Region .vmxon) (s : Machine Recorder) :
    (enabled c).Performs s (.enterRoot region) ((enabled c).perform (.enterRoot region) s) := by
  obtain ⟨trap, t, hx, hn⟩ | ⟨d, hx⟩ | ⟨why, t, hx, hf⟩ := c.enterRoot_recorded region s
  · simpa only [perform, hx] using .carriedOut rfl hn
  · simpa only [perform, hx] using .carriedOut rfl rfl
  · simpa only [perform, hx] using .failed hf

namespace Root

theorem exitRoot_performs (c : Root) (s : Machine Recorder) :
    (root c).Performs s .exitRoot ((root c).perform .exitRoot s) := by
  cases hc : c.current with
  | some cur => simpa [perform, exitRoot, hc] using .withheld rfl rfl
  | none =>
    obtain hx | ⟨why, t, hx, hf⟩ := s.attempts_vmxoff
    · simpa [perform, exitRoot, hc, hx] using .carriedOut rfl rfl
    · simpa [perform, exitRoot, hc, hx] using .failed (hf.note c.id (.vmxoffFailed why))

theorem load_performs (c : Root) (region : Region .vmcs) (s : Machine Recorder) :
    (root c).Performs s (.load region) ((root c).perform (.load region) s) := by
  obtain hx | ⟨why, t, hx, hf⟩ | ⟨why, t, hx, hc, hf⟩ | ⟨d, hx⟩ := c.load_recorded region s
  · simpa only [perform, hx] using .withheld rfl rfl
  · simpa only [perform, hx] using .failed hf
  · obtain hu | ⟨e, hu⟩ := c.unload_recorded region why t
    · simpa only [perform, hx, hu] using .undone rfl hc (hf.note c.id (.hostStateFailed why))
    · simpa only [perform, hx] using .stranded hf hu
  · simpa only [perform, hx] using .carriedOut rfl rfl

theorem clearCurrent_performs (c : Root) (s : Machine Recorder) :
    (root c).Performs s .clearCurrent ((root c).perform .clearCurrent s) := by
  cases hc : c.current with
  | none => simpa [perform, clearCurrent, hc] using .withheld rfl rfl
  | some cur =>
    obtain hx | ⟨why, t, hx, hf⟩ := s.attempts_vmclear cur.region.addr
    · simpa [perform, clearCurrent, hc, hx] using .carriedOut rfl rfl
    · simpa [perform, clearCurrent, hc, hx] using .failed hf

theorem enter_performs (c : Root) (k : Entry) (regs : Registers) (s : Machine Recorder) :
    (root c).Performs s (.enter k regs) ((root c).perform (.enter k regs) s) := by
  obtain ⟨e, hx⟩ | ⟨why, t, hx, hf⟩ | ⟨why, t, hx, hf⟩ | ⟨raw, d, hx⟩ :=
    c.enter_recorded k regs s
  · simpa only [perform, hx] using .withheld rfl rfl
  · simpa only [perform, hx] using .failed hf
  · simpa only [perform, hx] using .unseen hf
  · simpa only [perform, hx] using .carriedOut rfl rfl

end Root

/-- Every operation on a recorder comes to one of these. -/
theorem performs (c : Core) (o : Operation) (s : Machine Recorder) :
    c.Performs s o (c.perform o s) := by
  cases c with
  | disabled c => cases o <;> exact .carriedOut rfl rfl
  | enabled c =>
    cases o with
    | enterRoot region => exact enterRoot_performs c region s
    | _ => exact .carriedOut rfl rfl
  | root c =>
    cases o with
    | enterRoot region => exact .carriedOut rfl rfl
    | exitRoot => exact c.exitRoot_performs s
    | load region => exact c.load_performs region s
    | clearCurrent => exact c.clearCurrent_performs s
    | enter k regs => exact c.enter_performs k regs s
    | clear region => exact performs_of (c.clear_runs region s) rfl
    | read f => exact performs_of (c.read_runs f s) rfl
    | write f v => exact performs_of (c.write_runs f v s) rfl
    | invalidateEpt pointer scope => exact performs_of (c.invalidateEpt_runs pointer scope s) rfl
    | invalidateVpid tag scope address =>
      exact performs_of (c.invalidateVpid_runs tag scope address s) rfl

end Core

end VmxControl
