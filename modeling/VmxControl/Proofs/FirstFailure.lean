import VmxControl.Proofs.Moves
import VmxControl.Proofs.Recording

/-!
# The first failure

An operation that runs several commands may see several of them fail: a load whose host state cannot
be written clears the structure again, which can fail as well. The number of a failure has one place
in each structure and the last one to fail takes it. What the operation reports is the cause of the
first.
-/

namespace VmxControl

/-- Where writing the host state fails with a number, there is a structure to hold the number. -/
theorem Emulator.current_of_hostState_fails {e : Emulator} {n : UInt32}
    (h : e.number? .writeHostState = some n) : e.current.isSome = true := by
  obtain ⟨a, ha, -⟩ := Option.bind_eq_some_iff.1 h
  rw [ha, Option.isSome_some]

namespace Core

variable {c : Core} {o : Operation} {s : Machine Recorder} {r : Outcome Recorder}

/-- Either nothing was noted or the first to be noted is what is reported. Only VMCLEAR follows
a failure to write the host state. -/
theorem Performs.first (h : c.Performs s o r) (hl : s.processor.emulator.Legible) :
    r.machine.processor.failures = s.processor.failures ∨
    ∃ later i e, r.machine.processor.failures = later ++ (i, e) :: s.processor.failures ∧
      (∀ e', (.writeHostState, e') ∉ later) ∧ r.failure = some (e.report i) := by
  cases h with
  | carriedOut _ hn => exact .inl hn
  | withheld hp => exact .inl (congrArg Recorder.failures hp)
  | failed hf =>
    obtain ⟨hn, hw⟩ := hf.faithful hl
    exact .inr ⟨[], _, _, hn, by simp, congrArg some hw⟩
  | undone _ _ hf =>
    obtain ⟨hn, hw⟩ := hf.faithful (hl.next _)
    exact .inr ⟨[], _, _, hn, by simp, congrArg some hw⟩
  | @stranded region _ _ t _ hf hu =>
    obtain ⟨hn, hw⟩ := hf.faithful (hl.next _)
    have hd := hl.next (.vmptrld region.addr s.host.memory)
    obtain ⟨hm, -⟩ := hu.faithful (hd.of_spares hf.spares)
    refine .inr ⟨[(.vmclear region.addr, t.processor.emulator)], _, _, ?_, by simp,
      congrArg some hw⟩
    exact hm.trans (congrArg _ hn)
  | unseen hf =>
    obtain ⟨hn, hw⟩ := hf.faithful (hl.next _)
    exact .inr ⟨[], _, _, hn, by simp, congrArg some hw⟩

/-- An operation in which commands fail reports the first of them, as the processor was when that
command was given to it: its number if there was a current structure to hold one, or else that there
was none. A load that could not write the host state reports this, whatever became of the rest.
Recording, which shows the commands that fail, makes no difference to the operation. -/
theorem first_failure_reported (c : Core) (o : Operation) (s : Machine Emulator)
    (hl : s.processor.Legible) :
    c.perform o s = (c.perform o s.recorded).map Recorder.emulator ∧
    (∀ i e, (c.perform o s.recorded).machine.processor.failures.getLast? = some (i, e) →
      (∀ n, e.number? i = some n →
        (c.perform o s).failure = some (if e.current.isSome then .valid ⟨n⟩ else .invalid)) ∧
      (e.number? i = none → (c.perform o s).failure = some .invalid)) ∧
    ∀ e n, (.writeHostState, e) ∈ (c.perform o s.recorded).machine.processor.failures →
      e.number? .writeHostState = some n → (c.perform o s).failure = some (.valid ⟨n⟩) := by
  have hfail : (c.perform o s).failure = (c.perform o s.recorded).failure :=
    congrArg Outcome.failure (c.perform_recorded o s)
  obtain hn | ⟨later, i, e, hn, hlater, hr⟩ := (c.performs o s.recorded).first hl
  · have hnil : (c.perform o s.recorded).machine.processor.failures = [] := hn
    exact ⟨c.perform_recorded o s, by simp [hnil], by simp [hnil]⟩
  · have hall : (c.perform o s.recorded).machine.processor.failures = later ++ [(i, e)] := hn
    have hreport : (c.perform o s).failure = some (e.report i) := hfail.trans hr
    refine ⟨c.perform_recorded o s, fun i' e' h => ?_, fun e' n hm hn => ?_⟩
    · rw [hall, List.getLast?_concat] at h
      cases h
      exact ⟨fun n hn => hreport.trans (congrArg some (Emulator.report_of_some hn)),
        fun hn => hreport.trans (congrArg some (Emulator.report_of_none hn))⟩
    · rw [hall, List.mem_append, List.mem_singleton] at hm
      obtain hm | hm := hm
      · exact absurd hm (hlater e')
      · cases hm
        rw [hreport, Emulator.report_of_some hn, Emulator.current_of_hostState_fails hn]
        rfl

end Core

namespace Station

/-- In root operation, where the host state, VMCLEAR and VMXOFF are to fail. -/
def failing : List Event :=
  toRoot ++ [.influence (.inject .hostState 26), .influence (.inject .vmclear 9),
    .influence (.inject .vmxoff 7)]

/-- The core that is then in root operation. -/
def unloaded : Core.Root := ⟨⟨0, Core.announced⟩, stamped .vmxon 0x100000, none⟩

/-- The load reports that the host state could not be written, although VMCLEAR failed later and
left its own number in the structure. VMXOFF fails before any structure is current. -/
theorem load_reports_host_state :
    (fresh.run failing).core = some (.root unloaded) ∧
      (fresh.run failing).machine.processor.Legible ∧
      ((Core.root unloaded).perform (.load (stamped .vmcs 0x101000))
        (fresh.run failing).machine).failure = some (.valid ⟨26⟩) ∧
      ((Core.root unloaded).perform (.load (stamped .vmcs 0x101000))
        (fresh.run failing).machine).machine.processor.word Field.instructionError = 9 ∧
      ((Core.root unloaded).perform .exitRoot (fresh.run failing).machine).failure =
        some .invalid := by
  have hl : (fresh.run failing).machine.processor.Legible := rfl
  obtain ⟨-, -, hload⟩ :=
    Core.first_failure_reported (.root unloaded) (.load (stamped .vmcs 0x101000)) _ hl
  obtain ⟨-, hexit, -⟩ := Core.first_failure_reported (.root unloaded) .exitRoot _ hl
  obtain ⟨x, e, hx, hn⟩ : ∃ x e, ((Core.root unloaded).perform (.load (stamped .vmcs 0x101000))
      (fresh.run failing).machine.recorded).machine.processor.failures =
        [x, (.writeHostState, e)] ∧ e.number? .writeHostState = some 26 := ⟨_, _, rfl, rfl⟩
  refine ⟨rfl, hl, hload e 26 (by rw [hx]; simp) hn, rfl, ?_⟩
  exact (hexit .vmxoff (fresh.run failing).machine.processor rfl).1 7 rfl

end Station

end VmxControl
