import VmxControl.Native.Software

/-!
# What the script answers

An instruction of the VMX family changes the software processor in two ways only: it is recorded,
and the scripted failure that decides its flags is used up.
-/

namespace VmxControl.Native

theorem Flags.outcome_eq_ok {f : Flags} : f.outcome = .ok () ↔ f = .clear := by
  obtain ⟨cf, zf⟩ := f
  cases cf <;> cases zf <;> simp [outcome, VmFail.ofFlags, clear]

theorem Flags.exists_error {f : Flags} (h : f ≠ .clear) : ∃ e, f.outcome = .error e := by
  cases he : f.outcome with
  | error e => exact ⟨e, rfl⟩
  | ok u => exact absurd (outcome_eq_ok.1 he) h

namespace Software

/-- The flags that an instruction leaves: those of the earliest failure that fits it. -/
def answer (s : Software) (i : Instruction) : Flags :=
  ((s.failures.find? fun f => f.fits i).map (·.flags)).getD .clear

/-- The processor after an instruction, but for what the instruction is about. -/
def performed (s : Software) (i : Instruction) : Software :=
  { s with executed := i :: s.executed, failures := s.failures.eraseP fun f => f.fits i }

theorem perform_eq (s : Software) (i : Instruction) :
    s.perform i = (s.answer i, s.performed i) := by
  simp only [perform, record, Script.take?_eq, answer, performed]
  cases h : s.failures.find? fun f => f.fits i with
  | some f => rfl
  | none =>
    -- What fits nothing is not erased either.
    have none_fits : ∀ f ∈ s.failures, ¬f.fits i = true := by simpa using h
    simp [List.eraseP_of_forall_not none_fits]

/-- The processor after a VMWRITE that did not fail. -/
def wrote (s : Software) (f : UInt32) (v : UInt64) : Software :=
  { s.performed (.vmwrite f v) with fields := s.fields.put f v }

theorem store_eq (s : Software) (f : UInt32) (v : UInt64) :
    s.store f v = (s.answer (.vmwrite f v),
      if s.answer (.vmwrite f v) = .clear then s.wrote f v else s.performed (.vmwrite f v)) := by
  simp [store, perform_eq, wrote, performed]

theorem vmwrite_clear {s : Software} {f : UInt32} {v : UInt64}
    (h : s.answer (.vmwrite f v) = .clear) : s.vmwrite f v = (.ok (), s.wrote f v) := by
  simp [vmwrite, store_eq, h, Flags.outcome_eq_ok.2]

theorem vmwrite_failed {s : Software} {f : UInt32} {v : UInt64} {e : VmFail}
    (h : (s.answer (.vmwrite f v)).outcome = .error e) :
    s.vmwrite f v = (.error e, s.performed (.vmwrite f v)) := by
  have hn : s.answer (.vmwrite f v) ≠ .clear := by
    intro hc
    simp [Flags.outcome_eq_ok.2 hc] at h
  simp [vmwrite, store_eq, h, hn]

end Software

end VmxControl.Native
