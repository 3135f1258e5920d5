import VmxControl.Emulator
import VmxControl.Machine

/-!
# The standing of a processor

The registers, the two pointers, the launch states, the number of attempts to enter and the journal
make up the standing of an emulated processor. An instruction fails, which leaves the standing as it
was, or has the one effect that its entry in the journal stands for. An entry counts as an attempt
besides. What else an instruction changes (fields, failures that are used up) is not part of the
standing.
-/

namespace VmxControl

namespace Op

/-- The effect changes neither CR4 nor what VMX operation runs on. -/
def Passive : Op → Prop
  | .wrmsr _ _ | .vmwrite _ _ | .invept _ _ | .invvpid _ _ | .hostState => True
  | _ => False

/-- The effect is a step on the way out of VMX operation. -/
def Leaving : Op → Prop
  | .vmclear _ | .vmxoff | .cr4 _ => True
  | _ => False

/-- The effect belongs to a control structure and its guest. -/
def Hosting : Op → Prop
  | .vmptrld _ | .entered _ => True
  | _ => False

theorem Passive.not_hosting {o : Op} (h : o.Passive) : ¬ o.Hosting := by
  cases o with
  | vmptrld | entered => exact h.elim
  | _ => exact id

theorem Leaving.not_hosting {o : Op} (h : o.Leaving) : ¬ o.Hosting := by
  cases o with
  | vmptrld | entered => exact h.elim
  | _ => exact id

end Op

structure Standing where
  cr0 : UInt64
  cr4 : UInt64
  msrs : Store Msr UInt64
  vmxonPtr : Option PhysAddr
  current : Option PhysAddr
  launched : Store PhysAddr Bool
  launches : Nat
  resumes : Nat
  journal : List Op

namespace Standing

/-- How often software tried to enter a guest, with or without success. -/
def attempts (st : Standing) : Entry → Nat
  | .launch => st.launches
  | .resume => st.resumes

def attempt (st : Standing) (k : Entry) : Standing :=
  { st with
    launches := if k = .launch then st.launches + 1 else st.launches
    resumes := if k = .resume then st.resumes + 1 else st.resumes }

/-- The effect that an entry of the journal stands for. -/
def apply (st : Standing) (o : Op) : Standing :=
  let st := { st with journal := o :: st.journal }
  match o with
  | .wrmsr r v => { st with msrs := st.msrs.put r v }
  | .cr4 v => { st with cr4 := v }
  | .vmxon a => { st with vmxonPtr := some a }
  | .vmxoff => { st with vmxonPtr := none, current := none }
  | .vmptrld a => { st with current := some a }
  | .vmclear a =>
    { st with
      launched := st.launched.put a false
      current := if st.current = some a then none else st.current }
  | .vmwrite _ _ => st
  | .entered _ => { st with launched := st.current.elim st.launched (st.launched.put · true) }
  | .invept _ _ => st
  | .invvpid _ _ => st
  | .hostState => st

@[simp] theorem journal_apply (st : Standing) (o : Op) :
    (st.apply o).journal = o :: st.journal := by
  cases o <;> rfl

@[simp] theorem attempts_apply (st : Standing) (o : Op) (k : Entry) :
    (st.apply o).attempts k = st.attempts k := by
  cases o <;> cases k <;> rfl

theorem apply_ne (st : Standing) (o : Op) : st.apply o ≠ st := by
  intro h
  have hl := congrArg (fun st => st.journal.length) h
  simp at hl

/-- The effects of several instructions, one after the other. -/
def applyAll (st : Standing) (ops : List Op) : Standing := ops.foldl apply st

@[simp] theorem applyAll_nil (st : Standing) : st.applyAll [] = st := rfl

@[simp] theorem applyAll_cons (st : Standing) (o : Op) (ops : List Op) :
    st.applyAll (o :: ops) = (st.apply o).applyAll ops := rfl

theorem applyAll_append (st : Standing) (xs ys : List Op) :
    st.applyAll (xs ++ ys) = (st.applyAll xs).applyAll ys :=
  List.foldl_append

theorem journal_applyAll (st : Standing) (ops : List Op) :
    (st.applyAll ops).journal = ops.reverse ++ st.journal := by
  induction ops generalizing st with
  | nil => rfl
  | cons o ops ih => simp [ih]

/-- The two do not differ in CR4 or in what VMX operation runs on. -/
structure Alike (st st' : Standing) : Prop where
  cr4 : st'.cr4 = st.cr4
  vmxonPtr : st'.vmxonPtr = st.vmxonPtr
  current : st'.current = st.current
  launched : st'.launched = st.launched

theorem alike_passive {ops : List Op} (h : ∀ o ∈ ops, o.Passive) (st : Standing) :
    st.Alike (st.applyAll ops) := by
  induction ops generalizing st with
  | nil => exact ⟨rfl, rfl, rfl, rfl⟩
  | cons o ops ih =>
    obtain ⟨h4, hv, hc, hl⟩ := ih (fun x hx => h x (List.mem_cons_of_mem o hx)) (st.apply o)
    have ho := h o List.mem_cons_self
    cases o with
    | wrmsr | vmwrite | invept | invvpid | hostState => exact ⟨h4, hv, hc, hl⟩
    | cr4 | vmxon | vmxoff | vmptrld | vmclear | entered => exact ho.elim

/-- A write of CR4 after passive effects changes nothing else that matters. -/
theorem alike_passive_cr4 {ops : List Op} (h : ∀ o ∈ ops, o.Passive) (st : Standing) (v : UInt64) :
    ({ st with cr4 := v } : Standing).Alike (st.applyAll (ops ++ [.cr4 v])) := by
  obtain ⟨-, hv, hc, hl⟩ := st.alike_passive h
  rw [applyAll_append]
  exact ⟨rfl, hv, hc, hl⟩

/-- Clearing structures leaves CR4 alone. -/
theorem cr4_applyAll_vmclear {ops : List Op} (h : ∀ o ∈ ops, ∃ a, o = .vmclear a)
    (st : Standing) : (st.applyAll ops).cr4 = st.cr4 := by
  induction ops generalizing st with
  | nil => rfl
  | cons o ops ih =>
    obtain ⟨a, rfl⟩ := h o List.mem_cons_self
    exact ih (fun x hx => h x (List.mem_cons_of_mem _ hx)) (st.apply (.vmclear a))

@[simp] theorem attempts_applyAll (st : Standing) (ops : List Op) (k : Entry) :
    (st.applyAll ops).attempts k = st.attempts k := by
  induction ops generalizing st with
  | nil => rfl
  | cons o ops ih => simp [ih]

end Standing

/-- Outside of VMX operation, with nothing current and nothing launched. -/
structure Standing.Idle (st : Standing) : Prop where
  off : st.vmxonPtr = none
  noCurrent : st.current = none
  noLaunched : ∀ a, st.launched.get a = false

namespace Emulator

def standing (e : Emulator) : Standing :=
  ⟨e.cr0, e.cr4, e.msrs, e.vmxonPtr, e.current, e.launched, e.launches, e.resumes, e.journal⟩

/-- A processor is idle when it is switched on. -/
theorem idle_ofModel (d : Model) : (ofModel d).standing.Idle := by
  have hm (rs : List (Msr × UInt64)) (e : Emulator) (h : e.standing.Idle) :
      (rs.foldl (fun e r => e.setMsr r.1 r.2) e).standing.Idle := by
    induction rs generalizing e with
    | nil => exact h
    | cons r rs ih => exact ih (e.setMsr r.1 r.2) ⟨h.off, h.noCurrent, h.noLaunched⟩
  have h := hm d.msrs { new with vmx := d.vmx } ⟨rfl, rfl, fun _ => rfl⟩
  unfold ofModel
  cases d.cr4 <;> exact ⟨h.off, h.noCurrent, h.noLaunched⟩

/-- Whether the next execution of an instruction is going to fail. -/
def pending (i : Injection) (e : Emulator) : Bool := e.injected.any fun x => x.1 == i

variable {α : Type}

/-- Either the result is an error and the standing is what it was, or the standing has changed as
the entry of the journal says. -/
def Settles (e : Emulator) (o : Op) (r : Except VmFail α × Emulator) : Prop :=
  (∃ a e', r = (.ok a, e') ∧ e'.standing = e.standing.apply o) ∨
  (∃ f e', r = (.error f, e') ∧ e'.standing = e.standing)

/-- A failure answers with an error, whether or not its number finds a place. -/
theorem fail_eq (e : Emulator) (code : UInt32) :
    ∃ f e', (e.fail code : Except VmFail α × Emulator) = (.error f, e') ∧
      e'.standing = e.standing ∧ e'.injected = e.injected := by
  unfold fail
  split
  · exact ⟨_, _, rfl, rfl, rfl⟩
  · exact ⟨_, _, rfl, rfl, rfl⟩

theorem settles_fail (e : Emulator) (o : Op) (code : UInt32) :
    e.Settles o (e.fail code : Except VmFail α × Emulator) := by
  obtain ⟨f, e', h, hs, -⟩ := fail_eq (α := α) e code
  exact .inr ⟨f, e', h, hs⟩

theorem settles_invalid (e : Emulator) (o : Op) :
    e.Settles o ((.error .invalid, e) : Except VmFail α × Emulator) :=
  .inr ⟨_, _, rfl, rfl⟩

/-- The instruction fails and uses up the failure that was injected into it, and no other. -/
def Fails (e : Emulator) (i : Injection) (r : Except VmFail α × Emulator) : Prop :=
  ∃ f e', r = (.error f, e') ∧ e'.standing = e.standing ∧ ∀ j, j ≠ i → e'.pending j = e.pending j

theorem unlessInjected_cases (e : Emulator) (i : Injection) (effect : Except VmFail α × Emulator) :
    (e.pending i = true ∧ e.Fails i (e.unlessInjected i effect)) ∨
    (e.pending i = false ∧ e.unlessInjected i effect = effect) := by
  cases ht : Script.take? (fun x => x.1 == i) e.injected with
  | some r =>
    obtain ⟨x, rest⟩ := r
    obtain ⟨f, e', he, hs, hi⟩ := fail_eq (α := α) { e with injected := rest } x.2
    have hx := Script.fits_of_take? ht
    refine .inl ⟨List.any_eq_true.2 ⟨x, hx.2, hx.1⟩, f, e', ?_, hs, fun j hj => ?_⟩
    · simp only [unlessInjected, ht, he]
    · rw [pending, hi]
      exact Script.any_of_take? ht fun y hy => by simp_all [Ne.symm]
  | none =>
    have hn := Script.take?_eq_none.1 ht
    exact .inr ⟨by simpa [pending] using hn, by simp only [unlessInjected, ht]⟩

theorem settles_unlessInjected {e : Emulator} {o : Op} (i : Injection)
    {effect : Except VmFail α × Emulator} (h : e.Settles o effect) :
    e.Settles o (e.unlessInjected i effect) := by
  obtain ⟨-, f, e', he, hs, -⟩ | ⟨-, he⟩ := unlessInjected_cases e i effect
  · exact .inr ⟨f, e', he, hs⟩
  · rwa [he]

/-! ## Instructions -/

/-- VMXON is an instruction only while CR4.VMXE is set. -/
theorem vmxon_cases (e : Emulator) (a : PhysAddr) (m : Memory) :
    (e.cr4 &&& vmxe = 0 ∧ e.vmxon a m = .error .vmxonWithoutVmxe) ∨
    (e.cr4 &&& vmxe ≠ 0 ∧ ∃ r, e.vmxon a m = .ok r ∧ e.Settles (.vmxon a) r) := by
  unfold vmxon
  split
  · next h => exact .inl ⟨h, rfl⟩
  · next h =>
    refine .inr ⟨h, ?_⟩
    split
    · exact ⟨_, rfl, settles_fail e _ _⟩
    · split
      · exact ⟨_, rfl, settles_invalid e _⟩
      · exact ⟨_, rfl, .inl ⟨_, _, rfl, rfl⟩⟩

theorem settles_vmxoff (e : Emulator) : e.Settles .vmxoff e.vmxoff := by
  unfold vmxoff
  split
  · exact settles_unlessInjected _ (.inl ⟨_, _, rfl, rfl⟩)
  · exact settles_invalid e _

theorem settles_vmptrld (e : Emulator) (a : PhysAddr) (m : Memory) :
    e.Settles (.vmptrld a) (e.vmptrld a m) := by
  unfold vmptrld
  split
  · exact settles_invalid e _
  · split
    · exact settles_fail e _ _
    · split
      · exact settles_fail e _ _
      · exact .inl ⟨_, _, rfl, rfl⟩

theorem settles_vmclear (e : Emulator) (a : PhysAddr) : e.Settles (.vmclear a) (e.vmclear a) := by
  unfold vmclear
  split
  · exact settles_invalid e _
  · split
    · exact settles_fail e _ _
    · exact settles_unlessInjected _ (.inl ⟨_, _, rfl, rfl⟩)

theorem settles_vmwrite (e : Emulator) (f : UInt32) (v : UInt64) :
    e.Settles (.vmwrite f v) (e.vmwrite f v) := by
  unfold vmwrite
  split
  · exact settles_invalid e _
  · split
    · exact settles_fail e _ _
    · exact .inl ⟨_, _, rfl, rfl⟩

theorem settles_invept (e : Emulator) (s : EptScope) (d : Descriptor) :
    e.Settles (.invept s d) (e.invept s d) := by
  unfold invept
  split
  · exact settles_unlessInjected _ (.inl ⟨_, _, rfl, rfl⟩)
  · exact settles_invalid e _

theorem settles_invvpid (e : Emulator) (s : VpidScope) (d : Descriptor) :
    e.Settles (.invvpid s d) (e.invvpid s d) := by
  unfold invvpid
  split
  · split
    · exact settles_fail e _ _
    · exact settles_unlessInjected _ (.inl ⟨_, _, rfl, rfl⟩)
  · exact settles_invalid e _

theorem settles_writeHostState (e : Emulator) : e.Settles .hostState e.writeHostState := by
  unfold writeHostState
  split
  · exact settles_invalid e _
  · exact settles_unlessInjected _ (.inl ⟨_, _, rfl, rfl⟩)

theorem vmread_cases {e : Emulator} {vmcs : PhysAddr} (h : e.current = some vmcs)
    (field : UInt32) :
    (e.pending (.vmread field) = true ∧ e.Fails (.vmread field) (e.vmread field)) ∨
    (e.pending (.vmread field) = false ∧
      e.vmread field = (.ok (e.fields.get (vmcs, field)), e)) := by
  have hv : e.vmread field =
      e.unlessInjected (.vmread field) (.ok (e.fields.get (vmcs, field)), e) := by
    simp only [vmread, h]
  rw [hv]
  exact unlessInjected_cases e _ _

/-- Reading a field changes no more than the failures that are still to come. -/
theorem vmread_eq (e : Emulator) (field : UInt32) :
    ∃ r e', e.vmread field = (r, e') ∧ e'.standing = e.standing ∧
      ∀ j, j ≠ .vmread field → e'.pending j = e.pending j := by
  cases hc : e.current with
  | none => exact ⟨.error .invalid, e, by simp only [vmread, hc], rfl, fun _ _ => rfl⟩
  | some vmcs =>
    obtain ⟨-, f, e', he, hs, hj⟩ | ⟨-, he⟩ := vmread_cases hc field
    · exact ⟨_, e', he, hs, hj⟩
    · exact ⟨_, e, he, rfl, fun _ _ => rfl⟩

/-- VMPTRLD that succeeds has found a region other than the one VMX operation runs on. -/
theorem vmptrld_ok {e e' : Emulator} {a : PhysAddr} {m : Memory}
    (h : e.vmptrld a m = (.ok (), e')) :
    (∃ on, e.vmxonPtr = some on ∧ on ≠ a) ∧
      e' = { e.record (.vmptrld a) with current := some a } := by
  unfold vmptrld at h
  cases hon : e.vmxonPtr with
  | none =>
    simp only [hon] at h
    cases h
  | some on =>
    simp only [hon] at h
    by_cases ha : on = a
    · obtain ⟨f, p, hf, -⟩ := fail_eq (α := Unit) e 10
      rw [if_pos ha, hf] at h
      cases h
    · by_cases hr : m.readWord a ≠ revision
      · obtain ⟨f, p, hf, -⟩ := fail_eq (α := Unit) e 11
        rw [if_neg ha, if_pos hr, hf] at h
        cases h
      · rw [if_neg ha, if_neg hr] at h
        cases h
        exact ⟨⟨on, rfl, ha⟩, rfl⟩

/-- With a current structure only an injected failure keeps the host state from being written. -/
theorem writeHostState_cases {e : Emulator} {vmcs : PhysAddr} (h : e.current = some vmcs) :
    (e.pending .hostState = true ∧ e.Fails .hostState e.writeHostState) ∨
    (e.pending .hostState = false ∧ ∃ e', e.writeHostState = (.ok (), e') ∧
      e'.standing = e.standing.apply .hostState) := by
  unfold writeHostState
  simp only [h]
  obtain hp | ⟨hp, he⟩ := unlessInjected_cases e .hostState _
  · exact .inl hp
  · exact .inr ⟨hp, _, he, rfl⟩

/-- In VMX operation a region other than its own is cleared unless a failure was injected. -/
theorem vmclear_cases {e : Emulator} {on a : PhysAddr} (h : e.vmxonPtr = some on) (ha : on ≠ a) :
    (e.pending .vmclear = true ∧ e.Fails .vmclear (e.vmclear a)) ∨
    (e.pending .vmclear = false ∧ ∃ e', e.vmclear a = (.ok (), e') ∧
      e'.standing = e.standing.apply (.vmclear a)) := by
  unfold vmclear
  simp only [h, if_neg ha]
  obtain hp | ⟨hp, he⟩ := unlessInjected_cases e .vmclear _
  · exact .inl hp
  · exact .inr ⟨hp, _, he, rfl⟩

@[simp] theorem standing_count (e : Emulator) (k : Entry) :
    (e.count k).standing = e.standing.attempt k := by
  cases k <;> rfl

@[simp] theorem pending_count (e : Emulator) (k : Entry) (i : Injection) :
    (e.count k).pending i = e.pending i := by
  cases k <;> rfl

/-- An entry that reaches the guest leaves the reason of its exit to be read. It has had its effect
unless that reason stands for a failed entry. -/
theorem tryEnter_cases (e : Emulator) (k : Entry) (regs : Registers) :
    (∃ f e', e.tryEnter k regs = (.error f, e') ∧ e'.standing = e.standing) ∨
    ∃ vmcs raw e', e.tryEnter k regs = (.ok (), e') ∧ e'.current = some vmcs ∧
      e'.fields.get (vmcs, Field.exitReason) = (RawExit.word raw).toUInt64 ∧
      e'.injected = e.injected ∧
      e'.standing = if raw.entryFailure then e.standing else e.standing.apply (.entered k) := by
  cases hc : e.current with
  | none => exact .inl ⟨.invalid, e, by simp only [tryEnter, hc], rfl⟩
  | some vmcs =>
    cases hm : e.misplaced? k vmcs with
    | some code =>
      obtain ⟨f, e', he, hs, -⟩ := fail_eq (α := Unit) e code
      exact .inl ⟨f, e', by simp only [tryEnter, hc, hm, he], hs⟩
    | none =>
      cases hf : e.failingEntry with
      | some code =>
        obtain ⟨f, e', he, hs, -⟩ := fail_eq (α := Unit) { e with failingEntry := none } code
        exact .inl ⟨f, e', by simp only [tryEnter, hc, hm, hf, ← he], hs⟩
      | none =>
        refine .inr ⟨vmcs, ⟨e.nextExit.1⟩, e.runGuest k vmcs regs,
          by simp only [tryEnter, hc, hm, hf], ?_⟩
        by_cases hr : RawExit.entryFailure ⟨e.nextExit.1⟩ = true
        · simp [runGuest, hr, hc, standing, Field.exitReason, Field.exitQualification]
        · simp [runGuest, hr, hc, standing, record, Standing.apply, Field.exitReason,
            Field.exitQualification]

end Emulator

/-! ## Machines -/

namespace Machine

variable {α : Type}

def standing (s : Machine Emulator) : Standing := s.processor.standing

@[simp] theorem standing_mk (e : Emulator) (h : Host) :
    (Machine.mk e h).standing = e.standing := rfl

@[simp] theorem standing_note (s : Machine Emulator) (id : UInt64) (n : CoreNote) :
    (s.note id n).standing = s.standing := rfl

@[simp] theorem standing_release (s : Machine Emulator) (f : Frame) :
    (s.release f).standing = s.standing := rfl

@[simp] theorem standing_clearVmxe (s : Machine Emulator) :
    s.clearVmxe.standing = s.standing.apply (.cr4 (s.standing.cr4 &&& ~~~vmxe)) := rfl

/-- Finding the cause of a failure may use up a failure of reading its number, and no other. -/
theorem diagnose_eq (s : Machine Emulator) (f : VmFail) :
    ∃ why p, s.diagnose f = (why, { s with processor := p }) ∧
      p.standing = s.standing ∧
      ∀ j, j ≠ .vmread Field.instructionError → p.pending j = s.processor.pending j := by
  cases f with
  | invalid => exact ⟨_, _, rfl, rfl, fun _ _ => rfl⟩
  | valid =>
    obtain ⟨r, p, he, hs, hj⟩ := s.processor.vmread_eq Field.instructionError
    have hv : Processor.vmread Field.instructionError s.processor = (r, p) := he
    have hx : s.exec (Processor.vmread Field.instructionError) = (r, ⟨p, s.host⟩) := by
      simp only [exec, hv]
    cases r with
    | ok v => exact ⟨.valid ⟨v.toUInt32⟩, p, by simp only [diagnose, hx], hs, hj⟩
    | error g => exact ⟨.valid ⟨0⟩, p, by simp only [diagnose, hx], hs, hj⟩

theorem exec_settles {s : Machine Emulator} {i : Emulator → Except VmFail α × Emulator} {o : Op}
    (h : s.processor.Settles o (i s.processor)) :
    (∃ a p, s.exec i = (.ok a, { s with processor := p }) ∧ p.standing = s.standing.apply o) ∨
    (∃ f p, s.exec i = (.error f, { s with processor := p }) ∧ p.standing = s.standing) := by
  obtain ⟨a, p, hi, hs⟩ | ⟨f, p, hi, hs⟩ := h
  · exact .inl ⟨a, p, by simp only [exec, hi], hs⟩
  · exact .inr ⟨f, p, by simp only [exec, hi], hs⟩

theorem attempt_ok {s : Machine Emulator} {i : Emulator → Except VmFail α × Emulator} {a : α}
    {p : Emulator} (h : i s.processor = (.ok a, p)) :
    s.attempt i = (.ok a, { s with processor := p }) := by
  simp only [attempt, exec, h]

theorem attempt_error {s : Machine Emulator} {i : Emulator → Except VmFail α × Emulator}
    {f : VmFail} {p : Emulator} (h : i s.processor = (.error f, p)) :
    ∃ why q, s.attempt i = (.error why, { s with processor := q }) ∧ q.standing = p.standing ∧
      ∀ j, j ≠ .vmread Field.instructionError → q.pending j = p.pending j := by
  obtain ⟨why, q, hd, hs, hj⟩ := diagnose_eq { s with processor := p } f
  exact ⟨why, q, by simp only [attempt, exec, h, hd], hs, hj⟩

theorem attempt_fails {s : Machine Emulator} {i : Emulator → Except VmFail α × Emulator}
    {j : Injection} (h : s.processor.Fails j (i s.processor)) :
    ∃ why q, s.attempt i = (.error why, { s with processor := q }) ∧ q.standing = s.standing ∧
      ∀ l, l ≠ j → l ≠ .vmread Field.instructionError → q.pending l = s.processor.pending l := by
  obtain ⟨f, p, hf, hs, hj⟩ := h
  obtain ⟨why, q, ha, hq, hl⟩ := attempt_error hf
  exact ⟨why, q, ha, hq.trans hs, fun l hlj hli => (hl l hli).trans (hj l hlj)⟩

/-- An instruction of the control plane settles as the instruction itself does. -/
theorem attempt_settles {s : Machine Emulator} {i : Emulator → Except VmFail α × Emulator} {o : Op}
    (h : s.processor.Settles o (i s.processor)) :
    (∃ a p, s.attempt i = (.ok a, { s with processor := p }) ∧ p.standing = s.standing.apply o) ∨
    (∃ why p, s.attempt i = (.error why, { s with processor := p }) ∧ p.standing = s.standing) := by
  obtain ⟨a, p, hi, hs⟩ | ⟨f, p, hi, hs⟩ := h
  · exact .inl ⟨a, p, attempt_ok hi, hs⟩
  · obtain ⟨why, q, ha, hq, -⟩ := attempt_error hi
    exact .inr ⟨why, q, ha, hq.trans hs⟩

end Machine

end VmxControl
