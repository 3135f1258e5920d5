import VmxControl.Command
import VmxControl.Proofs.Standing

/-!
# Refusals

An emulated processor carries out a command or refuses it. A refusal uses up the failure that was
injected for the command, if there was one, and leaves the number of the failure in the current
structure. Nothing else of the processor is touched.
-/

namespace VmxControl

/-- What software has to set up before VMX operation, and what CPUID says of it. -/
structure Settings where
  vmx : Bool
  cr0 : UInt64
  cr4 : UInt64
  msrs : Store Msr UInt64

namespace Emulator

def settings (e : Emulator) : Settings := ⟨e.vmx, e.cr0, e.cr4, e.msrs⟩

/-- The number of the failure that is injected into the next command of this kind. -/
def injectedNumber? (e : Emulator) (i : Injection) : Option UInt32 :=
  (e.injected.find? fun x => x.1 == i).map (·.2)

/-- The number with which a command fails. A command that is carried out has none, and neither has
one that fails because it is given outside of VMX operation, without a current structure, or with a
region that VMX operation cannot run on. -/
def number? (e : Emulator) : Command → Option UInt32
  | .vmxon _ _ => if e.cr4 &&& vmxe ≠ 0 ∧ e.inRoot then some 15 else none
  | .vmxoff => if e.inRoot then e.injectedNumber? .vmxoff else none
  | .vmptrld region m =>
    e.vmxonPtr.bind fun on =>
      if on = region then some 10 else if m.readWord region ≠ revision then some 11 else none
  | .vmclear region =>
    e.vmxonPtr.bind fun on => if on = region then some 3 else e.injectedNumber? .vmclear
  | .vmread field => e.current.bind fun _ => e.injectedNumber? (.vmread field)
  | .vmwrite field _ =>
    e.current.bind fun _ => if Area.ofEncoding field = .readOnly then some 13 else none
  | .enter k _ => e.current.bind fun vmcs => (e.misplaced? k vmcs).or e.failingEntry
  | .invept _ _ => if e.inRoot then e.injectedNumber? .invept else none
  | .invvpid s d =>
    if e.inRoot then
      if d.first = 0 ∧ s ≠ .allContexts then some 28 else e.injectedNumber? .invvpid
    else none
  | .writeHostState => e.current.bind fun _ => e.injectedNumber? .hostState
  | .present | .readMsr _ | .writeMsr _ _ | .writeCr4 _ | .timestamp => none

/-- The word of a field of the current structure. -/
def word (e : Emulator) (field : UInt32) : UInt64 :=
  e.current.elim 0 fun vmcs => e.fields.get (vmcs, field)

/-- The processor after a write of a field of the current structure. -/
def setWord (e : Emulator) (field : UInt32) (v : UInt64) : Emulator :=
  e.current.elim e fun vmcs => { e with fields := e.fields.put (vmcs, field) v }

theorem setWord_eq {e : Emulator} {vmcs : PhysAddr} (h : e.current = some vmcs) (field : UInt32)
    (v : UInt64) : e.setWord field v = { e with fields := e.fields.put (vmcs, field) v } := by
  simp only [setWord, h, Option.elim_some]

/-- The guest of the current structure runs up to an exit. -/
def runCurrent (k : Entry) (regs : Registers) (e : Emulator) : Emulator :=
  e.current.elim e fun vmcs => e.runGuest k vmcs regs

/-- What the command leads to when it is carried out. -/
def next (e : Emulator) : Command → Emulator
  | .present => e.present.2
  | .readMsr r => (e.readMsr r).2
  | .writeMsr r v => e.writeMsr r v
  | .writeCr4 v => e.writeCr4 v
  | .vmxon region _ => { e.record (.vmxon region) with vmxonPtr := some region }
  | .vmxoff => { e.record .vmxoff with vmxonPtr := none, current := none }
  | .vmptrld region _ => { e.record (.vmptrld region) with current := some region }
  | .vmclear region =>
    { e.record (.vmclear region) with
      launched := e.launched.put region false
      current := if e.current = some region then none else e.current }
  | .vmread _ => e
  | .vmwrite field v => (e.record (.vmwrite field v)).setWord field v
  | .enter k regs => (e.count k).runCurrent k regs
  | .invept s d => e.record (.invept s d)
  | .invvpid s d => e.record (.invvpid s d)
  | .writeHostState => (e.record .hostState).setWord Field.hostInstructionPointer hostEntryPoint
  | .timestamp => e.timestamp.2

theorem injected_setWord (e : Emulator) (field : UInt32) (v : UInt64) :
    (e.setWord field v).injected = e.injected := by
  unfold setWord
  cases e.current <;> rfl

theorem injected_runCurrent (e : Emulator) (k : Entry) (regs : Registers) :
    (e.runCurrent k regs).injected = e.injected := by
  unfold runCurrent
  cases e.current with
  | none => rfl
  | some vmcs =>
    simp only [Option.elim_some, runGuest]
    split <;> rfl

/-- A failure that is injected waits for a command that it is for. -/
theorem injected_next (e : Emulator) (c : Command) : (e.next c).injected = e.injected := by
  cases c with
  | vmwrite | writeHostState => exact injected_setWord _ _ _
  | enter k regs =>
    refine (injected_runCurrent _ k regs).trans ?_
    cases k <;> rfl
  | _ => rfl

/-- The two differ in no more than what a refusal may change. -/
structure Spares (e e' : Emulator) : Prop where
  settings : e'.settings = e.settings
  vmxonPtr : e'.vmxonPtr = e.vmxonPtr
  current : e'.current = e.current
  launched : e'.launched = e.launched
  fields : ∀ a f, f ≠ Field.instructionError → e'.fields.get (a, f) = e.fields.get (a, f)
  pending : ∀ i, e'.pending i = true → e.pending i = true

namespace Spares

theorem refl (e : Emulator) : e.Spares e := ⟨rfl, rfl, rfl, rfl, fun _ _ _ => rfl, fun _ => id⟩

theorem trans {e e' e'' : Emulator} (h : e.Spares e') (h' : e'.Spares e'') : e.Spares e'' where
  settings := h'.settings.trans h.settings
  vmxonPtr := h'.vmxonPtr.trans h.vmxonPtr
  current := h'.current.trans h.current
  launched := h'.launched.trans h.launched
  fields a f hf := (h'.fields a f hf).trans (h.fields a f hf)
  pending i hi := h.pending i (h'.pending i hi)

theorem not_pending {e e' : Emulator} {i : Injection} (h : e.Spares e')
    (hp : e.pending i = false) : e'.pending i = false :=
  Bool.eq_false_iff.2 fun hi => Bool.eq_false_iff.1 hp (h.pending i hi)

theorem count (e : Emulator) (k : Entry) : e.Spares (e.count k) := by
  cases k <;> exact ⟨rfl, rfl, rfl, rfl, fun _ _ _ => rfl, fun _ => id⟩

end Spares

/-- A refusal: the flag says whether the number has found a place. -/
structure Declines (e : Emulator) (n : Option UInt32) (f : VmFail) (e' : Emulator) : Prop
    extends Spares e e' where
  flag : f = if n.isSome && e.current.isSome then .valid else .invalid
  number : ∀ code a, n = some code → e.current = some a →
    e'.fields.get (a, Field.instructionError) = code.toUInt64

/-- The result is that of a command which fails with the number `n`, or else leads to `next`. -/
def Obeys {α : Type} (e : Emulator) (n : Option UInt32) (next : α × Emulator)
    (r : Except VmFail α × Emulator) : Prop :=
  (n = none ∧ r = (.ok next.1, next.2)) ∨ ∃ f e', r = (.error f, e') ∧ e.Declines n f e'

variable {α : Type} {e : Emulator} {next : α × Emulator}

theorem Obeys.snd {n : Option UInt32} {r : Except VmFail α × Emulator} (h : e.Obeys n next r) :
    r.2 = next.2 ∨ e.Spares r.2 := by
  obtain ⟨-, rfl⟩ | ⟨f, e', rfl, hd⟩ := h
  · exact .inl rfl
  · exact .inr hd.toSpares

theorem Obeys.of_ok {n : Option UInt32} {a : α} {e' : Emulator}
    (h : e.Obeys n next (.ok a, e')) : e' = next.2 := by
  obtain ⟨-, he⟩ | ⟨f, e'', he, -⟩ := h
  · exact congrArg Prod.snd he
  · cases he

theorem obeys_ok (e : Emulator) (next : α × Emulator) :
    e.Obeys none next (.ok next.1, next.2) := .inl ⟨rfl, rfl⟩

theorem obeys_invalid (e : Emulator) (next : α × Emulator) :
    e.Obeys none next (.error .invalid, e) :=
  .inr ⟨_, _, rfl, .refl e, rfl, nofun⟩

/-- Failing with a number after something that a refusal may change. -/
theorem obeys_fail {e₀ : Emulator} (h : e₀.Spares e) (code : UInt32) (next : α × Emulator) :
    e₀.Obeys (some code) next (e.fail code) := by
  refine .inr ?_
  cases hc : e.current with
  | none =>
    have h₀ : e₀.current = none := h.current.symm.trans hc
    refine ⟨.invalid, e, by simp only [fail, hc], h, by simp [h₀], fun _ a _ ha => ?_⟩
    cases h₀.symm.trans ha
  | some vmcs =>
    have h₀ : e₀.current = some vmcs := h.current.symm.trans hc
    let e' : Emulator :=
      { e with fields := e.fields.put (vmcs, Field.instructionError) code.toUInt64 }
    have hs : e.Spares e' := by
      refine ⟨rfl, rfl, rfl, rfl, fun a f hf => ?_, fun _ => id⟩
      exact Store.get_put_other _ _ fun he => hf (congrArg Prod.snd he)
    refine ⟨.valid, e', by simp only [fail, hc, e'], h.trans hs, by simp [h₀], ?_⟩
    intro code' a hn ha
    cases hn
    cases h₀.symm.trans ha
    exact Store.get_put_same _ _ _

theorem obeys_unlessInjected (e : Emulator) (i : Injection) (next : α × Emulator) :
    e.Obeys (e.injectedNumber? i) next (e.unlessInjected i (.ok next.1, next.2)) := by
  cases ht : Script.take? (fun x => x.1 == i) e.injected with
  | none =>
    have hn : e.injectedNumber? i = none := by
      rw [injectedNumber?, List.find?_eq_none.2 fun x hx => ?_, Option.map_none]
      simp [Script.take?_eq_none.1 ht x hx]
    rw [hn]
    simp only [unlessInjected, ht]
    exact e.obeys_ok next
  | some r =>
    obtain ⟨x, rest⟩ := r
    have hn : e.injectedNumber? i = some x.2 := by
      rw [injectedNumber?, Script.find?_of_take? ht, Option.map_some]
    have hs : e.Spares { e with injected := rest } := by
      refine ⟨rfl, rfl, rfl, rfl, fun _ _ _ => rfl, fun j hj => ?_⟩
      obtain ⟨y, hy, hyj⟩ := List.any_eq_true.1 hj
      exact List.any_eq_true.2 ⟨y, (Script.sublist_of_take? ht).subset hy, hyj⟩
    rw [hn]
    simp only [unlessInjected, ht]
    exact obeys_fail hs x.2 next

/-! ## Commands -/

theorem obeys_vmxon {a : PhysAddr} {m : Memory} (h : e.cr4 &&& vmxe ≠ 0) :
    ∃ r, e.vmxon a m = .ok r ∧
      e.Obeys (e.number? (.vmxon a m)) ((), e.next (.vmxon a m)) r := by
  unfold number?
  simp only [vmxon, h, ↓reduceIte, not_false_eq_true, ne_eq, true_and]
  split
  · exact ⟨_, rfl, obeys_fail (.refl e) 15 _⟩
  · split
    · exact ⟨_, rfl, e.obeys_invalid _⟩
    · exact ⟨_, rfl, e.obeys_ok _⟩

theorem obeys_vmxoff (e : Emulator) :
    e.Obeys (e.number? .vmxoff) ((), e.next .vmxoff) e.vmxoff := by
  unfold number?
  simp only [vmxoff]
  split
  · exact e.obeys_unlessInjected .vmxoff _
  · exact e.obeys_invalid _

theorem obeys_vmptrld (e : Emulator) (a : PhysAddr) (m : Memory) :
    e.Obeys (e.number? (.vmptrld a m)) ((), e.next (.vmptrld a m)) (e.vmptrld a m) := by
  unfold number?
  cases hv : e.vmxonPtr with
  | none =>
    simp only [vmptrld, hv]
    exact e.obeys_invalid _
  | some on =>
    simp only [vmptrld, hv, Option.bind_some]
    split
    · exact obeys_fail (.refl e) 10 _
    · split
      · exact obeys_fail (.refl e) 11 _
      · exact e.obeys_ok _

theorem obeys_vmclear (e : Emulator) (a : PhysAddr) :
    e.Obeys (e.number? (.vmclear a)) ((), e.next (.vmclear a)) (e.vmclear a) := by
  unfold number?
  cases hv : e.vmxonPtr with
  | none =>
    simp only [vmclear, hv]
    exact e.obeys_invalid _
  | some on =>
    simp only [vmclear, hv, Option.bind_some]
    split
    · exact obeys_fail (.refl e) 3 _
    · exact e.obeys_unlessInjected .vmclear _

theorem obeys_vmread (e : Emulator) (field : UInt32) :
    e.Obeys (e.number? (.vmread field)) (e.word field, e.next (.vmread field))
      (e.vmread field) := by
  unfold number?
  cases hc : e.current with
  | none =>
    simp only [vmread, hc]
    exact e.obeys_invalid _
  | some vmcs =>
    simp only [vmread, word, hc, Option.bind_some, Option.elim_some]
    exact e.obeys_unlessInjected (.vmread field) (e.fields.get (vmcs, field), e)

theorem obeys_vmwrite (e : Emulator) (field : UInt32) (v : UInt64) :
    e.Obeys (e.number? (.vmwrite field v)) ((), e.next (.vmwrite field v))
      (e.vmwrite field v) := by
  unfold number?
  cases hc : e.current with
  | none =>
    simp only [vmwrite, hc]
    exact e.obeys_invalid _
  | some vmcs =>
    rw [next, setWord_eq (e := e.record _) hc]
    simp only [vmwrite, hc, Option.bind_some]
    split
    · exact obeys_fail (.refl e) 13 _
    · exact e.obeys_ok _

theorem obeys_tryEnter (e : Emulator) (k : Entry) (regs : Registers) :
    e.Obeys (e.number? (.enter k regs)) ((), e.runCurrent k regs) (e.tryEnter k regs) := by
  cases hc : e.current with
  | none =>
    unfold number?
    simp only [tryEnter, hc]
    exact e.obeys_invalid _
  | some vmcs =>
    have hn : e.number? (.enter k regs) = (e.misplaced? k vmcs).or e.failingEntry := by
      unfold number?
      simp only [hc, Option.bind_some]
    have hr : e.runCurrent k regs = e.runGuest k vmcs regs := by
      simp only [runCurrent, hc, Option.elim_some]
    rw [hn, hr]
    cases hm : e.misplaced? k vmcs with
    | some code =>
      have ht : e.tryEnter k regs = e.fail code := by simp only [tryEnter, hc, hm]
      rw [ht]
      exact obeys_fail (.refl e) code _
    | none =>
      cases hf : e.failingEntry with
      | some code =>
        have ht : e.tryEnter k regs = { e with failingEntry := none }.fail code := by
          simp only [tryEnter, hc, hm, hf]
        have hs : e.Spares { e with failingEntry := none } :=
          ⟨rfl, rfl, rfl, rfl, fun _ _ _ => rfl, fun _ => id⟩
        rw [ht]
        exact obeys_fail hs code _
      | none =>
        have ht : e.tryEnter k regs = (.ok (), e.runGuest k vmcs regs) := by
          simp only [tryEnter, hc, hm, hf]
        rw [ht]
        exact e.obeys_ok _

@[simp] theorem number?_count (e : Emulator) (j : Entry) (c : Command) :
    (e.count j).number? c = e.number? c := by
  cases j <;> rfl

/-- An attempt that is refused still counts. -/
theorem obeys_enter (e : Emulator) (k : Entry) (regs : Registers) :
    e.Obeys (e.number? (.enter k regs)) ((), e.next (.enter k regs))
      ((e.count k).tryEnter k regs) := by
  obtain ⟨hn, he⟩ | ⟨f, e', he, hd⟩ := (e.count k).obeys_tryEnter k regs
  · exact .inl ⟨(e.number?_count k _).symm.trans hn, he⟩
  · have hc : (e.count k).current = e.current := (Spares.count e k).current
    have hs : e.Spares e' := (Spares.count e k).trans hd.toSpares
    rw [number?_count] at hd
    exact .inr ⟨f, e', he, hs, hc ▸ hd.flag, hc ▸ hd.number⟩

theorem obeys_invept (e : Emulator) (s : EptScope) (d : Descriptor) :
    e.Obeys (e.number? (.invept s d)) ((), e.next (.invept s d)) (e.invept s d) := by
  unfold number?
  simp only [invept]
  split
  · exact e.obeys_unlessInjected .invept _
  · exact e.obeys_invalid _

theorem obeys_invvpid (e : Emulator) (s : VpidScope) (d : Descriptor) :
    e.Obeys (e.number? (.invvpid s d)) ((), e.next (.invvpid s d)) (e.invvpid s d) := by
  unfold number?
  simp only [invvpid]
  split
  · split
    · exact obeys_fail (.refl e) 28 _
    · exact e.obeys_unlessInjected .invvpid _
  · exact e.obeys_invalid _

theorem obeys_writeHostState (e : Emulator) :
    e.Obeys (e.number? .writeHostState) ((), e.next .writeHostState) e.writeHostState := by
  unfold number?
  cases hc : e.current with
  | none =>
    simp only [writeHostState, hc]
    exact e.obeys_invalid _
  | some vmcs =>
    rw [next, setWord_eq (e := e.record _) hc]
    simp only [writeHostState, hc, Option.bind_some]
    exact e.obeys_unlessInjected .hostState _

/-- A command is carried out or refused. -/
theorem on_cases (e : Emulator) (c : Command) : c.on e = e.next c ∨ e.Spares (c.on e) := by
  cases c with
  | present | readMsr | writeMsr | writeCr4 | timestamp => exact .inl rfl
  | vmxon a m =>
    by_cases hx : e.cr4 &&& vmxe = 0
    · have hv : Processor.vmxon a m e = .error .vmxonWithoutVmxe := if_pos hx
      simp only [Command.on, hv]
      exact .inr (.refl e)
    · obtain ⟨r, he, ho⟩ := obeys_vmxon (a := a) (m := m) hx
      have hv : Processor.vmxon a m e = .ok r := he
      simp only [Command.on, hv]
      exact ho.snd
  | vmxoff => exact e.obeys_vmxoff.snd
  | vmptrld a m => exact (e.obeys_vmptrld a m).snd
  | vmclear a => exact (e.obeys_vmclear a).snd
  | vmread f => exact (e.obeys_vmread f).snd
  | vmwrite f v => exact (e.obeys_vmwrite f v).snd
  | enter k regs => exact (e.obeys_enter k regs).snd
  | invept s d => exact (e.obeys_invept s d).snd
  | invvpid s d => exact (e.obeys_invvpid s d).snd
  | writeHostState => exact e.obeys_writeHostState.snd

end Emulator

end VmxControl
