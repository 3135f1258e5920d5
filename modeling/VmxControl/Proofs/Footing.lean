import VmxControl.Bench.Rig
import VmxControl.Proofs.CurrentStructure
import VmxControl.Proofs.Mode

/-!
# What VMX operation stands on

A processor is in VMX operation on some region or outside of it, and CR4 says whether VMXON is an
instruction at all: this is its footing. Only VMXON, VMXOFF and writes of CR4 move it. Nothing else is
asked of a processor here; any instruction may fail at any time, and then leaves the footing alone.
The emulated processor is of this kind, and so is a rig, whose every instruction can be made to fail.
-/

namespace VmxControl

structure Footing where
  /-- The region that VMX operation runs on. -/
  region : Option PhysAddr
  cr4 : UInt64
  deriving DecidableEq, Repr

/-- The instruction puts the processor on the footing `t`, or fails and leaves it where it was. -/
def Turns {P : Type} (footing : P → Footing) (p : P) (t : Footing) (r : Except VmFail Unit × P) :
    Prop :=
  (∃ q, r = (.ok (), q) ∧ footing q = t) ∨ ∃ f q, r = (.error f, q) ∧ footing q = footing p

/-- Processors that keep their footing. VMPTRLD never takes the region that VMX operation runs on.
In VMX operation a structure is cleared, and the operation left, unless a failure is pending. -/
class Grounded (P : Type) [Processor P] where
  footing : P → Footing
  pending : Injection → P → Bool
  readCr4 : ∀ p, Processor.readCr4 p = (footing p).cr4
  writeCr4 : ∀ v p, footing (Processor.writeCr4 v p) = { footing p with cr4 := v }
  vmxon : ∀ a m p, (footing p).cr4 &&& vmxe ≠ 0 →
    ∃ r, Processor.vmxon a m p = .ok r ∧ Turns footing p { footing p with region := some a } r
  vmxoff : ∀ p, Turns footing p { footing p with region := none } (Processor.vmxoff p)
  vmptrld : ∀ a m p, footing (Processor.vmptrld a m p).2 = footing p
  vmptrld_apart : ∀ a m p, (Processor.vmptrld a m p).1 = .ok () → (footing p).region ≠ some a
  vmclear : ∀ a p, footing (Processor.vmclear a p).2 = footing p
  present : ∀ p, footing (Processor.present p).2 = footing p
  readMsr : ∀ r p, footing (Processor.readMsr r p).2 = footing p
  writeMsr : ∀ r v p, footing (Processor.writeMsr r v p) = footing p
  vmread : ∀ f p, footing (Processor.vmread f p).2 = footing p
  vmwrite : ∀ f v p, footing (Processor.vmwrite f v p).2 = footing p
  enter : ∀ k regs p, footing (Processor.enter k regs p).2.2 = footing p
  invept : ∀ s d p, footing (Processor.invept s d p).2 = footing p
  invvpid : ∀ s d p, footing (Processor.invvpid s d p).2 = footing p
  writeHostState : ∀ p, footing (Processor.writeHostState p).2 = footing p
  timestamp : ∀ p, footing (Processor.timestamp p).2 = footing p
  vmclear_ok : ∀ a b p, (footing p).region = some b → b ≠ a → pending .vmclear p = false →
    ∃ q, Processor.vmclear a p = (.ok (), q) ∧ pending .vmxoff q = pending .vmxoff p
  vmxoff_ok : ∀ p, (footing p).region ≠ none → pending .vmxoff p = false →
    ∃ q, Processor.vmxoff p = (.ok (), q)

/-! ## Emulated processors -/

namespace Op

/-- The effect moves the footing. -/
def Shifts : Op → Prop
  | .vmxon _ | .vmxoff | .cr4 _ => True
  | _ => False

end Op

def Standing.footing (st : Standing) : Footing := ⟨st.vmxonPtr, st.cr4⟩

theorem Standing.footing_apply (st : Standing) {o : Op} (h : ¬ o.Shifts) :
    (st.apply o).footing = st.footing := by
  cases o with
  | vmxon | vmxoff | cr4 => exact absurd trivial h
  | _ => rfl

namespace Emulator

def footing (e : Emulator) : Footing := e.standing.footing

theorem footing_of_standing {e e' : Emulator} (h : e'.standing = e.standing) :
    e'.footing = e.footing := congrArg Standing.footing h

theorem Settles.footing {α : Type} {e : Emulator} {o : Op} {r : Except VmFail α × Emulator}
    (h : e.Settles o r) (ho : ¬ o.Shifts) : r.2.footing = e.footing := by
  obtain ⟨a, e', rfl, hs⟩ | ⟨f, e', rfl, hs⟩ := h
  · exact (congrArg Standing.footing hs).trans (e.standing.footing_apply ho)
  · exact footing_of_standing hs

theorem Settles.turns {e : Emulator} {o : Op} {r : Except VmFail Unit × Emulator}
    (h : e.Settles o r) : Turns Emulator.footing e (e.standing.apply o).footing r := by
  obtain ⟨u, e', rfl, hs⟩ | ⟨f, e', rfl, hs⟩ := h
  · exact .inl ⟨e', rfl, congrArg Standing.footing hs⟩
  · exact .inr ⟨f, e', rfl, footing_of_standing hs⟩

theorem footing_enter (k : Entry) (regs : Registers) (e : Emulator) :
    (e.enter k regs).2.2.footing = e.footing := by
  have hc : (e.count k).footing = e.footing := by cases k <;> rfl
  obtain ⟨f, e', he, hs⟩ | ⟨vmcs, raw, e', he, -, -, -, hs⟩ := (e.count k).tryEnter_cases k regs
  · simp only [enter, he]
    exact (footing_of_standing hs).trans hc
  · simp only [enter, he]
    refine Eq.trans ?_ hc
    rw [footing, hs]
    split
    · rfl
    · exact Standing.footing_apply _ id

theorem vmclear_ok {e : Emulator} {a b : PhysAddr} (hon : e.footing.region = some b) (ha : b ≠ a)
    (hp : e.pending .vmclear = false) :
    ∃ q, e.vmclear a = (.ok (), q) ∧ q.pending .vmxoff = e.pending .vmxoff := by
  have hv : e.vmxonPtr = some b := hon
  unfold vmclear
  simp only [hv, if_neg ha]
  obtain ⟨hx, -⟩ | ⟨-, he⟩ := unlessInjected_cases e .vmclear _
  · cases hx.symm.trans hp
  · exact ⟨_, he, rfl⟩

theorem vmxoff_ok {e : Emulator} (hon : e.footing.region ≠ none)
    (hp : e.pending .vmxoff = false) : ∃ q, e.vmxoff = (.ok (), q) := by
  have hr : e.inRoot = true := Option.isSome_iff_ne_none.2 hon
  unfold vmxoff
  simp only [hr, ↓reduceIte]
  obtain ⟨hx, -⟩ | ⟨-, he⟩ := unlessInjected_cases e .vmxoff _
  · cases hx.symm.trans hp
  · exact ⟨_, he⟩

instance : Grounded Emulator where
  footing := footing
  pending := pending
  readCr4 _ := rfl
  writeCr4 _ _ := rfl
  vmxon a m e hx := by
    obtain ⟨hn, -⟩ | ⟨-, r, he, hs⟩ := e.vmxon_cases a m
    · exact absurd hn hx
    · exact ⟨r, he, hs.turns⟩
  vmxoff e := e.settles_vmxoff.turns
  vmptrld a m e := (e.settles_vmptrld a m).footing id
  vmptrld_apart a m e h := by
    obtain ⟨⟨on, hon, hne⟩, -⟩ := vmptrld_ok (e := e) (a := a) (m := m) (Prod.ext h rfl)
    intro hr
    cases hon.symm.trans hr
    exact hne rfl
  vmclear a e := (e.settles_vmclear a).footing id
  present _ := rfl
  readMsr _ _ := rfl
  writeMsr _ _ _ := rfl
  vmread f e := by
    obtain ⟨r, e', he, hs, -⟩ := e.vmread_eq f
    exact (congrArg (fun x => x.2.footing) he).trans (footing_of_standing hs)
  vmwrite f v e := (e.settles_vmwrite f v).footing id
  enter k regs e := e.footing_enter k regs
  invept s d e := (e.settles_invept s d).footing id
  invvpid s d e := (e.settles_invvpid s d).footing id
  writeHostState e := e.settles_writeHostState.footing id
  timestamp _ := rfl
  vmclear_ok _ _ _ := vmclear_ok
  vmxoff_ok _ := vmxoff_ok

end Emulator

/-! ## Rigs -/

/-- The name under which an instruction is made to fail. -/
def Injection.mnemonic : Injection → Mnemonic
  | .vmxoff => .vmxoff
  | .vmclear => .vmclear
  | .vmread _ => .vmread
  | .invept => .invept
  | .invvpid => .invvpid
  | .hostState => .hostState

namespace Rig

variable {α : Type}

def footing (g : Rig) : Footing := g.emulator.footing

/-- A failure is forced or injected. -/
def pending (i : Injection) (g : Rig) : Bool :=
  (g.forced.any fun x => x.1 == i.mnemonic) || g.emulator.pending i

theorem takeForced_cases (m : Mnemonic) (g : Rig) :
    (∃ f g', g.takeForced m = some (f, g') ∧ g'.emulator = g.emulator) ∨ g.takeForced m = none := by
  unfold takeForced
  cases Script.take? (fun x => x.1 == m) g.forced with
  | some r => exact .inl ⟨_, _, rfl, rfl⟩
  | none => exact .inr rfl

theorem takeForced_eq_none {m : Mnemonic} {g : Rig}
    (h : (g.forced.any fun x => x.1 == m) = false) : g.takeForced m = none := by
  have hn : Script.take? (fun x => x.1 == m) g.forced = none :=
    Script.take?_eq_none.2 fun x hx => List.any_eq_false.1 h x hx |> Bool.eq_false_iff.2
  simp only [takeForced, hn, Option.map_none]

/-- A forced failure does not reach the processor. -/
theorem unlessForced_cases (m : Mnemonic) (i : Emulator → Except VmFail α × Emulator) (g : Rig) :
    (∃ f g', g.unlessForced m i = (.error f, g') ∧ g'.emulator = g.emulator) ∨
    g.unlessForced m i = ((i g.emulator).1, { g with emulator := (i g.emulator).2 }) := by
  obtain ⟨f, g', ht, he⟩ | ht := g.takeForced_cases m
  · exact .inl ⟨f, g', by simp only [unlessForced, ht], he⟩
  · exact .inr (by simp only [unlessForced, ht])

theorem footing_unlessForced {m : Mnemonic} {i : Emulator → Except VmFail α × Emulator} {g : Rig}
    (h : (i g.emulator).2.footing = g.emulator.footing) :
    (g.unlessForced m i).2.footing = g.footing := by
  obtain ⟨f, g', hu, he⟩ | hu := g.unlessForced_cases m i
  · rw [hu]
    exact congrArg Emulator.footing he
  · rw [hu]
    exact h

theorem turns_unlessForced {m : Mnemonic} {i : Emulator → Except VmFail Unit × Emulator} {g : Rig}
    {t : Footing} (h : Turns Emulator.footing g.emulator t (i g.emulator)) :
    Turns Rig.footing g t (g.unlessForced m i) := by
  obtain ⟨f, g', hu, he⟩ | hu := g.unlessForced_cases m i
  · exact .inr ⟨f, g', hu, congrArg Emulator.footing he⟩
  · rw [hu]
    obtain ⟨q, hq, ht⟩ | ⟨f, q, hq, ht⟩ := h
    · exact .inl ⟨{ g with emulator := q }, by rw [hq], ht⟩
    · exact .inr ⟨f, { g with emulator := q }, by rw [hq], ht⟩

theorem footing_enter (k : Entry) (regs : Registers) (g : Rig) :
    (g.enter k regs).2.2.footing = g.footing := by
  obtain ⟨f, g', ht, he⟩ | ht := g.takeForced_cases (entryName k)
  · simp only [enter, ht]
    exact congrArg Emulator.footing he
  · have hf := Emulator.footing_enter k regs g.emulator
    simp only [enter, ht]
    split
    · next he => rw [he] at hf; exact hf
    · next he => rw [he] at hf; exact hf

theorem footing_timestamp (g : Rig) : g.timestamp.2.footing = g.footing := by
  unfold timestamp
  split <;> rfl

theorem vmxon_ok {a : PhysAddr} {m : Memory} {g : Rig} (hx : g.footing.cr4 &&& vmxe ≠ 0) :
    ∃ r, g.vmxon a m = .ok r ∧ Turns Rig.footing g { g.footing with region := some a } r := by
  obtain ⟨f, g', ht, he⟩ | ht := g.takeForced_cases .vmxon
  · refine ⟨(.error f, g'), by simp only [vmxon, ht], .inr ⟨f, g', rfl, ?_⟩⟩
    exact congrArg Emulator.footing he
  · obtain ⟨r, he, hr⟩ := Grounded.vmxon a m g.emulator hx
    have hv : g.emulator.vmxon a m = .ok r := he
    refine ⟨(r.1, { g with emulator := r.2 }), by simp only [vmxon, ht, hv], ?_⟩
    obtain ⟨q, rfl, hq⟩ | ⟨f, q, rfl, hq⟩ := hr
    · exact .inl ⟨_, rfl, hq⟩
    · exact .inr ⟨f, _, rfl, hq⟩

theorem vmptrld_apart {a : PhysAddr} {m : Memory} {g : Rig}
    (h : (g.unlessForced .vmptrld (Emulator.vmptrld a m)).1 = .ok ()) :
    g.footing.region ≠ some a := by
  obtain ⟨f, g', hu, -⟩ | hu := g.unlessForced_cases .vmptrld (Emulator.vmptrld a m)
  · rw [hu] at h
    cases h
  · rw [hu] at h
    exact Grounded.vmptrld_apart a m g.emulator h

theorem vmclear_ok {g : Rig} {a b : PhysAddr} (hon : g.footing.region = some b) (ha : b ≠ a)
    (hp : g.pending .vmclear = false) :
    ∃ q, g.unlessForced .vmclear (Emulator.vmclear a) = (.ok (), q) ∧
      q.pending .vmxoff = g.pending .vmxoff := by
  obtain ⟨hf, hi⟩ := Bool.or_eq_false_iff.1 hp
  obtain ⟨q, hq, hx⟩ := Emulator.vmclear_ok hon ha hi
  refine ⟨{ g with emulator := q }, ?_, ?_⟩
  · simp only [unlessForced, takeForced_eq_none (m := .vmclear) hf, hq]
  · simp only [pending, hx]

theorem vmxoff_ok {g : Rig} (hon : g.footing.region ≠ none) (hp : g.pending .vmxoff = false) :
    ∃ q, g.unlessForced .vmxoff Emulator.vmxoff = (.ok (), q) := by
  obtain ⟨hf, hi⟩ := Bool.or_eq_false_iff.1 hp
  obtain ⟨q, hq⟩ := Emulator.vmxoff_ok hon hi
  exact ⟨{ g with emulator := q },
    by simp only [unlessForced, takeForced_eq_none (m := .vmxoff) hf, hq]⟩

instance : Grounded Rig where
  footing := footing
  pending := pending
  readCr4 _ := rfl
  writeCr4 _ _ := rfl
  vmxon _ _ _ := vmxon_ok
  vmxoff g := turns_unlessForced (Grounded.vmxoff g.emulator)
  vmptrld a m g := footing_unlessForced (Grounded.vmptrld a m g.emulator)
  vmptrld_apart _ _ _ := vmptrld_apart
  vmclear a g := footing_unlessForced (Grounded.vmclear a g.emulator)
  present _ := rfl
  readMsr _ _ := rfl
  writeMsr _ _ _ := rfl
  vmread f g := footing_unlessForced (Grounded.vmread f g.emulator)
  vmwrite f v g := footing_unlessForced (Grounded.vmwrite f v g.emulator)
  enter k regs g := g.footing_enter k regs
  invept s d g := footing_unlessForced (Grounded.invept s d g.emulator)
  invvpid s d g := footing_unlessForced (Grounded.invvpid s d g.emulator)
  writeHostState g := footing_unlessForced (Grounded.writeHostState g.emulator)
  timestamp := footing_timestamp
  vmclear_ok _ _ _ := vmclear_ok
  vmxoff_ok _ := vmxoff_ok

end Rig

end VmxControl
