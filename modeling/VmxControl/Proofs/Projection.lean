import VmxControl.Core.Operation
import VmxControl.Recorder

/-!
# Projections

A projection of one kind of processor onto another commutes with every instruction. An operation
then comes to the same on both, for it sees no more of a processor than what instructions return.
A recorder is projected onto the emulated processor behind it, so recording makes no difference.
-/

namespace VmxControl

variable {P Q α : Type}

structure Projects [Processor P] [Processor Q] (π : P → Q) : Prop where
  readCr4 : ∀ p, Processor.readCr4 (π p) = Processor.readCr4 p
  writeCr4 : ∀ v p, Processor.writeCr4 v (π p) = π (Processor.writeCr4 v p)
  vmxon : ∀ a m p, Processor.vmxon a m (π p) = (Processor.vmxon a m p).map (Prod.map id π)
  vmxoff : ∀ p, Processor.vmxoff (π p) = Prod.map id π (Processor.vmxoff p)
  vmptrld : ∀ a m p, Processor.vmptrld a m (π p) = Prod.map id π (Processor.vmptrld a m p)
  vmclear : ∀ a p, Processor.vmclear a (π p) = Prod.map id π (Processor.vmclear a p)
  vmread : ∀ f p, Processor.vmread f (π p) = Prod.map id π (Processor.vmread f p)
  vmwrite : ∀ f v p, Processor.vmwrite f v (π p) = Prod.map id π (Processor.vmwrite f v p)
  enter : ∀ k regs p,
    Processor.enter k regs (π p) = Prod.map id (Prod.map id π) (Processor.enter k regs p)
  invept : ∀ s d p, Processor.invept s d (π p) = Prod.map id π (Processor.invept s d p)
  invvpid : ∀ s d p, Processor.invvpid s d (π p) = Prod.map id π (Processor.invvpid s d p)
  writeHostState : ∀ p, Processor.writeHostState (π p) = Prod.map id π (Processor.writeHostState p)

def Machine.map (π : P → Q) (s : Machine P) : Machine Q := ⟨π s.processor, s.host⟩

def Outcome.map (π : P → Q) (o : Outcome P) : Outcome Q :=
  { failure := o.failure, back := o.back, core := o.core, machine := o.machine.map π }

namespace Machine

@[simp] theorem map_note (π : P → Q) (s : Machine P) (id : UInt64) (n : CoreNote) :
    (s.map π).note id n = (s.note id n).map π := rfl

theorem map_exec {π : P → Q} {i : P → Except VmFail α × P} {j : Q → Except VmFail α × Q}
    (h : ∀ p, j (π p) = Prod.map id π (i p)) (s : Machine P) :
    (s.map π).exec j = Prod.map id (map π) (s.exec i) := by
  simp only [exec, map, h]
  rfl

end Machine

variable [Processor P] [Processor Q] {π : P → Q}

namespace Machine

theorem map_diagnose (hπ : Projects π) (s : Machine P) (f : VmFail) :
    (s.map π).diagnose f = Prod.map id (map π) (s.diagnose f) := by
  cases f with
  | invalid => rfl
  | valid =>
    simp only [diagnose, map_exec (hπ.vmread Field.instructionError)]
    rcases s.exec (Processor.vmread Field.instructionError) with ⟨e | v, t⟩ <;> rfl

theorem map_attempt (hπ : Projects π) {i : P → Except VmFail α × P} {j : Q → Except VmFail α × Q}
    (h : ∀ p, j (π p) = Prod.map id π (i p)) (s : Machine P) :
    (s.map π).attempt j = Prod.map id (map π) (s.attempt i) := by
  simp only [attempt, map_exec h]
  rcases s.exec i with ⟨f | a, t⟩
  · simp only [Prod.map, id, map_diagnose hπ]
  · rfl

theorem map_clearVmxe (hπ : Projects π) (s : Machine P) :
    (s.map π).clearVmxe = s.clearVmxe.map π := by
  simp only [clearVmxe, writeCr4, map, hπ.readCr4, hπ.writeCr4]

end Machine

namespace Core

theorem Enabled.map_enterRoot (hπ : Projects π) (c : Enabled) (region : Region .vmxon)
    (s : Machine P) :
    c.enterRoot region (s.map π) = Prod.map id (Machine.map π) (c.enterRoot region s) := by
  have hx : Processor.vmxon region.addr (s.map π).host.memory (s.map π).processor =
      (Processor.vmxon region.addr s.host.memory s.processor).map (Prod.map id π) :=
    hπ.vmxon _ _ _
  simp only [enterRoot, hx]
  rcases Processor.vmxon region.addr s.host.memory s.processor with t | ⟨f | u, p⟩
  · exact Prod.ext rfl (Machine.map_clearVmxe hπ (s.release region.frame))
  · have hd : Machine.diagnose ⟨π p, s.host⟩ f = _ :=
      Machine.map_diagnose hπ { s with processor := p } f
    simp only [Except.map, Prod.map, id]
    rw [show (s.map π).host = s.host from rfl, hd]
    rfl
  · rfl

namespace Root

theorem map_exitRoot (hπ : Projects π) (c : Root) (s : Machine P) :
    c.exitRoot (s.map π) = Prod.map id (Machine.map π) (c.exitRoot s) := by
  simp only [exitRoot, Machine.map_attempt hπ hπ.vmxoff]
  split
  · rfl
  · rcases s.attempt Processor.vmxoff with ⟨e | u, t⟩ <;> rfl

theorem map_unload (hπ : Projects π) (c : Root) (region : Region .vmcs) (why : Failure)
    (s : Machine P) : c.unload region why (s.map π) = (c.unload region why s).map π := by
  simp only [unload, Machine.map_note, Machine.map_attempt hπ (hπ.vmclear region.addr)]
  rcases (s.note c.id (.hostStateFailed why)).attempt (Processor.vmclear region.addr) with
    ⟨e | u, t⟩ <;> rfl

theorem map_load (hπ : Projects π) (c : Root) (region : Region .vmcs) (s : Machine P) :
    c.load region (s.map π) =
      Prod.map id (Prod.map id (Machine.map π)) (c.load region s) := by
  have hx := Machine.map_attempt hπ (hπ.vmptrld region.addr s.host.memory) s
  unfold load
  split
  · rfl
  · rw [show (s.map π).host = s.host from rfl, hx]
    rcases s.attempt (Processor.vmptrld region.addr s.host.memory) with ⟨e | u, t⟩
    · rfl
    · simp only [Prod.map, id, Machine.map_attempt hπ hπ.writeHostState]
      rcases t.attempt Processor.writeHostState with ⟨e | u, t'⟩
      · simp only [map_unload hπ]
      · rfl

theorem map_clearCurrent (hπ : Projects π) (c : Root) (s : Machine P) :
    c.clearCurrent (s.map π) =
      Prod.map id (Prod.map id (Machine.map π)) (c.clearCurrent s) := by
  unfold clearCurrent
  split
  · rfl
  · next cur _ =>
    rw [Machine.map_attempt hπ (hπ.vmclear cur.region.addr)]
    rcases s.attempt (Processor.vmclear cur.region.addr) with ⟨e | u, t⟩ <;> rfl

theorem map_clear (hπ : Projects π) (c : Root) (region : Region .vmcs) (s : Machine P) :
    c.clear region (s.map π) = Prod.map id (Machine.map π) (c.clear region s) := by
  simp only [clear, Machine.map_attempt hπ (hπ.vmclear region.addr)]
  rcases s.attempt (Processor.vmclear region.addr) with ⟨e | u, t⟩ <;> rfl

theorem map_afterExit (hπ : Projects π) (c : Root) (s : Machine P) :
    c.afterExit (s.map π) = Prod.map id (Prod.map id (Machine.map π)) (c.afterExit s) := by
  simp only [afterExit, Machine.map_attempt hπ (hπ.vmread Field.exitReason)]
  rcases s.attempt (Processor.vmread Field.exitReason) with ⟨e | v, t⟩ <;> rfl

theorem map_enter (hπ : Projects π) (c : Root) (k : Entry) (regs : Registers) (s : Machine P) :
    c.enter k regs (s.map π) =
      Prod.map id (Prod.map id (Prod.map id (Machine.map π))) (c.enter k regs s) := by
  have hx : Processor.enter k regs (s.map π).processor =
      Prod.map id (Prod.map id π) (Processor.enter k regs s.processor) := hπ.enter _ _ _
  unfold enter
  split
  · rfl
  · split
    · rfl
    · rw [hx]
      rcases Processor.enter k regs s.processor with ⟨t | f | u, regs, p⟩
      · rfl
      · have hd : Machine.diagnose ⟨π p, s.host⟩ f = _ :=
          Machine.map_diagnose hπ { s with processor := p } f
        simp only [Prod.map, id]
        rw [show (s.map π).host = s.host from rfl, hd]
        rfl
      · have ha : c.afterExit ⟨π p, s.host⟩ = _ := c.map_afterExit hπ { s with processor := p }
        simp only [Prod.map, id]
        rw [show (s.map π).host = s.host from rfl, ha]
        rfl

theorem map_read (hπ : Projects π) (c : Root) (f : Field) (s : Machine P) :
    c.read f (s.map π) = Prod.map id (Machine.map π) (c.read f s) := by
  unfold read
  split
  · rw [Machine.map_attempt hπ (hπ.vmread f.encoding)]
    rcases s.attempt (Processor.vmread f.encoding) with ⟨e | v, t⟩ <;> rfl
  · rfl

theorem map_write (hπ : Projects π) (c : Root) (f : Field) (v : UInt64) (s : Machine P) :
    c.write f v (s.map π) = Prod.map id (Machine.map π) (c.write f v s) := by
  unfold write
  split
  · exact Machine.map_attempt hπ (hπ.vmwrite f.encoding (f.encode v)) s
  · rfl

theorem map_invalidateEpt (hπ : Projects π) (c : Root) (pointer : UInt64) (scope : EptScope)
    (s : Machine P) :
    c.invalidateEpt pointer scope (s.map π) =
      Prod.map id (Machine.map π) (c.invalidateEpt pointer scope s) := by
  unfold invalidateEpt
  split
  · rw [Machine.map_attempt hπ (hπ.invept scope ⟨pointer, 0⟩)]
    rcases s.attempt (Processor.invept scope ⟨pointer, 0⟩) with ⟨e | u, t⟩ <;> rfl
  · rfl

theorem map_invalidateVpid (hπ : Projects π) (c : Root) (tag : Tag) (scope : VpidScope)
    (address : UInt64) (s : Machine P) :
    c.invalidateVpid tag scope address (s.map π) =
      Prod.map id (Machine.map π) (c.invalidateVpid tag scope address s) := by
  unfold invalidateVpid
  split
  · split
    · rfl
    · rw [Machine.map_attempt hπ (hπ.invvpid scope ⟨tag.value.toUInt64, address⟩)]
      rcases s.attempt (Processor.invvpid scope ⟨tag.value.toUInt64, address⟩) with
        ⟨e | u, t⟩ <;> rfl
  · rfl

end Root

omit [Processor P] [Processor Q] in
theorem map_of (π : P → Q) (c : Core) (r : Except Failure α × Machine P) :
    Outcome.of c (Prod.map id (Machine.map π) r) = (Outcome.of c r).map π := by
  rcases r with ⟨e | a, t⟩ <;> rfl

/-- An operation comes to the same on both sides of a projection. -/
theorem map_perform (hπ : Projects π) (c : Core) (o : Operation) (s : Machine P) :
    c.perform o (s.map π) = (c.perform o s).map π := by
  cases c with
  | disabled c => cases o <;> rfl
  | enabled c =>
    cases o with
    | enterRoot region =>
      simp only [perform, Enabled.map_enterRoot hπ]
      rcases c.enterRoot region s with ⟨t | r | d, u⟩ <;> rfl
    | _ => rfl
  | root c =>
    cases o with
    | enterRoot region => rfl
    | exitRoot =>
      simp only [perform, Root.map_exitRoot hπ]
      rcases c.exitRoot s with ⟨r | d, u⟩ <;> rfl
    | load region =>
      simp only [perform, Root.map_load hπ]
      rcases c.load region s with ⟨r | u, d, t⟩ <;> rfl
    | clearCurrent =>
      simp only [perform, Root.map_clearCurrent hπ]
      rcases c.clearCurrent s with ⟨e | r, d, t⟩ <;> rfl
    | enter k regs =>
      simp only [perform, Root.map_enter hπ]
      rcases c.enter k regs s with ⟨t | e | x, d, regs, u⟩ <;> rfl
    | clear region => simp only [perform, Root.map_clear hπ, map_of]
    | read f => simp only [perform, Root.map_read hπ, map_of]
    | write f v => simp only [perform, Root.map_write hπ, map_of]
    | invalidateEpt pointer scope => simp only [perform, Root.map_invalidateEpt hπ, map_of]
    | invalidateVpid tag scope address =>
      simp only [perform, Root.map_invalidateVpid hπ, map_of]

end Core

/-! ## Recorders -/

namespace Recorder

theorem map_watch (c : Command) (i : Emulator → Except VmFail α × Emulator) (r : Recorder) :
    Prod.map id emulator (r.watch c i) = i r.emulator := by
  unfold watch
  rcases i r.emulator with ⟨f | a, e⟩ <;> rfl

theorem projects : Projects emulator where
  readCr4 _ := rfl
  writeCr4 _ _ := rfl
  vmxon a m r := by
    show r.emulator.vmxon a m = Except.map _ (Except.map _ (r.emulator.vmxon a m))
    rcases r.emulator.vmxon a m with t | x
    · rfl
    · exact congrArg Except.ok (map_watch (.vmxon a m) (fun _ => x) r).symm
  vmxoff r := (map_watch _ _ r).symm
  vmptrld _ _ r := (map_watch _ _ r).symm
  vmclear _ r := (map_watch _ _ r).symm
  vmread _ r := (map_watch _ _ r).symm
  vmwrite _ _ r := (map_watch _ _ r).symm
  enter k regs r := by
    have hx := map_watch (.enter k regs) (fun e => (e.count k).tryEnter k regs) r
    show r.emulator.enter k regs = Prod.map id (Prod.map id emulator) (r.enter k regs)
    simp only [enter, Emulator.enter, ← hx]
    rfl
  invept _ _ r := (map_watch _ _ r).symm
  invvpid _ _ r := (map_watch _ _ r).symm
  writeHostState r := (map_watch _ _ r).symm

end Recorder

/-- The machine with a recorder in front of its processor. -/
def Machine.recorded (s : Machine Emulator) : Machine Recorder :=
  ⟨{ emulator := s.processor }, s.host⟩

theorem Core.perform_recorded (c : Core) (o : Operation) (s : Machine Emulator) :
    c.perform o s = (c.perform o s.recorded).map Recorder.emulator :=
  map_perform Recorder.projects c o s.recorded

end VmxControl
