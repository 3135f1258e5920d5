import Mathlib.Logic.Relation
import VmxControl.Proofs.Refusal
import VmxControl.Proofs.Station

/-!
# What a call executes

A call to a core executes commands of a few kinds on its processor, whichever way it ends. What each
of these commands keeps is kept by the call. No command but VMWRITE changes a field that software may
write, and none but those made for it changes what software has set up before VMX operation.
-/

namespace VmxControl

/-- The processor of `t` is that of `s` after commands that were allowed. -/
def Machine.Executes {P : Type} [Processor P] (can : Command → Prop) (s t : Machine P) : Prop :=
  Relation.ReflTransGen (fun p q => ∃ c : Command, can c ∧ c.on p = q) s.processor t.processor

namespace Machine

variable {P α : Type} [Processor P] {can : Command → Prop} {s t u : Machine P}

namespace Executes

protected theorem refl (can : Command → Prop) (s : Machine P) : s.Executes can s :=
  Relation.ReflTransGen.refl

theorem of_eq (h : t.processor = s.processor) : s.Executes can t := by
  rw [Executes, h]

theorem one {c : Command} (hc : can c) (h : c.on s.processor = t.processor) : s.Executes can t :=
  .single ⟨c, hc, h⟩

protected theorem trans (h : s.Executes can t) (h' : t.Executes can u) : s.Executes can u :=
  Relation.ReflTransGen.trans h h'

theorem mono {can' : Command → Prop} (hc : ∀ c, can c → can' c) (h : s.Executes can t) :
    s.Executes can' t := by
  refine Relation.ReflTransGen.mono (fun p q hpq => ?_) _ _ h
  obtain ⟨c, hcan, he⟩ := hpq
  exact ⟨c, hc c hcan, he⟩

/-- What every allowed command keeps. -/
theorem keeps {I : P → Prop} (h : s.Executes can t) (hI : ∀ c p, can c → I p → I (c.on p))
    (hs : I s.processor) : I t.processor := by
  unfold Executes at h
  generalize t.processor = q at h ⊢
  induction h with
  | refl => exact hs
  | tail _ hstep ih =>
    obtain ⟨c, hc, rfl⟩ := hstep
    exact hI c _ hc ih

end Executes

theorem executes_exec {i : P → Except VmFail α × P} {c : Command} (hc : can c)
    (hi : c.on s.processor = (i s.processor).2) : s.Executes can (s.exec i).2 := .one hc hi

theorem executes_diagnose (hv : can (.vmread Field.instructionError)) (s : Machine P) (f : VmFail) :
    s.Executes can (s.diagnose f).2 := by
  cases f with
  | invalid => exact .refl can s
  | valid =>
    have hx : s.Executes can (s.exec (Processor.vmread Field.instructionError)).2 :=
      executes_exec hv rfl
    simp only [diagnose]
    split <;> next he => rw [he] at hx; exact hx

theorem executes_attempt {i : P → Except VmFail α × P} {c : Command} (hc : can c)
    (hi : c.on s.processor = (i s.processor).2) (hv : can (.vmread Field.instructionError)) :
    s.Executes can (s.attempt i).2 := by
  have hx := executes_exec hc hi
  unfold attempt
  split
  · next he =>
    rw [he] at hx
    exact hx
  · next f _ he =>
    rw [he] at hx
    exact hx.trans (executes_diagnose hv _ f)

theorem executes_clearVmxe (h : ∀ v, can (.writeCr4 v)) (s : Machine P) :
    s.Executes can s.clearVmxe := .one (h _) rfl

end Machine

/-! ## What a command keeps -/

namespace Emulator

theorem settings_setWord (e : Emulator) (f : UInt32) (v : UInt64) :
    (e.setWord f v).settings = e.settings := by
  unfold setWord
  cases e.current <;> rfl

theorem settings_runCurrent (e : Emulator) (k : Entry) (regs : Registers) :
    (e.runCurrent k regs).settings = e.settings := by
  unfold runCurrent
  cases e.current with
  | none => rfl
  | some vmcs =>
    simp only [Option.elim_some, runGuest]
    split <;> rfl

/-- Only commands made for it change the registers that are set up before VMX operation, and none
changes what CPUID says. -/
theorem settings_on {c : Command} (h : ¬ c.Sets) (e : Emulator) :
    (c.on e).settings = e.settings := by
  obtain he | he := e.on_cases c
  · rw [he]
    cases c with
    | writeMsr | writeCr4 => exact absurd trivial h
    | vmwrite f v => exact settings_setWord _ f v
    | writeHostState => exact settings_setWord _ _ _
    | enter k regs => exact (settings_runCurrent _ k regs).trans (Spares.count e k).settings
    | _ => rfl
  · exact he.settings

theorem get_setWord (e : Emulator) (f g : UInt32) (v : UInt64) (a : PhysAddr) :
    (e.setWord f v).fields.get (a, g) =
      if e.current = some a ∧ g = f then v else e.fields.get (a, g) := by
  cases hc : e.current with
  | none => simp [setWord, hc]
  | some vmcs =>
    rw [setWord_eq hc, Store.get_put]
    simp [Prod.ext_iff, eq_comm]

theorem fields_runCurrent (e : Emulator) (k : Entry) (regs : Registers) {f : UInt32}
    (hr : f ≠ Field.exitReason) (hq : f ≠ Field.exitQualification) (a : PhysAddr) :
    (e.runCurrent k regs).fields.get (a, f) = e.fields.get (a, f) := by
  unfold runCurrent
  cases e.current with
  | none => rfl
  | some vmcs =>
    simp only [Option.elim_some, runGuest]
    split <;> simp [record, hr, hq]

/-- Besides VMWRITE only the processor itself writes fields: the number of a failure, the two that
tell of an exit, and the host state, which is the same every time. -/
theorem fields_on {c : Command} (h : ¬ c.Writes) (e : Emulator) {f : UInt32}
    (hi : f ≠ Field.instructionError) (hr : f ≠ Field.exitReason)
    (hq : f ≠ Field.exitQualification) (a : PhysAddr) :
    (c.on e).fields.get (a, f) = e.fields.get (a, f) ∨
      f = Field.hostInstructionPointer ∧ (c.on e).fields.get (a, f) = hostEntryPoint := by
  obtain he | he := e.on_cases c
  · rw [he]
    cases c with
    | vmwrite => exact absurd trivial h
    | enter k regs =>
      refine .inl ((fields_runCurrent _ k regs hr hq a).trans ?_)
      cases k <;> rfl
    | writeHostState =>
      rw [next, get_setWord]
      split
      · next hf => exact .inr ⟨hf.2, rfl⟩
      · exact .inl rfl
    | _ => exact .inl rfl
  · exact .inl (he.fields a f hi)

/-- A field that software may write is written by nothing else. -/
theorem fields_on_of_writable {c : Command} (h : ¬ c.Writes) (e : Emulator) {f : UInt32}
    (hf : (Area.ofEncoding f).writable = true) (a : PhysAddr) :
    (c.on e).fields.get (a, f) = e.fields.get (a, f) := by
  have hne {g : UInt32} (hg : (Area.ofEncoding g).writable = false) : f ≠ g := by
    rintro rfl
    cases hf.symm.trans hg
  obtain he | ⟨rfl, -⟩ := fields_on h e (hne (by decide)) (hne (by decide)) (hne (by decide)) a
  · exact he
  · cases hf

end Emulator

/-! ## Calls in root operation -/

namespace RootCall

/-- The commands that a call may execute. -/
def Uses : RootCall → Command → Prop
  | .write f v, c => c = .vmwrite f.encoding (f.encode v) ∨ c.Hosts
  | _, c => c.Hosts

/-- The commands that a call asks for. Whatever it asks for besides what it is named for has a guest
run, or is the question why the command failed. The host's tag is dropped with all others only. -/
def Asks : RootCall → Command → Prop
  | .write f v, c => c = .vmwrite f.encoding (f.encode v) ∨ c.Guides
  | .invalidateEpt pointer scope, c => c = .invept scope ⟨pointer, 0⟩ ∨ c.Guides
  | .invalidateVpid tag scope address, c =>
    (c = .invvpid scope ⟨tag.value.toUInt64, address⟩ ∧ ¬ (tag.isHost ∧ scope ≠ .allContexts)) ∨
      c.Guides
  | _, c => c.Guides

theorem Asks.uses {call : RootCall} {c : Command} (h : call.Asks c) : call.Uses c := by
  cases call with
  | write f v =>
    obtain rfl | h := h
    · exact .inl rfl
    · exact .inr h.hosts
  | invalidateEpt pointer scope =>
    obtain rfl | h := h
    · exact trivial
    · exact h.hosts
  | invalidateVpid tag scope address =>
    obtain ⟨rfl, -⟩ | h := h
    · exact trivial
    · exact h.hosts
  | _ => exact Command.Guides.hosts h

theorem Uses.not_sets {call : RootCall} {c : Command} (h : call.Uses c) : ¬ c.Sets := by
  cases call with
  | write f v =>
    obtain rfl | h := h
    · exact id
    · cases c <;> first | exact id | exact h.elim
  | _ => cases c <;> first | exact id | exact h.elim

end RootCall

namespace Core.Root

variable {P : Type} [Processor P]

theorem executes_unload (c : Root) (region : Region .vmcs) (why : Failure) (s : Machine P) :
    s.Executes Command.Guides (c.unload region why s) := by
  have hx : (s.note c.id (.hostStateFailed why)).Executes Command.Guides
      ((s.note c.id (.hostStateFailed why)).attempt (Processor.vmclear region.addr)).2 :=
    Machine.executes_attempt (c := .vmclear region.addr) trivial rfl trivial
  unfold unload
  split <;> next he => rw [he] at hx; exact hx

theorem executes_load (c : Root) (region : Region .vmcs) (s : Machine P) :
    s.Executes Command.Guides (c.load region s).2.2 := by
  have hx : s.Executes Command.Guides
      (s.attempt (Processor.vmptrld region.addr s.host.memory)).2 :=
    Machine.executes_attempt (c := .vmptrld region.addr s.host.memory) trivial rfl trivial
  unfold load
  split
  · exact .refl _ s
  · split
    · next he =>
      rw [he] at hx
      exact hx
    · next t he =>
      rw [he] at hx
      have hw : t.Executes Command.Guides (t.attempt Processor.writeHostState).2 :=
        Machine.executes_attempt (c := .writeHostState) trivial rfl trivial
      split
      · next hh =>
        rw [hh] at hw
        exact hx.trans hw
      · next hh =>
        rw [hh] at hw
        exact hx.trans (hw.trans (c.executes_unload region _ _))

theorem executes_clearCurrent (c : Root) (s : Machine P) :
    s.Executes Command.Guides (c.clearCurrent s).2.2 := by
  unfold clearCurrent
  split
  · exact .refl _ s
  · next cur _ =>
    have hx : s.Executes Command.Guides (s.attempt (Processor.vmclear cur.region.addr)).2 :=
      Machine.executes_attempt (c := .vmclear cur.region.addr) trivial rfl trivial
    split <;> next he => rw [he] at hx; exact hx

theorem executes_clear (c : Root) (region : Region .vmcs) (s : Machine P) :
    s.Executes Command.Guides (c.clear region s).2 := by
  have hx : s.Executes Command.Guides (s.attempt (Processor.vmclear region.addr)).2 :=
    Machine.executes_attempt (c := .vmclear region.addr) trivial rfl trivial
  unfold clear
  split <;> next he => rw [he] at hx; exact hx

theorem executes_afterExit (c : Root) (s : Machine P) :
    s.Executes Command.Guides (c.afterExit s).2.2 := by
  have hx : s.Executes Command.Guides (s.attempt (Processor.vmread Field.exitReason)).2 :=
    Machine.executes_attempt (c := .vmread Field.exitReason) trivial rfl trivial
  unfold afterExit
  split <;> next he => rw [he] at hx; exact hx

theorem executes_enter (c : Root) (k : Entry) (regs : Registers) (s : Machine P) :
    s.Executes Command.Guides (c.enter k regs s).2.2.2 := by
  have hx : s.Executes Command.Guides
      { s with processor := (Processor.enter k regs s.processor).2.2 } :=
    .one (c := .enter k regs) trivial rfl
  unfold enter
  split
  · exact .refl _ s
  · split
    · exact .refl _ s
    · split
      · next he =>
        rw [he] at hx
        exact hx.trans (c.executes_afterExit _)
      · next he =>
        rw [he] at hx
        exact hx.trans (Machine.executes_diagnose trivial _ _)
      · next he =>
        rw [he] at hx
        exact hx

theorem executes_read (c : Root) (f : Field) (s : Machine P) :
    s.Executes Command.Guides (c.read f s).2 := by
  have hx : s.Executes Command.Guides (s.attempt (Processor.vmread f.encoding)).2 :=
    Machine.executes_attempt (c := .vmread f.encoding) trivial rfl trivial
  unfold read
  split
  · split <;> next he => rw [he] at hx; exact hx
  · exact .refl _ s

theorem executes_write (c : Root) (f : Field) (v : UInt64) (s : Machine P) :
    s.Executes (RootCall.write f v).Asks (c.write f v s).2 := by
  unfold write
  split
  · exact Machine.executes_attempt (.inl rfl) rfl (.inr trivial)
  · exact .refl _ s

theorem executes_invalidateEpt (c : Root) (pointer : UInt64) (scope : EptScope) (s : Machine P) :
    s.Executes (RootCall.invalidateEpt pointer scope).Asks (c.invalidateEpt pointer scope s).2 := by
  have hx : s.Executes (RootCall.invalidateEpt pointer scope).Asks
      (s.attempt (Processor.invept scope ⟨pointer, 0⟩)).2 :=
    Machine.executes_attempt (.inl rfl) rfl (.inr trivial)
  unfold invalidateEpt
  split
  · split <;> next he => rw [he] at hx; exact hx
  · exact .refl _ s

theorem executes_invalidateVpid (c : Root) (tag : Tag) (scope : VpidScope) (address : UInt64)
    (s : Machine P) : s.Executes (RootCall.invalidateVpid tag scope address).Asks
      (c.invalidateVpid tag scope address s).2 := by
  unfold invalidateVpid
  split
  · split
    · exact .refl _ s
    · next hh =>
      have hx : s.Executes (RootCall.invalidateVpid tag scope address).Asks
          (s.attempt (Processor.invvpid scope ⟨tag.value.toUInt64, address⟩)).2 :=
        Machine.executes_attempt (.inl ⟨rfl, hh⟩) rfl (.inr trivial)
      split <;> next he => rw [he] at hx; exact hx
  · exact .refl _ s

end Core.Root

namespace Running

variable {P : Type} [Processor P]

theorem executes_now (w : Running P) : w.machine.Executes Command.Guides w.now.2.machine :=
  .one (c := .timestamp) trivial rfl

theorem executes_count (w : Running P) (raw : RawExit) (entered time : UInt64) :
    w.machine.Executes Command.Guides (w.count raw entered time).machine := by
  unfold count
  split <;> exact .of_eq rfl

theorem executes_report (w : Running P) (raw : RawExit) (time : UInt64) :
    w.machine.Executes Command.Guides (w.report raw time).2.machine := by
  have hx : w.machine.Executes Command.Guides
      (w.machine.attempt (Processor.vmread Field.exitQualification)).2 :=
    Machine.executes_attempt (c := .vmread Field.exitQualification) trivial rfl trivial
  unfold report
  split <;> next he => rw [he] at hx; exact hx

theorem executes_enter (w : Running P) (k : Entry) :
    w.machine.Executes Command.Guides (w.enter k).2.machine := by
  have hx : w.machine.Executes Command.Guides
      (w.now.2.core.enter k w.now.2.regs w.now.2.machine).2.2.2 :=
    w.executes_now.trans (w.core.executes_enter k w.regs w.now.2.machine)
  rcases he : w.now.2.core.enter k w.now.2.regs w.now.2.machine with ⟨t | e | raw, core, regs, m⟩
  all_goals
    rw [he] at hx
    simp only [enter, he]
  · exact hx
  · exact hx
  · let v : Running P := { w.now.2 with core, regs, machine := m }
    exact hx.trans (v.executes_now.trans
      ((v.now.2.executes_count raw w.now.1 v.now.1).trans (executes_report _ raw v.now.1)))

theorem executes_dispatch {β : Type} (w : Running P) (h : Handler β) :
    w.machine.Executes Command.Guides (w.dispatch h).2.machine := by
  have hx : w.machine.Executes Command.Guides w.run.2.machine := w.executes_enter _
  unfold dispatch
  split
  · next he =>
    rw [he] at hx
    exact hx
  · next he =>
    rw [he] at hx
    exact hx
  · next he =>
    rw [he] at hx
    split <;> exact hx

/-- A call executes what it asks for only. -/
theorem executes_asked (w : Running P) (call : RootCall) :
    w.machine.Executes call.Asks (w.call call).2.machine := by
  cases call with
  | load region =>
    have hx := w.core.executes_load region w.machine
    simp only [call]
    split
    · exact .refl _ _
    · split <;> next he => rw [he] at hx; exact hx
  | clear region =>
    simp only [call]
    split
    · exact .refl _ _
    · exact w.core.executes_clear region w.machine
  | clearCurrent =>
    have hx := w.core.executes_clearCurrent w.machine
    simp only [call]
    split <;> next he => rw [he] at hx; exact hx
  | enter k => exact w.core.executes_enter k w.regs w.machine
  | enterCounted k => exact w.executes_enter k
  | run => exact w.executes_enter _
  | dispatch h => exact w.executes_dispatch h
  | read f => exact w.core.executes_read f w.machine
  | write f v => exact w.core.executes_write f v w.machine
  | invalidateEpt pointer scope => exact w.core.executes_invalidateEpt pointer scope w.machine
  | invalidateVpid tag scope address =>
    exact w.core.executes_invalidateVpid tag scope address w.machine

theorem executes_call (w : Running P) (call : RootCall) :
    w.machine.Executes call.Uses (w.call call).2.machine :=
  (w.executes_asked call).mono fun _ => RootCall.Asks.uses

end Running

/-! ## Transitions -/

namespace Call

/-- The commands that a call may execute. -/
def Uses : Call → Command → Prop
  | .enable, .present | .enable, .readMsr _ | .enable, .writeMsr _ _ | .enable, .writeCr4 _ => True
  | .disable, .writeCr4 _ => True
  | .enterRoot _, .vmxon _ _ | .enterRoot _, .vmread _ | .enterRoot _, .writeCr4 _ => True
  | .exitRoot, .vmxoff | .exitRoot, .vmread _ => True
  | .inRoot call, c => call.Uses c
  | .drop, .vmclear _ | .drop, .vmxoff | .drop, .writeCr4 _ => True
  | _, _ => False

end Call

section Transitions

variable {P : Type} [Processor P]

theorem executes_permitVmxon (s : Machine P) :
    s.Executes Call.enable.Uses (permitVmxon s).2 := by
  have hr : s.Executes Call.enable.Uses
      { s with processor := (Processor.readMsr .featureControl s.processor).2 } :=
    .one (c := .readMsr .featureControl) trivial rfl
  unfold permitVmxon
  split
  next control p he =>
    rw [he] at hr
    split
    · exact hr.trans (.one (c := .writeMsr .featureControl _) trivial rfl)
    · split <;> exact hr

namespace Core

theorem Disabled.executes_check (c : Disabled) (s : Machine P) :
    s.Executes Call.enable.Uses (c.check s).2 := by
  have hp : s.Executes Call.enable.Uses
      { s with processor := (Processor.present s.processor).2 } :=
    .one (c := .present) trivial rfl
  unfold check
  split
  · split
    next present p he =>
      rw [he] at hp
      have hx := executes_permitVmxon { s with processor := p }
      dsimp only
      split
      · split <;> next hc => rw [hc] at hx; exact hp.trans hx
      · exact hp
  · exact .refl _ s

theorem Disabled.executes_enable (c : Disabled) (s : Machine P) :
    s.Executes Call.enable.Uses (c.enable s).2 := by
  have hx := c.executes_check s
  unfold enable
  split
  · next he =>
    rw [he] at hx
    exact hx.trans (.one (c := .writeCr4 _) trivial rfl)
  · next he =>
    rw [he] at hx
    exact hx

theorem Enabled.executes_disable (c : Enabled) (s : Machine P) :
    s.Executes Call.disable.Uses (c.disable s).2 :=
  Machine.executes_clearVmxe (fun _ => trivial) s

/-- Only a trap has CR4 written. -/
theorem Enabled.executes_of_enterRoot {c : Enabled} {region : Region .vmxon} {s t : Machine P}
    {r : Except (Rejected (Enabled × Region .vmxon)) Root}
    (h : c.enterRoot region s = (.ok r, t)) :
    s.Executes (fun x => (Call.enterRoot region).Uses x ∧ ¬ x.Sets) t := by
  unfold enterRoot at h
  have hon : ∀ a p, Processor.vmxon region.addr s.host.memory s.processor = .ok (a, p) →
      s.Executes (fun x => (Call.enterRoot region).Uses x ∧ ¬ x.Sets)
        { s with processor := p } := fun a p hv =>
    .one (c := .vmxon region.addr s.host.memory) ⟨trivial, id⟩ (by simp only [Command.on, hv])
  split at h
  · cases h
  · next p hv =>
    cases h
    exact hon _ p hv
  · next f p hv =>
    let u : Machine P := { s with processor := p }
    have hd : u.Executes (fun x => (Call.enterRoot region).Uses x ∧ ¬ x.Sets) (u.diagnose f).2 :=
      Machine.executes_diagnose ⟨trivial, id⟩ u f
    cases h
    exact (hon _ p hv).trans hd

theorem Enabled.executes_enterRoot (c : Enabled) (region : Region .vmxon) (s : Machine P) :
    s.Executes (Call.enterRoot region).Uses (c.enterRoot region s).2 := by
  rcases h : c.enterRoot region s with ⟨trap | r, t⟩
  · unfold enterRoot at h
    split at h
    · cases h
      exact Machine.executes_clearVmxe (fun _ => trivial) _
    · cases h
    · cases h
  · exact (executes_of_enterRoot h).mono fun _ hx => hx.1

theorem Root.executes_exitRoot (c : Root) (s : Machine P) :
    s.Executes Call.exitRoot.Uses (c.exitRoot s).2 := by
  have hx : s.Executes Call.exitRoot.Uses (s.attempt Processor.vmxoff).2 :=
    Machine.executes_attempt (c := .vmxoff) trivial rfl trivial
  unfold exitRoot
  split
  · exact .of_eq rfl
  · split <;> next he => rw [he] at hx; exact hx

theorem Root.executes_dropCurrent (c : Root) (s : Machine P) :
    s.Executes Call.drop.Uses (c.dropCurrent s) := by
  unfold dropCurrent
  split
  · exact .refl _ s
  · next cur _ =>
    exact .one (c := .vmclear cur.region.addr) trivial rfl

theorem executes_drop (c : Core) (s : Machine P) : s.Executes Call.drop.Uses (c.drop s) := by
  cases c with
  | disabled c => exact .refl _ s
  | enabled c => exact Machine.executes_clearVmxe (fun _ => trivial) s
  | root c =>
    let t := c.dropCurrent (s.note c.id .droppedInRoot)
    have ht : s.Executes Call.drop.Uses t := c.executes_dropCurrent (s.note c.id .droppedInRoot)
    have hx : t.Executes Call.drop.Uses (t.exec Processor.vmxoff).2 :=
      Machine.executes_exec (c := .vmxoff) trivial rfl
    simp only [drop, Root.drop]
    split
    · next u he =>
      rw [he] at hx
      exact ht.trans (hx.trans (u.executes_clearVmxe fun _ => trivial))
    · next he =>
      rw [he] at hx
      exact ht.trans hx

end Core

end Transitions

/-- A call executes commands of its own kinds only. -/
theorem Station.executes_call (s : Station) (c : Call) :
    s.machine.Executes c.Uses (s.call c).2.machine := by
  cases s.finds c with
  | nothing h => exact .of_eq (by rw [h])
  | @enable c hc =>
    have hx := c.executes_enable s.machine
    simp only [call, hc]
    split <;> next he => rw [he] at hx; exact hx
  | @disable c hc => simpa only [call, hc] using c.executes_disable s.machine
  | @enterRoot c region hc =>
    have hx := c.executes_enterRoot region s.machine
    simp only [call, hc]
    split <;> next he => rw [he] at hx; exact hx
  | @exitRoot c hc =>
    have hx := c.executes_exitRoot s.machine
    simp only [call, hc]
    split <;> next he => rw [he] at hx; exact hx
  | @inRoot c x hc =>
    simp only [call, hc]
    exact (s.running c).executes_call x
  | @drop c hc => simpa only [call, hc] using c.executes_drop s.machine

end VmxControl
