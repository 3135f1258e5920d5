import VmxControl.Proofs.Execution
import VmxControl.Proofs.Moves

/-!
# What the journal tells

A command that an emulated processor carries out leaves its entry in the journal, and a command that it
refuses leaves none. The entry stands for all that becomes of the standing. So the journal gains no
more than the entries of the commands that were executed, and the registers are what it says.
-/

namespace VmxControl

namespace Op

/-- The effect sets a register. -/
def Sets : Op → Prop
  | .wrmsr _ _ | .cr4 _ => True
  | _ => False

end Op

namespace Command

/-- The entry in the journal when the command is carried out. Commands that only look have none. -/
def entry? : Command → Option Op
  | .writeMsr r v => some (.wrmsr r v)
  | .writeCr4 v => some (.cr4 v)
  | .vmxon region _ => some (.vmxon region)
  | .vmxoff => some .vmxoff
  | .vmptrld region _ => some (.vmptrld region)
  | .vmclear region => some (.vmclear region)
  | .vmwrite field v => some (.vmwrite field v)
  | .enter k _ => some (.entered k)
  | .invept s d => some (.invept s d)
  | .invvpid s d => some (.invvpid s d)
  | .writeHostState => some .hostState
  | .present | .readMsr _ | .vmread _ | .timestamp => none

theorem entry?_not_sets {c : Command} {o : Op} (h : ¬ c.Sets) (ho : c.entry? = some o) :
    ¬ o.Sets := by
  cases c with
  | writeMsr | writeCr4 => exact absurd trivial h
  | present | readMsr | vmread | timestamp => cases ho
  | _ =>
    cases ho
    exact id

/-- The standing once the command was given: an attempt to enter counts, whatever becomes of it. -/
def tried (c : Command) (st : Standing) : Standing :=
  match c with
  | .enter k _ => st.attempt k
  | _ => st

@[simp] theorem journal_tried (c : Command) (st : Standing) : (c.tried st).journal = st.journal := by
  cases c <;> rfl

end Command

namespace Emulator

theorem Settles.standing {α : Type} {e : Emulator} {o : Op} {r : Except VmFail α × Emulator}
    (h : e.Settles o r) : r.2.standing = e.standing ∨ r.2.standing = e.standing.apply o := by
  obtain ⟨a, e', rfl, hs⟩ | ⟨f, e', rfl, hs⟩ := h
  · exact .inr hs
  · exact .inl hs

theorem standing_vmread (e : Emulator) (f : UInt32) : (e.vmread f).2.standing = e.standing := by
  obtain ⟨r, e', he, hs, -⟩ := e.vmread_eq f
  rw [he]
  exact hs

theorem standing_enter (e : Emulator) (k : Entry) (regs : Registers) :
    (e.enter k regs).2.2.standing = e.standing.attempt k ∨
      (e.enter k regs).2.2.standing = (e.standing.attempt k).apply (.entered k) := by
  have hc : (e.count k).standing = e.standing.attempt k := e.standing_count k
  obtain ⟨f, e', he, hs⟩ | ⟨vmcs, raw, e', he, -, -, -, hs⟩ := (e.count k).tryEnter_cases k regs
  · simp only [enter, he]
    exact .inl (hs.trans hc)
  · simp only [enter, he]
    rw [hs, hc]
    split
    · exact .inl rfl
    · exact .inr rfl

/-- A command changes the standing as its entry says, or not at all. -/
theorem standing_on (e : Emulator) (c : Command) :
    (c.on e).standing = c.tried e.standing ∨
      ∃ o, c.entry? = some o ∧ (c.on e).standing = (c.tried e.standing).apply o := by
  have settled {o : Op} {st : Standing} (ho : c.entry? = some o)
      (h : st = c.tried e.standing ∨ st = (c.tried e.standing).apply o) :
      st = c.tried e.standing ∨ ∃ o, c.entry? = some o ∧ st = (c.tried e.standing).apply o :=
    h.imp_right fun hs => ⟨o, ho, hs⟩
  cases c with
  | present | readMsr | timestamp => exact .inl rfl
  | vmread f => exact .inl (e.standing_vmread f)
  | writeMsr | writeCr4 => exact settled rfl (.inr rfl)
  | vmxon a m =>
    obtain ⟨-, he⟩ | ⟨-, r, he, hs⟩ := e.vmxon_cases a m
    · have hv : Processor.vmxon a m e = .error .vmxonWithoutVmxe := he
      exact .inl (by simp only [Command.on, hv]; rfl)
    · have hv : Processor.vmxon a m e = .ok r := he
      simp only [Command.on, hv]
      exact settled rfl hs.standing
  | vmxoff => exact settled rfl e.settles_vmxoff.standing
  | vmptrld a m => exact settled rfl (e.settles_vmptrld a m).standing
  | vmclear a => exact settled rfl (e.settles_vmclear a).standing
  | vmwrite f v => exact settled rfl (e.settles_vmwrite f v).standing
  | enter k regs => exact settled rfl (e.standing_enter k regs)
  | invept s d => exact settled rfl (e.settles_invept s d).standing
  | invvpid s d => exact settled rfl (e.settles_invvpid s d).standing
  | writeHostState => exact settled rfl e.settles_writeHostState.standing

theorem vmx_on (e : Emulator) (c : Command) : (c.on e).vmx = e.vmx := by
  by_cases h : c.Sets
  · cases c with
    | writeMsr | writeCr4 => rfl
    | _ => exact h.elim
  · exact congrArg Settings.vmx (e.settings_on h)

end Emulator

/-! ## Registers -/

namespace Settings

/-- What is set up after the effect. -/
def apply (s : Settings) : Op → Settings
  | .wrmsr r v => { s with msrs := s.msrs.put r v }
  | .cr4 v => { s with cr4 := v }
  | _ => s

def applyAll (s : Settings) (ops : List Op) : Settings := ops.foldl apply s

@[simp] theorem applyAll_nil (s : Settings) : s.applyAll [] = s := rfl

@[simp] theorem applyAll_cons (s : Settings) (o : Op) (ops : List Op) :
    s.applyAll (o :: ops) = (s.apply o).applyAll ops := rfl

theorem applyAll_append (s : Settings) (xs ys : List Op) :
    s.applyAll (xs ++ ys) = (s.applyAll xs).applyAll ys :=
  List.foldl_append

end Settings

/-- What the processor tells of the registers in this standing. -/
def Standing.settings (st : Standing) (vmx : Bool) : Settings := ⟨vmx, st.cr0, st.cr4, st.msrs⟩

theorem Standing.settings_apply (st : Standing) (o : Op) (vmx : Bool) :
    (st.apply o).settings vmx = (st.settings vmx).apply o := by
  cases o <;> rfl

theorem Command.settings_tried (c : Command) (st : Standing) (vmx : Bool) :
    (c.tried st).settings vmx = st.settings vmx := by
  cases c <;> rfl

/-- The journal tells of every change of the registers: between the two it has gained these entries,
and the registers have changed as they say. -/
def Emulator.Journals (e e' : Emulator) (ops : List Op) : Prop :=
  e'.standing.journal = ops.reverse ++ e.standing.journal ∧ e'.settings = e.settings.applyAll ops

namespace Emulator.Journals

theorem refl (e : Emulator) : e.Journals e [] := ⟨rfl, rfl⟩

theorem trans {e e' e'' : Emulator} {xs ys : List Op} (h : e.Journals e' xs)
    (h' : e'.Journals e'' ys) : e.Journals e'' (xs ++ ys) := by
  refine ⟨?_, ?_⟩
  · rw [h'.1, h.1, List.reverse_append, List.append_assoc]
  · rw [h'.2, h.2, Settings.applyAll_append]

end Emulator.Journals

theorem Emulator.journals_on (e : Emulator) (c : Command) :
    ∃ ops, (∀ o ∈ ops, c.entry? = some o) ∧ e.Journals (c.on e) ops := by
  have hv : (c.on e).settings = (c.on e).standing.settings e.vmx := by
    rw [← e.vmx_on c]
    rfl
  obtain hs | ⟨o, ho, hs⟩ := e.standing_on c
  · refine ⟨[], by simp, ?_, ?_⟩
    · rw [hs, Command.journal_tried]
      rfl
    · rw [hv, hs, Command.settings_tried]
      rfl
  · refine ⟨[o], by simp [ho], ?_, ?_⟩
    · rw [hs, Standing.journal_apply, Command.journal_tried]
      rfl
    · rw [hv, hs, Standing.settings_apply, Command.settings_tried]
      rfl

/-- The journal gains entries of those commands only that may be executed. -/
theorem Machine.Executes.journals {can : Command → Prop} {s t : Machine Emulator}
    (h : s.Executes can t) :
    ∃ ops, (∀ o ∈ ops, ∃ c, can c ∧ c.entry? = some o) ∧
      s.processor.Journals t.processor ops := by
  refine h.keeps (I := fun e => ∃ ops, (∀ o ∈ ops, ∃ c, can c ∧ c.entry? = some o) ∧
    s.processor.Journals e ops) (fun c e hc hI => ?_) ⟨[], by simp, .refl _⟩
  obtain ⟨xs, hx, hj⟩ := hI
  obtain ⟨ys, hy, hk⟩ := e.journals_on c
  refine ⟨xs ++ ys, fun o ho => ?_, hj.trans hk⟩
  obtain ho | ho := List.mem_append.1 ho
  · exact hx o ho
  · exact ⟨c, hc, hy o ho⟩

/-! ## Stations -/

namespace Station

variable {s : Station}

def settings (s : Station) : Settings := s.machine.processor.settings

/-- The effects that the run has on the processor, in their order. -/
def executed (s : Station) (es : List Event) : List Op :=
  Run.newest (s.run es).standing.journal s.standing.journal.length

theorem executes_of_journal {e : Event} {ops : List Op}
    (h : (s.step e).standing.journal = ops.reverse ++ s.standing.journal) :
    s.executes e = ops :=
  Run.newest_of_eq h

@[simp] theorem executes_influence (s : Station) (i : Influence) :
    s.executes (.influence i) = [] := by
  obtain ⟨-, hs⟩ := s.standing_influenced i
  exact executes_of_journal (congrArg Standing.journal hs)

/-- An event has effects only through the commands of its call, and changes registers by these. -/
theorem step_journals (s : Station) (e : Event) :
    s.machine.processor.Journals (s.step e).machine.processor (s.executes e) ∧
      ∀ o ∈ s.executes e, ∃ call c, e = .call call ∧ call.Uses c ∧ c.entry? = some o := by
  cases e with
  | call call =>
    obtain ⟨ops, ho, hj⟩ := (s.executes_call call).journals
    have he : s.executes (.call call) = ops := executes_of_journal hj.1
    rw [he]
    refine ⟨hj, fun o hm => ?_⟩
    obtain ⟨c, hc, hx⟩ := ho o hm
    exact ⟨call, c, rfl, hc, hx⟩
  | influence i =>
    obtain ⟨-, hs⟩ := s.standing_influenced i
    rw [executes_influence]
    refine ⟨⟨congrArg Standing.journal hs, ?_⟩, by simp⟩
    cases i <;> rfl

theorem settings_step (s : Station) (e : Event) :
    (s.step e).settings = s.settings.applyAll (s.executes e) := (s.step_journals e).1.2

theorem run_journals (s : Station) (es : List Event) :
    s.machine.processor.Journals (s.run es).machine.processor (s.executed es) := by
  have hj : ∃ ops, s.machine.processor.Journals (s.run es).machine.processor ops := by
    induction es generalizing s with
    | nil => exact ⟨[], .refl _⟩
    | cons e es ih =>
      obtain ⟨ops, hj⟩ := ih (s.step e)
      exact ⟨_, (s.step_journals e).1.trans hj⟩
  obtain ⟨ops, hj⟩ := hj
  have he : s.executed es = ops := Run.newest_of_eq hj.1
  exact he.symm ▸ hj

theorem settings_run (s : Station) (es : List Event) :
    (s.run es).settings = s.settings.applyAll (s.executed es) := (s.run_journals es).2

@[simp] theorem executed_nil (s : Station) : s.executed [] = [] := by
  simp [executed, Run.newest]

@[simp] theorem executed_cons (s : Station) (e : Event) (es : List Event) :
    s.executed (e :: es) = s.executes e ++ (s.step e).executed es :=
  Run.newest_of_eq ((s.step_journals e).1.trans ((s.step e).run_journals es)).1

end Station

end VmxControl
