import VmxControl.Proofs.Journal

/-!
# Replaying the journal

Commands can be given to an emulated processor directly, in an order that no core keeps to and with
operands that no core has. Then, too, the journal holds no more than what was carried out: whoever
replays it on the processor as it was switched on arrives at the same CR4, the same two pointers and
the same launch states. A refused command leaves nothing to replay, and neither does an entry that
the processor reports as failed.
-/

namespace VmxControl

namespace Standing

namespace Alike

theorem refl (st : Standing) : st.Alike st := ⟨rfl, rfl, rfl, rfl⟩

theorem trans {st st' st'' : Standing} (h : st.Alike st') (h' : st'.Alike st'') :
    st.Alike st'' where
  cr4 := h'.cr4.trans h.cr4
  vmxonPtr := h'.vmxonPtr.trans h.vmxonPtr
  current := h'.current.trans h.current
  launched := h'.launched.trans h.launched

theorem apply {st st' : Standing} (h : st.Alike st') (o : Op) :
    (st.apply o).Alike (st'.apply o) := by
  obtain ⟨h4, hv, hc, hl⟩ := h
  cases o with
  | wrmsr | vmwrite | invept | invvpid | hostState => exact ⟨h4, hv, hc, hl⟩
  | cr4 => exact ⟨rfl, hv, hc, hl⟩
  | vmxon => exact ⟨h4, rfl, hc, hl⟩
  | vmxoff => exact ⟨h4, rfl, rfl, hl⟩
  | vmptrld => exact ⟨h4, hv, rfl, hl⟩
  | vmclear a => exact ⟨h4, hv, by simp only [Standing.apply, hc], by simp only [Standing.apply, hl]⟩
  | entered => exact ⟨h4, hv, hc, by simp only [Standing.apply, hc, hl]⟩

theorem applyAll {st st' : Standing} (h : st.Alike st') (ops : List Op) :
    (st.applyAll ops).Alike (st'.applyAll ops) := by
  induction ops generalizing st st' with
  | nil => exact h
  | cons o ops ih => exact ih (h.apply o)

end Alike

/-- A current structure is there only in VMX operation, and is not the region that VMX operation
runs on. -/
def Sound (st : Standing) : Prop :=
  ∀ a, st.current = some a → ∃ on, st.vmxonPtr = some on ∧ on ≠ a

theorem Idle.sound {st : Standing} (h : st.Idle) : st.Sound := by
  intro a ha
  cases h.noCurrent.symm.trans ha

theorem Sound.of_alike {st st' : Standing} (hs : st.Sound) (h : st.Alike st') : st'.Sound := by
  intro a ha
  rw [h.vmxonPtr]
  exact hs a (h.current.symm.trans ha)

theorem Sound.current_none {st : Standing} (hs : st.Sound) (h : st.vmxonPtr = none) :
    st.current = none := by
  cases hc : st.current with
  | none => rfl
  | some a =>
    obtain ⟨on, hon, -⟩ := hs a hc
    cases h.symm.trans hon

end Standing

/-- What the processor checks before either of the two pointers is set. -/
def Op.Allowed (st : Standing) : Op → Prop
  | .vmxon _ => st.vmxonPtr = none
  | .vmptrld a => ∃ on, st.vmxonPtr = some on ∧ on ≠ a
  | _ => True

theorem Standing.Sound.apply {st : Standing} (hs : st.Sound) {o : Op} (ho : o.Allowed st) :
    (st.apply o).Sound := by
  intro a ha
  cases o with
  | wrmsr | cr4 | vmwrite | invept | invvpid | hostState | entered => exact hs a ha
  | vmxon => cases (hs.current_none ho).symm.trans ha
  | vmxoff => cases ha
  | vmptrld =>
    cases ha
    exact ho
  | vmclear b =>
    simp only [Standing.apply] at ha
    split at ha
    · cases ha
    · exact hs a ha

namespace Command

theorem alike_tried (c : Command) (st : Standing) : st.Alike (c.tried st) := by
  cases c <;> exact ⟨rfl, rfl, rfl, rfl⟩

end Command

namespace Emulator

/-! ## Commands that are given directly -/

inductive Answer where
  | done
  | bit (b : Bool)
  | word (v : UInt64)
  deriving DecidableEq, Repr

/-- The answer of an instruction, which may still have failed. -/
def answer {α : Type} (f : α → Answer) (r : Except VmFail α × Emulator) :
    Except VmFail Answer × Emulator := (r.1.map f, r.2)

/-- What comes back from a command, and the processor afterwards. CR0 and CR4 can be looked at
besides, which leaves no trace at all. -/
def give (e : Emulator) (c : Command) : Except Trap (Except VmFail Answer × Emulator) :=
  match c with
  | .present => .ok (.ok (.bit e.present.1), e.present.2)
  | .readMsr r => (e.rdmsr r).map fun x => (.ok (.word x.1), x.2)
  | .writeMsr r v => .ok (.ok .done, e.writeMsr r v)
  | .writeCr4 v => .ok (.ok .done, e.writeCr4 v)
  | .vmxon region m => (e.vmxon region m).map (answer fun _ => .done)
  | .vmxoff => .ok (answer (fun _ => .done) e.vmxoff)
  | .vmptrld region m => .ok (answer (fun _ => .done) (e.vmptrld region m))
  | .vmclear region => .ok (answer (fun _ => .done) (e.vmclear region))
  | .vmread field => .ok (answer .word (e.vmread field))
  | .vmwrite field v => .ok (answer (fun _ => .done) (e.vmwrite field v))
  | .enter k regs => (e.enter k regs).1.map fun r => (r.map fun _ => .done, (e.enter k regs).2.2)
  | .invept s d => .ok (answer (fun _ => .done) (e.invept s d))
  | .invvpid s d => .ok (answer (fun _ => .done) (e.invvpid s d))
  | .writeHostState => .ok (answer (fun _ => .done) e.writeHostState)
  | .timestamp => .ok (.ok (.word e.timestamp.1), e.timestamp.2)

theorem give_enter (e : Emulator) (k : Entry) (regs : Registers) :
    e.give (.enter k regs) = .ok (answer (fun _ => .done) ((e.count k).tryEnter k regs)) := rfl

/-- What can be done to an emulated processor: commands, and arrangements for commands to come. -/
inductive Deed where
  | command (c : Command)
  | setMsr (r : Msr) (v : UInt64)
  | setCr0 (v : UInt64)
  | queueExit (reason : UInt32) (qualification : UInt64)
  | failEntry (code : UInt32)
  | inject (i : Injection) (code : UInt32)

def perform (e : Emulator) : Deed → Except Trap Emulator
  | .command c => (e.give c).map (·.2)
  | .setMsr r v => .ok (e.setMsr r v)
  | .setCr0 v => .ok { e with cr0 := v }
  | .queueExit reason qualification => .ok (e.queueExit reason qualification)
  | .failEntry code => .ok (e.failEntry code)
  | .inject i code => .ok (e.inject i code)

/-- One deed after the other, up to the first that traps. -/
def performAll (e : Emulator) (ds : List Deed) : Except Trap Emulator := ds.foldlM perform e

/-! ## The flag of a failure -/

/-- A failure can be reported in the current structure only. -/
def flag (e : Emulator) : VmFail := if e.current.isSome then .valid else .invalid

/-- If the instruction fails, the flag is the right one. -/
def Flags {α : Type} (e : Emulator) (r : Except VmFail α × Emulator) : Prop :=
  ∀ f, r.1 = .error f → f = e.flag

section

variable {α : Type} {e : Emulator}

theorem current_none (hs : e.standing.Sound) (h : ¬ e.inRoot = true) : e.current = none :=
  hs.current_none (by simpa [inRoot, standing] using h)

theorem flags_ok (a : α) (e' : Emulator) : e.Flags (.ok a, e') := nofun

theorem flags_invalid (h : e.current = none) (e' : Emulator) :
    e.Flags ((.error .invalid, e') : Except VmFail α × Emulator) := by
  intro f hf
  cases hf
  simp [flag, h]

theorem flags_fail {e' : Emulator} (h : e'.current = e.current) (code : UInt32) :
    e.Flags (e'.fail code : Except VmFail α × Emulator) := by
  intro f hf
  unfold fail at hf
  rw [h] at hf
  cases hc : e.current with
  | none =>
    simp only [hc] at hf
    cases hf
    simp [flag, hc]
  | some vmcs =>
    simp only [hc] at hf
    cases hf
    simp [flag, hc]

theorem flags_unlessInjected (i : Injection) {effect : Except VmFail α × Emulator}
    (h : e.Flags effect) : e.Flags (e.unlessInjected i effect) := by
  unfold unlessInjected
  split
  · exact flags_fail rfl _
  · exact h

theorem flags_vmxon (hs : e.standing.Sound) {a : PhysAddr} {m : Memory}
    {r : Except VmFail Unit × Emulator} (h : e.vmxon a m = .ok r) : e.Flags r := by
  unfold vmxon at h
  split at h
  · cases h
  · split at h
    · cases h
      exact flags_fail rfl 15
    · next hr =>
      have hc : e.current = none := current_none hs hr
      split at h
      · cases h
        exact flags_invalid hc e
      · cases h
        exact flags_ok _ _

theorem flags_vmxoff (hs : e.standing.Sound) : e.Flags e.vmxoff := by
  unfold vmxoff
  split
  · exact flags_unlessInjected _ (flags_ok _ _)
  · next hr => exact flags_invalid (current_none hs hr) e

theorem flags_vmptrld (hs : e.standing.Sound) (a : PhysAddr) (m : Memory) :
    e.Flags (e.vmptrld a m) := by
  unfold vmptrld
  split
  · next hv => exact flags_invalid (hs.current_none hv) e
  · split
    · exact flags_fail rfl 10
    · split
      · exact flags_fail rfl 11
      · exact flags_ok _ _

theorem flags_vmclear (hs : e.standing.Sound) (a : PhysAddr) : e.Flags (e.vmclear a) := by
  unfold vmclear
  split
  · next hv => exact flags_invalid (hs.current_none hv) e
  · split
    · exact flags_fail rfl 3
    · exact flags_unlessInjected _ (flags_ok _ _)

theorem flags_vmread (e : Emulator) (field : UInt32) : e.Flags (e.vmread field) := by
  unfold vmread
  split
  · next hc => exact flags_invalid hc e
  · exact flags_unlessInjected _ (flags_ok _ _)

theorem flags_vmwrite (e : Emulator) (field : UInt32) (v : UInt64) :
    e.Flags (e.vmwrite field v) := by
  unfold vmwrite
  split
  · next hc => exact flags_invalid hc e
  · split
    · exact flags_fail rfl 13
    · exact flags_ok _ _

theorem flags_tryEnter (e : Emulator) (k : Entry) (regs : Registers) :
    e.Flags (e.tryEnter k regs) := by
  unfold tryEnter
  split
  · next hc => exact flags_invalid hc e
  · split
    · exact flags_fail rfl _
    · exact flags_fail rfl _
    · exact flags_ok _ _

theorem flags_invept (hs : e.standing.Sound) (s : EptScope) (d : Descriptor) :
    e.Flags (e.invept s d) := by
  unfold invept
  split
  · exact flags_unlessInjected _ (flags_ok _ _)
  · next hr => exact flags_invalid (current_none hs hr) e

theorem flags_invvpid (hs : e.standing.Sound) (s : VpidScope) (d : Descriptor) :
    e.Flags (e.invvpid s d) := by
  unfold invvpid
  split
  · split
    · exact flags_fail rfl 28
    · exact flags_unlessInjected _ (flags_ok _ _)
  · next hr => exact flags_invalid (current_none hs hr) e

theorem flags_writeHostState (e : Emulator) : e.Flags e.writeHostState := by
  unfold writeHostState
  split
  · next hc => exact flags_invalid hc e
  · exact flags_unlessInjected _ (flags_ok _ _)

end

theorem Flags.answer {α : Type} {e : Emulator} {x : Except VmFail α × Emulator} (h : e.Flags x)
    (g : α → Answer) : e.Flags (answer g x) := by
  obtain ⟨r, e'⟩ := x
  cases r with
  | ok a => exact flags_ok _ _
  | error f =>
    intro f' hf
    cases hf
    exact h f rfl

theorem flags_give {e : Emulator} (hs : e.standing.Sound) {c : Command}
    {r : Except VmFail Answer × Emulator} (h : e.give c = .ok r) : e.Flags r := by
  cases c with
  | present | writeMsr | writeCr4 | timestamp =>
    cases h
    exact flags_ok _ _
  | readMsr i =>
    simp only [give, rdmsr] at h
    split at h
    · cases h
      exact flags_ok _ _
    · cases h
  | vmxon a m =>
    cases hv : e.vmxon a m with
    | error t =>
      simp only [give, hv] at h
      cases h
    | ok x =>
      simp only [give, hv] at h
      cases h
      exact (flags_vmxon hs hv).answer _
  | vmxoff =>
    cases h
    exact (flags_vmxoff hs).answer _
  | vmptrld a m =>
    cases h
    exact (flags_vmptrld hs a m).answer _
  | vmclear a =>
    cases h
    exact (flags_vmclear hs a).answer _
  | vmread f =>
    cases h
    exact (e.flags_vmread f).answer _
  | vmwrite f v =>
    cases h
    exact (e.flags_vmwrite f v).answer _
  | enter k regs =>
    rw [give_enter] at h
    cases h
    have hf : (e.count k).flag = e.flag := by cases k <;> rfl
    intro f hx
    exact (((e.count k).flags_tryEnter k regs).answer _ f hx).trans hf
  | invept s d =>
    cases h
    exact (flags_invept hs s d).answer _
  | invvpid s d =>
    cases h
    exact (flags_invvpid hs s d).answer _
  | writeHostState =>
    cases h
    exact e.flags_writeHostState.answer _

/-! ## What a command records -/

/-- The entry failed after all: the reason of the exit that it left to be read says so. -/
def entryFailed (e : Emulator) : Command → Bool
  | .enter _ _ => RawExit.entryFailure ⟨(e.word Field.exitReason).toUInt32⟩
  | _ => false

/-- What stands in the journal of a command that came back like this. -/
def recorded (c : Command) (r : Except VmFail Answer × Emulator) : List Op :=
  match r.1 with
  | .error _ => []
  | .ok _ => if r.2.entryFailed c then [] else c.entry?.toList

theorem recorded_none {c : Command} (h : c.entry? = none) (r : Except VmFail Answer × Emulator) :
    recorded c r = [] := by
  unfold recorded
  split
  · rfl
  · simp [h]

theorem recorded_cases (c : Command) (r : Except VmFail Answer × Emulator) :
    recorded c r = [] ∨ ∃ o, c.entry? = some o ∧ recorded c r = [o] := by
  cases hc : c.entry? with
  | none => exact .inl (recorded_none hc r)
  | some o =>
    unfold recorded
    split
    · exact .inl rfl
    · split
      · exact .inl rfl
      · exact .inr ⟨o, rfl, by simp [hc]⟩

/-- An instruction that settles has recorded what has become of the standing. -/
theorem Settles.recorded {α : Type} {e : Emulator} {c : Command} {o : Op}
    {x : Except VmFail α × Emulator} (h : e.Settles o x) (hc : c.entry? = some o)
    (hf : ∀ e' : Emulator, e'.entryFailed c = false) (g : α → Answer) :
    x.2.standing = e.standing.applyAll (recorded c (answer g x)) := by
  obtain ⟨a, e', rfl, hs⟩ | ⟨f, e', rfl, hs⟩ := h
  · simpa [Emulator.recorded, Emulator.answer, Except.map, hf, hc] using hs
  · exact hs

theorem recorded_enter (e : Emulator) (k : Entry) (regs : Registers) :
    ((e.count k).tryEnter k regs).2.standing =
      (e.standing.attempt k).applyAll
        (recorded (.enter k regs) (answer (fun _ => .done) ((e.count k).tryEnter k regs))) := by
  rw [← e.standing_count k]
  obtain ⟨f, e', he, hs⟩ | ⟨vmcs, raw, e', he, hc, hx, -, hs⟩ := (e.count k).tryEnter_cases k regs
  · rw [he]
    exact hs
  · have hw : e'.entryFailed (.enter k regs) = raw.entryFailure := by
      simp only [entryFailed, word, hc, Option.elim_some, hx, UInt32.toUInt32_toUInt64]
    rw [he, hs]
    cases hr : raw.entryFailure with
    | true => simp [recorded, answer, Except.map, hw, hr]
    | false => simp [recorded, answer, Except.map, hw, hr, Command.entry?]

theorem standing_give {e : Emulator} {c : Command} {r : Except VmFail Answer × Emulator}
    (h : e.give c = .ok r) : r.2.standing = (c.tried e.standing).applyAll (recorded c r) := by
  cases c with
  | present | timestamp =>
    cases h
    rfl
  | writeMsr | writeCr4 =>
    cases h
    rfl
  | readMsr i =>
    simp only [give, rdmsr] at h
    split at h
    · cases h
      rfl
    · cases h
  | vmread f =>
    cases h
    rw [recorded_none rfl]
    exact e.standing_vmread f
  | vmxon a m =>
    obtain ⟨-, hv⟩ | ⟨-, x, hv, hs⟩ := e.vmxon_cases a m
    · simp only [give, hv] at h
      cases h
    · simp only [give, hv] at h
      cases h
      exact hs.recorded rfl (fun _ => rfl) _
  | vmxoff =>
    cases h
    exact e.settles_vmxoff.recorded rfl (fun _ => rfl) _
  | vmptrld a m =>
    cases h
    exact (e.settles_vmptrld a m).recorded rfl (fun _ => rfl) _
  | vmclear a =>
    cases h
    exact (e.settles_vmclear a).recorded rfl (fun _ => rfl) _
  | vmwrite f v =>
    cases h
    exact (e.settles_vmwrite f v).recorded rfl (fun _ => rfl) _
  | enter k regs =>
    cases h
    exact e.recorded_enter k regs
  | invept s d =>
    cases h
    exact (e.settles_invept s d).recorded rfl (fun _ => rfl) _
  | invvpid s d =>
    cases h
    exact (e.settles_invvpid s d).recorded rfl (fun _ => rfl) _
  | writeHostState =>
    cases h
    exact e.settles_writeHostState.recorded rfl (fun _ => rfl) _

/-- VMXON that succeeds was executed outside of VMX operation. -/
theorem off_of_vmxon {e e' : Emulator} {a : PhysAddr} {m : Memory}
    (h : e.vmxon a m = .ok (.ok (), e')) : e.vmxonPtr = none := by
  unfold vmxon at h
  split at h
  · cases h
  · split at h
    · obtain ⟨f, p, hf, -⟩ := fail_eq (α := Unit) e 15
      rw [hf] at h
      cases h
    · next hr => simpa [inRoot] using hr

/-- Neither pointer is recorded before the processor has made its checks. -/
theorem allowed_give {e : Emulator} {c : Command} {r : Except VmFail Answer × Emulator}
    (h : e.give c = .ok r) {o : Op} (ho : recorded c r = [o]) : o.Allowed e.standing := by
  have hc : c.entry? = some o := by
    obtain hn | ⟨o', hc, hn⟩ := recorded_cases c r
    · cases hn.symm.trans ho
    · cases hn.symm.trans ho
      exact hc
  cases c with
  | vmxon a m =>
    cases hc
    cases hv : e.vmxon a m with
    | error t =>
      simp only [give, hv] at h
      cases h
    | ok x =>
      simp only [give, hv] at h
      cases h
      obtain ⟨r, e'⟩ := x
      cases r with
      | error f => cases ho
      | ok u => exact off_of_vmxon hv
  | vmptrld a m =>
    cases hc
    cases h
    cases hv : e.vmptrld a m with
    | mk r e' =>
      rw [hv] at ho
      cases r with
      | error f => cases ho
      | ok u => exact (vmptrld_ok hv).1
  | present | readMsr | vmread | timestamp => cases hc
  | _ =>
    cases hc
    trivial

/-! ## Replays -/

/-- Between the two the journal has gained these entries, and to replay them on the first leads to
the second. -/
def Replays (e e' : Emulator) (ops : List Op) : Prop :=
  e'.journal = ops.reverse ++ e.journal ∧ (e.standing.applyAll ops).Alike e'.standing

namespace Replays

theorem refl (e : Emulator) : e.Replays e [] := ⟨rfl, .refl _⟩

theorem trans {e e' e'' : Emulator} {xs ys : List Op} (h : e.Replays e' xs)
    (h' : e'.Replays e'' ys) : e.Replays e'' (xs ++ ys) := by
  refine ⟨?_, ?_⟩
  · rw [h'.1, h.1, List.reverse_append, List.append_assoc]
  · rw [Standing.applyAll_append]
    exact (h.2.applyAll ys).trans h'.2

end Replays

theorem replays_give {e : Emulator} {c : Command} {r : Except VmFail Answer × Emulator}
    (h : e.give c = .ok r) : e.Replays r.2 (recorded c r) := by
  have hs := standing_give h
  refine ⟨?_, ?_⟩
  · have hj := congrArg Standing.journal hs
    rwa [Standing.journal_applyAll, Command.journal_tried] at hj
  · rw [hs]
    exact (c.alike_tried e.standing).applyAll _

theorem sound_give {e : Emulator} (hs : e.standing.Sound) {c : Command}
    {r : Except VmFail Answer × Emulator} (h : e.give c = .ok r) : r.2.standing.Sound := by
  have hr := (replays_give h).2
  refine Standing.Sound.of_alike ?_ hr
  obtain hn | ⟨o, -, hn⟩ := recorded_cases c r
  · rw [hn]
    exact hs
  · rw [hn]
    exact hs.apply (allowed_give h hn)

theorem replays_perform {e e' : Emulator} (hs : e.standing.Sound) {d : Deed}
    (h : e.perform d = .ok e') : e'.standing.Sound ∧ ∃ ops, e.Replays e' ops := by
  cases d with
  | command c =>
    cases hg : e.give c with
    | error t =>
      simp only [perform, hg] at h
      cases h
    | ok r =>
      simp only [perform, hg] at h
      cases h
      exact ⟨sound_give hs hg, _, replays_give hg⟩
  | setMsr | setCr0 | queueExit | failEntry | inject =>
    cases h
    exact ⟨hs, [], rfl, rfl, rfl, rfl, rfl⟩

theorem replays_performAll {e e' : Emulator} (hs : e.standing.Sound) {ds : List Deed}
    (h : e.performAll ds = .ok e') : e'.standing.Sound ∧ ∃ ops, e.Replays e' ops := by
  induction ds generalizing e with
  | nil =>
    cases h
    exact ⟨hs, [], .refl _⟩
  | cons d ds ih =>
    cases hd : e.perform d with
    | error t =>
      rw [performAll, List.foldlM_cons, hd] at h
      cases h
    | ok p =>
      rw [performAll, List.foldlM_cons, hd] at h
      obtain ⟨hp, xs, hx⟩ := replays_perform hs hd
      obtain ⟨he, ys, hy⟩ := ih hp h
      exact ⟨he, xs ++ ys, hx.trans hy⟩

/-- The journal is faithful, whatever is done to a processor that was idle: to replay what it has
gained leads to where the processor is. A command that fails leaves nothing to replay and sets the
flag that fits; neither does an entry that is reported as failed. A structure is current in VMX
operation only, and never the region that VMX operation runs on. -/
theorem journal_replays {e₀ e : Emulator} {ds : List Deed} (h₀ : e₀.standing.Idle)
    (h : e₀.performAll ds = .ok e) :
    (∃ ops, e.journal = ops.reverse ++ e₀.journal ∧
      (e₀.standing.applyAll ops).Alike e.standing) ∧
    (∀ c f e', e.give c = .ok (.error f, e') →
      e'.journal = e.journal ∧ e.standing.Alike e'.standing ∧
        f = if e.current.isSome then .valid else .invalid) ∧
    (∀ c a e', e.give c = .ok (.ok a, e') →
      if e'.entryFailed c then e'.journal = e.journal ∧ e.standing.Alike e'.standing
      else e'.journal = c.entry?.toList ++ e.journal) ∧
    ∀ a, e.current = some a → ∃ on, e.vmxonPtr = some on ∧ on ≠ a := by
  obtain ⟨hs, hr⟩ := replays_performAll h₀.sound h
  refine ⟨hr, fun c f e' hg => ?_, fun c a e' hg => ?_, hs⟩
  · obtain ⟨hj, ha⟩ := replays_give hg
    exact ⟨hj, ha, flags_give hs hg f rfl⟩
  · obtain ⟨hj, ha⟩ := replays_give hg
    cases hf : e'.entryFailed c with
    | true =>
      have hn : recorded c (.ok a, e') = [] := by simp [recorded, hf]
      rw [hn] at hj ha
      exact ⟨hj, ha⟩
    | false =>
      have hn : recorded c (.ok a, e') = c.entry?.toList := by simp [recorded, hf]
      rw [hn] at hj
      cases hc : c.entry? with
      | none => simpa [hc] using hj
      | some o => simpa [hc] using hj

/-- Memory that holds the processor's revision at two addresses. -/
def stampedAt (a b : PhysAddr) : Memory := (({} : Memory).writeWord a revision).writeWord b revision

/-- VMX operation with a structure whose guest is entered twice: the first entry is reported as
failed, and the second is one that the launch state forbids. -/
def strayDeeds : List Deed :=
  [.queueExit 0x80000021 0, .command (.writeCr4 0x2620),
   .command (.vmxon 0x1000 (stampedAt 0x1000 0x2000)),
   .command (.vmptrld 0x2000 (stampedAt 0x1000 0x2000)),
   .command (.enter .launch .zero), .command (.enter .resume .zero)]

theorem stray_deeds_replay : ∃ e, Emulator.new.performAll strayDeeds = .ok e ∧
    e.journal = [.vmptrld 0x2000, .vmxon 0x1000, .cr4 0x2620] ∧
    ∃ ops, e.journal = ops.reverse ++ [] ∧ (Emulator.new.standing.applyAll ops).Alike e.standing :=
  have h₀ : Emulator.new.standing.Idle := ⟨rfl, rfl, fun _ => rfl⟩
  have h : Emulator.new.performAll strayDeeds = .ok _ := rfl
  ⟨_, h, rfl, (journal_replays h₀ h).1⟩

end Emulator

end VmxControl
