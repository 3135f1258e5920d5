import VmxControl.Holder
import VmxControl.Proofs.Detection
import VmxControl.Proofs.Execution
import VmxControl.Proofs.Moves
import VmxControl.Proofs.Projection

/-!
# Invalidations on their way to the processor

An invalidation is passed on as one instruction if its scope is announced and it does not single out
the host's tag, and is turned down without any instruction otherwise. What the processor makes of
the instruction is what the caller gets. However the control plane is used, no processor is ever
asked to drop the host's tag alone, so the check that the emulated processor makes of this finds
nothing.
-/

namespace VmxControl

/-! ## Observers -/

namespace Observer

variable {P α : Type} [Processor P]

theorem projects : Projects (processor : Observer P → P) where
  readCr4 _ := rfl
  writeCr4 _ _ := rfl
  vmxon a m o := by
    show Processor.vmxon a m o.processor =
      Except.map _ (Except.map _ (Processor.vmxon a m o.processor))
    cases Processor.vmxon a m o.processor <;> rfl
  vmxoff _ := rfl
  vmptrld _ _ _ := rfl
  vmclear _ _ := rfl
  vmread _ _ := rfl
  vmwrite _ _ _ := rfl
  enter _ _ _ := rfl
  invept _ _ _ := rfl
  invvpid _ _ _ := rfl
  writeHostState _ := rfl

theorem of_other_mem_on {c d : Command} {o : Observer P} (h : .other d ∈ (c.on o).seen) :
    .other d ∈ o.seen ∨ d = c := by
  have hcons {x : Sight} (hx : Sight.other d ∈ x :: o.seen) : .other d ∈ o.seen ∨ .other d = x :=
    (List.mem_cons.1 hx).symm
  cases c with
  | present | readMsr r =>
    refine .inl ((hcons h).resolve_right ?_)
    rintro ⟨⟩
  | vmxon region m =>
    have hv : Processor.vmxon region m o = (Processor.vmxon region m o.processor).map fun x =>
      (x.1, o.see (.other (.vmxon region m)) x.2) := rfl
    rw [Command.on, hv] at h
    cases hp : Processor.vmxon region m o.processor with
    | error t =>
      rw [hp] at h
      exact .inl h
    | ok x =>
      rw [hp] at h
      exact (hcons h).imp_right Sight.other.inj
  | _ => exact (hcons h).imp_right Sight.other.inj

/-- Besides what it has seen before, an observer sees commands that were allowed. -/
theorem of_other_mem_executes {can : Command → Prop} {s t : Machine (Observer P)}
    (h : s.Executes can t) {d : Command} (hd : .other d ∈ t.processor.seen) :
    .other d ∈ s.processor.seen ∨ can d := by
  refine h.keeps (I := fun o => .other d ∈ o.seen → .other d ∈ s.processor.seen ∨ can d) ?_ .inl hd
  intro c o hc ho hm
  obtain hm | rfl := of_other_mem_on hm
  · exact ho hm
  · exact .inr hc

/-- What is asked after an instruction: for the number of its failure, if there is one. -/
def inquiry : Except VmFail α → List Sight
  | .error .valid => [.other (.vmread Field.instructionError)]
  | _ => []

theorem seen_diagnose (f : VmFail) (s : Machine (Observer P)) :
    (s.diagnose f).2.processor.seen.reverse =
      s.processor.seen.reverse ++ inquiry (.error f : Except VmFail α) := by
  cases f with
  | invalid => exact (List.append_nil _).symm
  | valid =>
    have hx : (s.diagnose .valid).2 = (s.exec (Processor.vmread Field.instructionError)).2 := by
      simp only [Machine.diagnose]
      split <;> next he => rw [he]
    rw [hx]
    exact List.reverse_cons

theorem seen_attempt (c : Command) (i : P → Except VmFail α × P) (s : Machine P) :
    (s.observed.attempt (pass c i)).2.processor.seen.reverse =
      .other c :: inquiry (i s.processor).1 := by
  obtain ⟨r, p, hi⟩ : ∃ r p, i s.processor = (r, p) := ⟨_, _, rfl⟩
  have hx : s.observed.exec (pass c i) = (r, ⟨⟨p, [.other c]⟩, s.host⟩) := by
    simp only [Machine.exec, pass, Machine.observed, hi]
    rfl
  rw [Machine.attempt, hx, hi]
  cases r with
  | ok a => rfl
  | error f => exact seen_diagnose f (⟨⟨p, [.other c]⟩, s.host⟩ : Machine (Observer P))

end Observer

/-! ## What is passed on -/

inductive Invalidation where
  | ept (pointer : UInt64) (scope : EptScope)
  | vpid (tag : Tag) (scope : VpidScope) (address : UInt64)

namespace Invalidation

variable {P : Type} [Processor P]

def operation : Invalidation → Operation
  | .ept pointer scope => .invalidateEpt pointer scope
  | .vpid tag scope address => .invalidateVpid tag scope address

/-- The one command that it stands for. -/
def command : Invalidation → Command
  | .ept pointer scope => .invept scope ⟨pointer, 0⟩
  | .vpid tag scope address => .invvpid scope ⟨tag.value.toUInt64, address⟩

/-- What the processor makes of the command. -/
def issue : Invalidation → P → Except VmFail Unit × P
  | .ept pointer scope => Processor.invept scope ⟨pointer, 0⟩
  | .vpid tag scope address => Processor.invvpid scope ⟨tag.value.toUInt64, address⟩

/-- What a processor writes into its journal of it. -/
def entry : Invalidation → Op
  | .ept pointer scope => .invept scope ⟨pointer, 0⟩
  | .vpid tag scope address => .invvpid scope ⟨tag.value.toUInt64, address⟩

/-- What a core tells its host of it. -/
def note : Invalidation → CoreNote
  | .ept pointer scope => .eptInvalidated scope pointer
  | .vpid tag scope _ => .vpidInvalidated scope tag.debug

def Announced (a : Isolation) : Invalidation → Prop
  | .ept _ scope => a.supportsInvept scope = true
  | .vpid _ scope _ => a.supportsInvvpid scope = true

/-- It singles out the tag of the host. -/
def HostOnly : Invalidation → Prop
  | .ept _ _ => False
  | .vpid tag scope _ => tag.isHost = true ∧ scope ≠ .allContexts

/-- Why it is turned down if its scope is not announced. -/
def unannounced : Invalidation → Failure
  | .ept _ _ => .unsupported "INVEPT type"
  | .vpid _ _ _ => .unsupported "INVVPID type"

theorem issue_observer (i : Invalidation) :
    (i.issue : Observer P → _) = Observer.pass i.command i.issue := by
  cases i <;> rfl

theorem settles_issue (i : Invalidation) (e : Emulator) : e.Settles i.entry (i.issue e) := by
  cases i with
  | ept pointer scope => exact e.settles_invept scope _
  | vpid tag scope address => exact e.settles_invvpid scope _

theorem obeys_issue (i : Invalidation) (e : Emulator) :
    e.Obeys (e.number? i.command) ((), e.record i.entry) (i.issue e) := by
  cases i with
  | ept pointer scope => exact e.obeys_invept scope _
  | vpid tag scope address => exact e.obeys_invvpid scope _

theorem issue_ok {i : Invalidation} {e p : Emulator} (h : i.issue e = (.ok (), p)) :
    p = e.record i.entry := by
  have ho := i.obeys_issue e
  rw [h] at ho
  exact ho.of_ok

/-- What a core in root operation is asked to do. -/
def request (i : Invalidation) (c : Core.Root) (s : Machine P) : Except Failure Unit × Machine P :=
  match i with
  | .ept pointer scope => c.invalidateEpt pointer scope s
  | .vpid tag scope address => c.invalidateVpid tag scope address s

def outcome (i : Invalidation) (c : Core.Root) (s : Machine P) : Outcome P :=
  (Core.root c).perform i.operation s

/-- What the core asks of the processor on that, in this order. -/
def sights (i : Invalidation) (c : Core.Root) (s : Machine P) : List Sight :=
  (i.outcome c s.observed).machine.processor.seen.reverse

/-- A core tells its host of an invalidation that succeeded. -/
def told (i : Invalidation) (c : Core.Root) :
    Except Failure Unit × Machine P → Except Failure Unit × Machine P
  | (.ok (), s) => (.ok (), s.note c.id i.note)
  | (.error e, s) => (.error e, s)

variable {i : Invalidation} {c : Core.Root}

theorem outcome_eq (i : Invalidation) (c : Core.Root) (s : Machine P) :
    i.outcome c s = .of (.root c) (i.request c s) := by
  cases i <;> rfl

theorem request_of_unannounced (ha : ¬ i.Announced c.caps.isolation) (s : Machine P) :
    i.request c s = (.error i.unannounced, s) := by
  cases i with
  | ept pointer scope => exact if_neg ha
  | vpid tag scope address => exact if_neg ha

theorem request_of_hostOnly (ha : i.Announced c.caps.isolation) (hh : i.HostOnly)
    (s : Machine P) :
    i.request c s = (.error (.valid .invalidInvalidationOperand), s) := by
  cases i with
  | ept pointer scope => exact hh.elim
  | vpid tag scope address => exact (if_pos ha).trans (if_pos hh)

theorem request_of_passed (ha : i.Announced c.caps.isolation) (hh : ¬ i.HostOnly)
    (s : Machine P) : i.request c s = i.told c (s.attempt i.issue) := by
  cases i with
  | ept pointer scope => exact if_pos ha
  | vpid tag scope address => exact (if_pos ha).trans (if_neg hh)

omit [Processor P] in
theorem processor_told (i : Invalidation) (c : Core.Root) (r : Except Failure Unit × Machine P) :
    (i.told c r).2.processor = r.2.processor := by
  rcases r with ⟨e | u, s⟩ <;> rfl

theorem sights_eq (i : Invalidation) (c : Core.Root) (s : Machine P) :
    i.sights c s = (i.request c s.observed).2.processor.seen.reverse := by
  rw [sights, outcome_eq]
  rcases i.request c s.observed with ⟨e | u, t⟩ <;> rfl

theorem sights_of_passed (ha : i.Announced c.caps.isolation) (hh : ¬ i.HostOnly)
    (s : Machine P) :
    i.sights c s = .other i.command :: Observer.inquiry (i.issue s.processor).1 := by
  rw [sights_eq, request_of_passed ha hh, processor_told, issue_observer, Observer.seen_attempt]

theorem sights_ne_nil_iff (s : Machine P) :
    i.sights c s ≠ [] ↔ i.Announced c.caps.isolation ∧ ¬ i.HostOnly := by
  by_cases ha : i.Announced c.caps.isolation
  · by_cases hh : i.HostOnly
    · rw [sights_eq, request_of_hostOnly ha hh]
      exact ⟨fun h => absurd rfl h, fun h => absurd hh h.2⟩
    · rw [sights_of_passed ha hh]
      exact ⟨fun _ => ⟨ha, hh⟩, fun _ => List.cons_ne_nil _ _⟩
  · rw [sights_eq, request_of_unannounced ha]
    exact ⟨fun h => absurd rfl h, fun h => absurd h.1 ha⟩

theorem outcome_of_ok (ha : i.Announced c.caps.isolation) (hh : ¬ i.HostOnly)
    {s : Machine Emulator} {p : Emulator} (hp : i.issue s.processor = (.ok (), p)) :
    i.outcome c s =
      { core := some (.root c)
        machine := Machine.note ⟨s.processor.record i.entry, s.host⟩ c.id i.note } := by
  rw [outcome_eq, request_of_passed ha hh, Machine.attempt_ok hp, issue_ok hp]
  rfl

theorem outcome_of_error (ha : i.Announced c.caps.isolation) (hh : ¬ i.HostOnly)
    {s : Machine Emulator} {f : VmFail} {p : Emulator}
    (hp : i.issue s.processor = (.error f, p)) :
    ∃ q : Emulator, q.standing = s.standing ∧ i.outcome c s =
      { failure := some (Machine.diagnose ⟨p, s.host⟩ f).1
        core := some (.root c)
        machine := ⟨q, s.host⟩ } := by
  obtain ⟨why, q, hd, hq, -⟩ := Machine.diagnose_eq ⟨p, s.host⟩ f
  have hs : p.standing = s.standing := by
    obtain ⟨u, p', hu, -⟩ | ⟨f', p', hf, hs⟩ := i.settles_issue s.processor
    · cases hp.symm.trans hu
    · cases hp.symm.trans hf
      exact hs
  have ha' : s.attempt i.issue = (.error why, ⟨q, s.host⟩) := by
    simp only [Machine.attempt, Machine.exec, hp, hd]
  refine ⟨q, hq.trans hs, ?_⟩
  rw [outcome_eq, request_of_passed ha hh, ha', hd]
  rfl

end Invalidation

/-! ## The tag of the host -/

/-- The host's tag is not dropped alone. -/
def Command.SparesHost : Command → Prop
  | .invvpid scope d => ¬ (d.first = 0 ∧ scope ≠ .allContexts)
  | _ => True

/-- Where the host's tag is spared, the emulated processor refuses nothing by itself. -/
theorem Emulator.invvpid_of_sparesHost {scope : VpidScope} {d : Descriptor}
    (h : (Command.invvpid scope d).SparesHost) (e : Emulator) : e.invvpid scope d =
      if e.inRoot then e.unlessInjected .invvpid (.ok (), e.record (.invvpid scope d))
      else (.error .invalid, e) := by
  rw [invvpid, if_neg h]

theorem Tag.toUInt64_eq_zero (t : Tag) : t.value.toUInt64 = 0 ↔ t.isHost = true := by
  rw [isHost, beq_iff_eq, ← UInt64.toNat_inj, ← UInt16.toNat_inj]
  rfl

theorem Command.Guides.sparesHost {c : Command} (h : c.Guides) : c.SparesHost := by
  cases c <;> first | exact trivial | exact h.elim

theorem RootCall.Asks.sparesHost {call : RootCall} {c : Command} (h : call.Asks c) :
    c.SparesHost := by
  cases call with
  | write f v =>
    obtain rfl | h := h
    · exact trivial
    · exact h.sparesHost
  | invalidateEpt pointer scope =>
    obtain rfl | h := h
    · exact trivial
    · exact h.sparesHost
  | invalidateVpid tag scope address =>
    obtain ⟨rfl, hn⟩ | h := h
    · rw [← tag.toUInt64_eq_zero] at hn
      exact hn
    · exact h.sparesHost
  | _ => exact Command.Guides.sparesHost h

section

variable {P : Type} [Processor P] {s t : Machine P}

theorem Machine.Executes.sparing {call : Call} (h : s.Executes call.Uses t)
    (hn : ∀ x, call ≠ .inRoot x) : s.Executes Command.SparesHost t := by
  refine h.mono fun c hc => ?_
  cases c with
  | invvpid scope d =>
    cases call with
    | inRoot x => exact absurd rfl (hn x)
    | _ => exact hc.elim
  | _ => exact trivial

/-- Detection reads registers and asks CPUID. -/
theorem Reading.executes_run {α : Type} (t : Reading α) (p : P) (h h' : Host) :
    Machine.Executes Command.SparesHost ⟨p, h⟩ ⟨(t.run p).2, h'⟩ := by
  induction t generalizing p with
  | done a => exact .of_eq rfl
  | read r next ih =>
    have hr : Machine.Executes Command.SparesHost ⟨p, h⟩ ⟨(Processor.readMsr r p).2, h⟩ :=
      .one (c := .readMsr r) trivial rfl
    exact hr.trans (ih (Processor.readMsr r p).1 _)

theorem Capabilities.executes_detect (s : Machine P) :
    s.Executes Command.SparesHost (detect s).2 := by
  have hp : s.Executes Command.SparesHost ⟨(Processor.present s.processor).2, s.host⟩ :=
    .one (c := .present) trivial rfl
  cases h : (Processor.present s.processor).1 with
  | true =>
    simp only [detect, h, if_true, Announcement.read_eq]
    exact hp.trans (Announcement.reading.executes_run _ _ _)
  | false =>
    simp only [detect, h]
    exact hp.trans (.of_eq rfl)

namespace Holder

theorem executes_enterRoot (c : Core.Enabled) (s : Machine P) :
    s.Executes Command.SparesHost (enterRoot c s).2.2 := by
  unfold enterRoot
  rcases RawRegion.allocate .vmxon s.host with ⟨e | raw, host⟩
  · exact .of_eq rfl
  · rcases hr : raw.stamp c.caps host with ⟨region, host'⟩
    have hx := (c.executes_enterRoot region { s with host := host' }).sparing nofun
    simp only [hr]
    split <;> next he => rw [he] at hx; exact hx

theorem executes_hardwareEnable (h : Holder) (s : Machine P) :
    s.Executes Command.SparesHost (h.hardwareEnable s).2.2 := by
  unfold hardwareEnable
  split
  · exact .refl _ s
  · exact .refl _ s
  · exact executes_enterRoot _ s
  · next c _ =>
    have hx := (c.executes_enable s).sparing nofun
    split
    · next he =>
      rw [he] at hx
      exact hx.trans (executes_enterRoot _ _)
    · next he =>
      rw [he] at hx
      exact hx

theorem executes_leaveRoot (c : Core.Root) (s : Machine P) :
    s.Executes Command.SparesHost (leaveRoot c s).2.2 := by
  have hx : s.Executes Command.SparesHost (clearCurrent c s).2.2 := by
    have hc := (c.executes_clearCurrent s).mono fun _ hc => hc.sparesHost
    unfold clearCurrent
    split
    · split <;> next he => rw [he] at hc; exact hc
    · exact .refl _ s
  unfold leaveRoot
  split
  · next he =>
    rw [he] at hx
    exact hx
  · next d t he =>
    rw [he] at hx
    have ht := (d.executes_exitRoot t).sparing nofun
    split
    · next hd =>
      rw [hd] at ht
      exact hx.trans ht
    · next d region u hd =>
      rw [hd] at ht
      exact hx.trans (ht.trans ((d.executes_disable u).sparing nofun))

theorem executes_hardwareDisable (h : Holder) (s : Machine P) :
    s.Executes Command.SparesHost (h.hardwareDisable s).2.2 := by
  unfold hardwareDisable
  split
  · exact .refl _ s
  · exact .refl _ s
  · next c _ => exact (c.executes_disable s).sparing nofun
  · exact executes_leaveRoot _ s

end Holder

/-- One use of the control plane on an observed processor, by whatever core in whatever state, or
something that happens to processor and host apart from it. -/
inductive Machine.Served : Machine (Observer P) → Machine (Observer P) → Prop
  | detect (s : Machine (Observer P)) : Served s (Capabilities.detect s).2
  | enable (c : Core.Disabled) (s : Machine (Observer P)) : Served s (c.enable s).2
  | disable (c : Core.Enabled) (s : Machine (Observer P)) : Served s (c.disable s).2
  | enterRoot (c : Core.Enabled) (region : Region .vmxon) (s : Machine (Observer P)) :
      Served s (c.enterRoot region s).2
  | exitRoot (c : Core.Root) (s : Machine (Observer P)) : Served s (c.exitRoot s).2
  | inRoot (w : Running (Observer P)) (call : RootCall) : Served w.machine (w.call call).2.machine
  | drop (c : Core) (s : Machine (Observer P)) : Served s (c.drop s)
  | hardwareEnable (h : Holder) (s : Machine (Observer P)) :
      Served s (h.hardwareEnable s).2.2
  | hardwareDisable (h : Holder) (s : Machine (Observer P)) :
      Served s (h.hardwareDisable s).2.2
  | outside (s : Machine (Observer P)) (p : P) (k : Host) :
      Served s ⟨{ s.processor with processor := p }, k⟩

/-- The observer sees nothing new that drops the host's tag alone. -/
theorem Machine.Served.spares {s t : Machine (Observer P)} (h : s.Served t) {c : Command}
    (hc : .other c ∈ t.processor.seen) : .other c ∈ s.processor.seen ∨ c.SparesHost := by
  have hx {u v : Machine (Observer P)} (hu : u.Executes Command.SparesHost v)
      (hv : .other c ∈ v.processor.seen) : .other c ∈ u.processor.seen ∨ c.SparesHost :=
    Observer.of_other_mem_executes hu hv
  cases h with
  | detect s => exact hx (Capabilities.executes_detect s) hc
  | enable c s => exact hx ((c.executes_enable s).sparing nofun) hc
  | disable c s => exact hx ((c.executes_disable s).sparing nofun) hc
  | enterRoot c region s => exact hx ((c.executes_enterRoot region s).sparing nofun) hc
  | exitRoot c s => exact hx ((c.executes_exitRoot s).sparing nofun) hc
  | inRoot w call => exact hx ((w.executes_asked call).mono fun _ h => h.sparesHost) hc
  | drop c s => exact hx ((c.executes_drop s).sparing nofun) hc
  | hardwareEnable h s => exact hx (h.executes_hardwareEnable s) hc
  | hardwareDisable h s => exact hx (h.executes_hardwareDisable s) hc
  | outside s p k => exact .inl hc

theorem Machine.spares_of_served {s : Machine P} {t : Machine (Observer P)}
    (h : Relation.ReflTransGen Machine.Served s.observed t) {c : Command}
    (hc : .other c ∈ t.processor.seen) : c.SparesHost := by
  induction h with
  | refl => cases hc
  | tail _ ht ih => exact (ht.spares hc).elim ih id

end

/-- An invalidation executes an instruction exactly if its scope is announced and it does not single
out the host's tag. Then it executes this one instruction with its operands, and nothing besides but
the question for the number of its failure. If the processor succeeds so does the call, with one
more entry in the journal of the processor and one more note to the host; if it fails the call fails
for that reason, without either. An invalidation that is turned down changes nothing, and a scope
that is missing is the first reason. All this is the same with the observer and without. Whatever
the control plane is used for, the emulated processor never has to protect the host's tag. -/
theorem invalidation_is_passed_on_or_turned_down (i : Invalidation) (c : Core.Root)
    (s : Machine Emulator) :
    i.outcome c s = (i.outcome c s.observed).map Observer.processor ∧
    (i.sights c s ≠ [] ↔ i.Announced c.caps.isolation ∧ ¬ i.HostOnly) ∧
    (i.Announced c.caps.isolation → ¬ i.HostOnly →
      i.sights c s = .other i.command :: Observer.inquiry (i.issue s.processor).1 ∧
      (∀ p, i.issue s.processor = (.ok (), p) →
        i.outcome c s =
          { core := some (.root c)
            machine := Machine.note ⟨s.processor.record i.entry, s.host⟩ c.id i.note }) ∧
      ∀ f p, i.issue s.processor = (.error f, p) →
        ∃ q : Emulator, q.standing = s.standing ∧
          i.outcome c s =
            { failure := some (Machine.diagnose ⟨p, s.host⟩ f).1
              core := some (.root c)
              machine := ⟨q, s.host⟩ }) ∧
    (¬ i.Announced c.caps.isolation →
      i.outcome c s = { failure := some i.unannounced, core := some (.root c), machine := s }) ∧
    (i.Announced c.caps.isolation → i.HostOnly →
      i.outcome c s =
        { failure := some (.valid ⟨28⟩), core := some (.root c), machine := s }) ∧
    ∀ t, Relation.ReflTransGen Machine.Served s.observed t →
      ∀ scope d, .other (.invvpid scope d) ∈ t.processor.seen →
        ¬ (d.first = 0 ∧ scope ≠ .allContexts) ∧
        ∀ e : Emulator, e.invvpid scope d =
          if e.inRoot then e.unlessInjected .invvpid (.ok (), e.record (.invvpid scope d))
          else (.error .invalid, e) := by
  refine ⟨?_, i.sights_ne_nil_iff s, fun ha hh => ?_, fun ha => ?_, fun ha hh => ?_,
    fun t ht scope d hd => ?_⟩
  · exact Core.map_perform Observer.projects (.root c) i.operation s.observed
  · exact ⟨i.sights_of_passed ha hh s, fun p => i.outcome_of_ok ha hh,
      fun f p => i.outcome_of_error ha hh⟩
  · rw [i.outcome_eq, i.request_of_unannounced ha]
    rfl
  · rw [i.outcome_eq, i.request_of_hostOnly ha hh]
    rfl
  · have hs := Machine.spares_of_served ht hd
    exact ⟨hs, Emulator.invvpid_of_sparesHost hs⟩

namespace Invalidation

/-- A core in root operation, and a processor for it. -/
def operating : Core.Root := ⟨⟨0, Core.announced⟩, Station.stamped .vmxon 0x100000, none⟩

def operated : Emulator := { Emulator.new with vmxonPtr := some 0x100000 }

/-- Dropping the host's tag alone is turned down, and dropping tag 1 is passed on. -/
theorem host_tag_kept_and_tag_one_dropped :
    (vpid .host .singleContext 0).outcome operating ⟨operated, {}⟩ =
      { failure := some (.valid ⟨28⟩), core := some (.root operating), machine := ⟨operated, {}⟩ } ∧
    (vpid .host .singleContext 0).sights operating ⟨operated, {}⟩ = [] ∧
    (vpid ⟨1⟩ .singleContext 0).outcome operating ⟨operated, {}⟩ =
      { core := some (.root operating)
        machine := Machine.note ⟨operated.record (.invvpid .singleContext ⟨1, 0⟩), {}⟩ 0
          (.vpidInvalidated .singleContext "IsolationTag(1)") } := by
  have ha : operating.caps.isolation.supportsInvvpid .singleContext = true := by decide
  have hh : (vpid .host .singleContext 0).HostOnly := ⟨rfl, nofun⟩
  obtain ⟨-, hsights, -, -, hhost, -⟩ := invalidation_is_passed_on_or_turned_down
    (vpid .host .singleContext 0) operating ⟨operated, {}⟩
  obtain ⟨-, -, hpassed, -⟩ := invalidation_is_passed_on_or_turned_down
    (vpid ⟨1⟩ .singleContext 0) operating ⟨operated, {}⟩
  obtain ⟨-, hok, -⟩ := hpassed ha fun h => absurd h.1 (by decide)
  refine ⟨hhost ha hh, ?_, hok _ rfl⟩
  exact not_not.1 fun h => (hsights.1 h).2 hh

end Invalidation

end VmxControl
