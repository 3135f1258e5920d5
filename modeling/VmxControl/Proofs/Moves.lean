import VmxControl.Proofs.Operation
import VmxControl.Proofs.Station
import VmxControl.Proofs.Transition

/-!
# Moves of a station

All that one event can do to a station. A move says what becomes of the core, which structure comes
back to the caller, whether an entry was sent, and which effects the processor had. What later
modules keep along a run, they keep along each move.
-/

namespace VmxControl

structure Effect (κ : Type) where
  back : Option (Region .vmcs) := none
  core : κ
  sent : Option Entry := none
  ops : List Op := []

/-- The standing after the effect. -/
def Effect.after {κ : Type} (f : Effect κ) (st : Standing) : Standing :=
  (f.sent.elim st st.attempt).applyAll f.ops

namespace Core.Root

/-- What a call can do to a core in root operation on the processor `e`. -/
inductive Moves (c : Root) (e : Emulator) : Effect Root → Prop
  | quiet {ops : List Op} (h : ∀ o ∈ ops, o.Passive) : Moves c e { core := c, ops }
  | refuse {region : Region .vmcs} (hh : c.holds region.addr = false) :
      Moves c e { back := some region, core := c }
  | load {region : Region .vmcs} (hc : c.current = none) (hp : e.pending .hostState = false) :
      Moves c e
        { core := { c with current := some ⟨region, false⟩ }
          ops := [.vmptrld region.addr, .hostState] }
  | undo {region : Region .vmcs} (hc : c.current = none) (hp : e.pending .vmclear = false) :
      Moves c e
        { back := some region, core := c, ops := [.vmptrld region.addr, .vmclear region.addr] }
  | strand {region : Region .vmcs} (hc : c.current = none) (hh : e.pending .hostState = true)
      (hp : e.pending .vmclear = true) :
      Moves c e { back := some region, core := c, ops := [.vmptrld region.addr] }
  | clear {region : Region .vmcs} (hh : c.holds region.addr = false) :
      Moves c e { core := c, ops := [.vmclear region.addr] }
  | clearCurrent {cur : Current} (hc : c.current = some cur) :
      Moves c e
        { back := some cur.region
          core := { c with current := none }
          ops := [.vmclear cur.region.addr] }
  | fail {k : Entry} {cur : Current} (hc : c.current = some cur) (hk : forbidden k cur = none) :
      Moves c e { core := c, sent := some k }
  | enter {k : Entry} {cur : Current} (hc : c.current = some cur) (hk : forbidden k cur = none)
      (hp : e.pending (.vmread Field.exitReason) = false) :
      Moves c e { core := c.setLaunched, sent := some k, ops := [.entered k] }
  | unseen {k : Entry} {cur : Current} (hc : c.current = some cur) (hk : forbidden k cur = none)
      (hp : e.pending (.vmread Field.exitReason) = true) :
      Moves c e { core := c, sent := some k, ops := [.entered k] }

theorem moves_of_quiet {c : Root} {s t : Machine Emulator} (h : s.Quiet t) :
    ∃ f, c.Moves s.processor f ∧ none = f.back ∧ c = f.core ∧ t.standing = f.after s.standing := by
  obtain ⟨ops, ho, ht⟩ := h
  exact ⟨{ core := c, ops }, .quiet ho, rfl, rfl, ht⟩

theorem moves_of_entering {c c' : Root} {k : Entry} {e : Emulator} {st : Standing}
    (h : c.Entering k e c' st) :
    ∃ f, c.Moves e f ∧ none = f.back ∧ c' = f.core ∧ st = f.after e.standing := by
  cases h with
  | withheld => exact ⟨{ core := c }, .quiet (by simp), rfl, rfl, rfl⟩
  | failed hc hk => exact ⟨_, .fail hc hk, rfl, rfl, rfl⟩
  | seen hc hk hp => exact ⟨_, .enter hc hk hp, rfl, rfl, rfl⟩
  | unseen hc hk hp => exact ⟨_, .unseen hc hk hp, rfl, rfl, rfl⟩

end Core.Root

namespace Running

theorem call_moves (w : Running Emulator) (call : RootCall) :
    ∃ f, w.core.Moves w.machine.processor f ∧ (w.call call).1 = f.back ∧
      (w.call call).2.core = f.core ∧
      (w.call call).2.machine.standing = f.after w.machine.standing := by
  have hstay : ∃ f, w.core.Moves w.machine.processor f ∧ none = f.back ∧ w.core = f.core ∧
      w.machine.standing = f.after w.machine.standing := Core.Root.moves_of_quiet (.of_eq rfl)
  cases call with
  | load region =>
    cases hh : w.core.holds region.addr with
    | true => simpa [call, hh] using hstay
    | false =>
      obtain ⟨f, t, he, hs⟩ | ⟨hc, ⟨hp, t, he, hs⟩ | ⟨hp, f, t, he, hs⟩ | ⟨hp, hv, f, t, he, hs⟩⟩ :=
        w.core.load_cases region w.machine
      all_goals simp only [call, hh, he, Bool.false_eq_true, ↓reduceIte]
      · exact ⟨_, .refuse hh, rfl, rfl, hs⟩
      · exact ⟨_, .load hc hp, rfl, rfl, hs⟩
      · exact ⟨_, .undo hc hp, rfl, rfl, hs⟩
      · exact ⟨_, .strand hc hp hv, rfl, rfl, hs⟩
  | clear region =>
    cases hh : w.core.holds region.addr with
    | true => simpa [call, hh] using hstay
    | false =>
      simp only [call, hh, Bool.false_eq_true, ↓reduceIte]
      obtain hs | hs := w.core.clear_cases region w.machine
      · exact Core.Root.moves_of_quiet (.of_eq hs)
      · exact ⟨_, .clear hh, rfl, rfl, hs⟩
  | clearCurrent =>
    obtain ⟨f, t, he, hs⟩ | ⟨cur, hc, t, he, hs⟩ := w.core.clearCurrent_cases w.machine
    · simp only [call, he]
      exact Core.Root.moves_of_quiet (.of_eq hs)
    · simp only [call, he]
      exact ⟨_, .clearCurrent hc, rfl, rfl, hs⟩
  | enter k =>
    obtain ⟨r, c, t, he, hx⟩ := w.core.enter_cases k w.regs w.machine
    simp only [call, he]
    exact Core.Root.moves_of_entering hx
  | enterCounted k => exact Core.Root.moves_of_entering (w.enter_entering k)
  | run => exact Core.Root.moves_of_entering (w.enter_entering _)
  | dispatch h =>
    obtain ⟨hc, hm⟩ := w.dispatch_standing h
    simp only [call, hc, hm]
    exact Core.Root.moves_of_entering (w.enter_entering _)
  | read f => exact Core.Root.moves_of_quiet (w.core.quiet_read f w.machine)
  | write f v => exact Core.Root.moves_of_quiet (w.core.quiet_write f v w.machine)
  | invalidateEpt pointer scope =>
    exact Core.Root.moves_of_quiet (w.core.quiet_invalidateEpt pointer scope w.machine)
  | invalidateVpid tag scope address =>
    exact Core.Root.moves_of_quiet (w.core.quiet_invalidateVpid tag scope address w.machine)

end Running

namespace Station

variable {s : Station}

/-- What an event can do to a station. The core is gone for good once it is dropped, or once VMXON
traps because CR4.VMXE is clear. -/
inductive Moves (s : Station) : Event → Effect (Option Core) → Prop
  | stay {e : Event} : Moves s e { core := s.core }
  | check {e : Event} {c : Core.Disabled} {ops : List Op} (hc : s.core = some (.disabled c))
      (h : ∀ o ∈ ops, o.Passive) : Moves s e { core := s.core, ops }
  | enable {e : Event} {c : Core.Disabled} {ops : List Op} (hc : s.core = some (.disabled c))
      (h : ∀ o ∈ ops, o.Passive) :
      Moves s e
        { core := some (.enabled ⟨c.toIdentity⟩), ops := ops ++ [.cr4 (s.standing.cr4 ||| vmxe)] }
  | disable {e : Event} {c : Core.Enabled} (hc : s.core = some (.enabled c)) :
      Moves s e
        { core := some (.disabled ⟨c.toIdentity⟩), ops := [.cr4 (s.standing.cr4 &&& ~~~vmxe)] }
  | enterRoot {e : Event} {c : Core.Enabled} {region : Region .vmxon}
      (hc : s.core = some (.enabled c)) :
      Moves s e
        { core := some (.root ⟨c.toIdentity, region, none⟩), ops := [.vmxon region.addr] }
  | exitRoot {e : Event} {c : Core.Root} (hc : s.core = some (.root c)) (hn : c.current = none) :
      Moves s e { core := some (.enabled ⟨c.toIdentity⟩), ops := [.vmxoff] }
  | inRoot {e : Event} {c : Core.Root} {f : Effect Core.Root} (hc : s.core = some (.root c))
      (h : c.Moves s.machine.processor f) : Moves s e { f with core := some (.root f.core) }
  | drop {ops : List Op} (h : ∀ o ∈ ops, o.Leaving) : Moves s (.call .drop) { core := none, ops }
  | trap {c : Core.Enabled} {region : Region .vmxon} (hc : s.core = some (.enabled c))
      (hx : s.standing.cr4 &&& vmxe = 0) :
      Moves s (.call (.enterRoot region))
        { core := none, ops := [.cr4 (s.standing.cr4 &&& ~~~vmxe)] }

/-- Structures come back, and entries are sent, only from calls in root operation. -/
theorem Moves.root_or_plain {e : Event} {f : Effect (Option Core)} (h : s.Moves e f) :
    (∃ c g, s.core = some (.root c) ∧ c.Moves s.machine.processor g ∧
      f = { g with core := some (.root g.core) }) ∨
    (f.back = none ∧ f.sent = none ∧ ∀ o ∈ f.ops, ¬ o.Hosting) := by
  cases h with
  | inRoot hc hm => exact .inl ⟨_, _, hc, hm, rfl⟩
  | check hc ho => exact .inr ⟨rfl, rfl, fun o hm => (ho o hm).not_hosting⟩
  | enable hc ho =>
    refine .inr ⟨rfl, rfl, fun o hm => ?_⟩
    obtain hm | hm := List.mem_append.1 hm
    · exact (ho o hm).not_hosting
    · rw [List.mem_singleton.1 hm]
      exact id
  | drop ho => exact .inr ⟨rfl, rfl, fun o hm => (ho o hm).not_hosting⟩
  | stay | disable | enterRoot | exitRoot | trap => exact .inr ⟨rfl, rfl, by simp [Op.Hosting]⟩

/-- The outcome of an event is that of one of its moves. -/
def Moved (s : Station) (e : Event) (r : Option (Region .vmcs) × Station) : Prop :=
  ∃ f, s.Moves e f ∧ r.1 = f.back ∧ r.2.core = f.core ∧ r.2.standing = f.after s.standing

theorem moved_stay (s : Station) (e : Event) : s.Moved e (none, s) := ⟨_, .stay, rfl, rfl, rfl⟩

theorem checked_applies (c : Core.Disabled) (e : Emulator) :
    ∃ ops : List Op, (∀ o ∈ ops, o.Passive) ∧ c.checked e = e.standing.applyAll ops := by
  unfold Core.Disabled.checked
  split
  · refine ⟨[e.lockOp], fun o hm => ?_, rfl⟩
    rw [List.mem_singleton.1 hm]
    trivial
  · exact ⟨[], by simp, rfl⟩

theorem moved_enable {c : Core.Disabled} (hc : s.core = some (.disabled c)) :
    s.Moved (.call .enable) (s.call .enable) := by
  obtain ⟨ops, ho, hk⟩ := checked_applies c s.machine.processor
  obtain ⟨t, he, hs, -⟩ | ⟨f, t, he, hs, -⟩ := c.enable_cases s.machine
  · simp only [call, hc, he]
    refine ⟨_, .enable hc ho, rfl, rfl, ?_⟩
    rw [Effect.after, Standing.applyAll_append]
    exact hs.trans (hk ▸ rfl)
  · simp only [call, hc, he]
    exact ⟨_, .check hc ho, rfl, hc.symm, hs.trans hk⟩

theorem moved_enterRoot {c : Core.Enabled} (hc : s.core = some (.enabled c))
    (region : Region .vmxon) :
    s.Moved (.call (.enterRoot region)) (s.call (.enterRoot region)) := by
  obtain ⟨hx, t, he, hs⟩ | ⟨-, ⟨t, he, hs, -⟩ | ⟨f, t, he, hs, -⟩⟩ :=
    c.enterRoot_cases region s.machine
  all_goals simp only [call, hc, he]
  · exact ⟨_, .trap hc hx, rfl, rfl, hs⟩
  · exact ⟨_, .enterRoot hc, rfl, rfl, hs⟩
  · exact ⟨_, .stay, rfl, hc.symm, hs⟩

theorem moved_exitRoot {c : Core.Root} (hc : s.core = some (.root c)) :
    s.Moved (.call .exitRoot) (s.call .exitRoot) := by
  obtain ⟨t, he, hn, hs, -⟩ | ⟨f, t, he, hs, -⟩ := c.exitRoot_cases s.machine
  all_goals simp only [call, hc, he]
  · exact ⟨_, .exitRoot hc hn, rfl, rfl, hs⟩
  · exact ⟨_, .stay, rfl, hc.symm, hs⟩

theorem moved_inRoot {c : Core.Root} (hc : s.core = some (.root c)) (call : RootCall) :
    s.Moved (.call (.inRoot call)) (s.call (.inRoot call)) := by
  obtain ⟨f, hm, hb, hk, hs⟩ := (s.running c).call_moves call
  simp only [Station.call, hc]
  exact ⟨_, .inRoot hc hm, hb, congrArg (some <| Core.root ·) hk, hs⟩

theorem call_moves (s : Station) (c : Call) : s.Moved (.call c) (s.call c) := by
  cases s.finds c with
  | nothing h => exact h ▸ s.moved_stay _
  | enable hc => exact moved_enable hc
  | disable hc =>
    simp only [call, hc]
    exact ⟨_, .disable hc, rfl, rfl, rfl⟩
  | enterRoot hc => exact moved_enterRoot hc _
  | exitRoot hc => exact moved_exitRoot hc
  | inRoot hc => exact moved_inRoot hc _
  | @drop core hc =>
    obtain ⟨ops, hl, ho⟩ := core.drop_applies s.machine
    simp only [call, hc]
    exact ⟨_, .drop hl, rfl, rfl, ho⟩

theorem standing_influenced (s : Station) (i : Influence) :
    (s.influenced i).core = s.core ∧ (s.influenced i).standing = s.standing := by
  cases i <;> exact ⟨rfl, rfl⟩

theorem step_moves (s : Station) (e : Event) :
    ∃ f, s.Moves e f ∧ s.back e = f.back ∧ (s.step e).core = f.core ∧
      (s.step e).standing = f.after s.standing := by
  cases e with
  | call c => exact s.call_moves c
  | influence i =>
    obtain ⟨hc, hs⟩ := s.standing_influenced i
    exact ⟨_, .stay, rfl, hc, hs⟩

/-- What every move of an event leads to is what the event leads to. -/
theorem step_of_moves {e : Event} {Q : Standing → Core → Prop}
    (h : ∀ f, s.Moves e f → ∀ c, f.core = some c → Q (f.after s.standing) c) (c : Core)
    (hc : (s.step e).core = some c) : Q (s.step e).standing c := by
  obtain ⟨f, hm, -, hk, hs⟩ := s.step_moves e
  rw [hs]
  exact h f hm c (hk ▸ hc)

/-- What an event executes and sends are what its move says. -/
theorem executes_eq {e : Event} {f : Effect (Option Core)}
    (h : (s.step e).standing = f.after s.standing) : s.executes e = f.ops := by
  have hj : (s.step e).standing.journal = f.ops.reverse ++ s.standing.journal := by
    rw [h, Effect.after, Standing.journal_applyAll]
    cases f.sent with
    | none => rfl
    | some k => cases k <;> rfl
  exact Run.newest_of_eq hj

theorem sends_iff {e : Event} {f : Effect (Option Core)}
    (h : (s.step e).standing = f.after s.standing) (k : Entry) : s.Sends e k ↔ f.sent = some k := by
  rw [Sends, h, Effect.after, Standing.attempts_applyAll]
  cases f.sent with
  | none => simp
  | some j => cases j <;> cases k <;> simp [Standing.attempt, Standing.attempts]

/-- A new core on a new processor, and memory with two stamped frames. -/
def fresh : Station :=
  new 0 Core.announced Emulator.new
    { memory := (({} : Memory).writeWord 0x100000 Emulator.revision).writeWord 0x101000
        Emulator.revision }

def stamped (kind : RegionKind) (a : PhysAddr) : Region kind := ⟨⟨a⟩, Emulator.revision⟩

/-- The way of a new core into root operation. -/
def toRoot : List Event := [.call .enable, .call (.enterRoot (stamped .vmxon 0x100000))]

def loadStructure : Event := .call (.inRoot (.load (stamped .vmcs 0x101000)))

end Station

end VmxControl
