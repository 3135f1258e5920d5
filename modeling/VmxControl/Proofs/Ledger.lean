import Mathlib.Algebra.BigOperators.Group.Multiset.Basic
import VmxControl.Core.Invalidation
import VmxControl.Dispatch
import VmxControl.Holder

/-!
# The ledger of frames

The traffic with the owner of the frames is a ledger: it says which frames are out, and it is in order
only if each frame that is given back was out. An operation exchanges the frames that it is given for
those that it leaves in the hands of the caller or of a core, whatever other frames are out. None of
this depends on the processor, except for what becomes of a core that is dropped in root operation.
-/

namespace VmxControl

namespace Memory

/-- The frames that are out after this traffic, if each that was given back was out. -/
def outstanding : List Traffic → Option (Multiset PhysAddr)
  | [] => some 0
  | .requested none :: rest => outstanding rest
  | .requested (some a) :: rest => (outstanding rest).map (a ::ₘ ·)
  | .returned a :: rest =>
    (outstanding rest).bind fun out => if a ∈ out then some (out.erase a) else none

/-- An orderly ledger has granted a frame as often as the frame was given back, and once more for each
time that it is out. -/
theorem outstanding_count {traffic : List Traffic} {out : Multiset PhysAddr}
    (h : outstanding traffic = some out) (a : PhysAddr) :
    traffic.count (.requested (some a)) = traffic.count (.returned a) + out.count a := by
  induction traffic generalizing out with
  | nil =>
    obtain rfl : 0 = out := Option.some.inj h
    rfl
  | cons t rest ih =>
    cases t with
    | requested granted =>
      cases granted with
      | none =>
        have hr := ih h
        simpa using hr
      | some b =>
        obtain ⟨out', h', rfl⟩ := Option.map_eq_some_iff.1 h
        have hr := ih h'
        by_cases hb : a = b
        · subst hb
          simp only [List.count_cons_self, ne_eq, reduceCtorEq, not_false_eq_true,
            List.count_cons_of_ne, Multiset.count_cons_self]
          omega
        · simp [Multiset.count_cons_of_ne hb, Ne.symm hb, hr]
    | returned b =>
      obtain ⟨out', h', he⟩ := Option.bind_eq_some_iff.1 h
      have hr := ih h'
      split at he
      · next hm =>
        obtain rfl := Option.some.inj he
        by_cases hb : a = b
        · subst hb
          have hp := Multiset.count_pos.2 hm
          simp only [List.count_cons_self, ne_eq, reduceCtorEq, not_false_eq_true,
            List.count_cons_of_ne, Multiset.count_erase_self]
          omega
        · simp [Multiset.count_erase_of_ne hb, Ne.symm hb, hr]
      · cases he

/-- The ledger is in order, and these frames are out. -/
structure Owes (m : Memory) (out : Multiset PhysAddr) : Prop where
  ledger : outstanding m.traffic = some out
  count : m.granted = m.returned + out.card

theorem owes_empty : ({} : Memory).Owes 0 := ⟨rfl, rfl⟩

variable {m : Memory} {out : Multiset PhysAddr}

theorem Owes.handOut (h : m.Owes out) (distance : UInt64) :
    (m.handOut distance).2.Owes ((m.handOut distance).1 ::ₘ out) := by
  constructor
  · simp only [Memory.handOut, outstanding, h.ledger]
    rfl
  · have hc := h.count
    simp only [Memory.handOut, fill, Multiset.card_cons]
    omega

theorem Owes.giveBack {a : PhysAddr} (h : m.Owes (a ::ₘ out)) : (m.giveBack a).Owes out := by
  constructor
  · simp [Memory.giveBack, outstanding, h.ledger]
  · have hc := h.count
    rw [Multiset.card_cons] at hc
    simp only [Memory.giveBack]
    omega

/-- Between the two states the frames `before` were exchanged for `after`. -/
def Trades (m m' : Memory) (before after : Multiset PhysAddr) : Prop :=
  ∀ rest, m.Owes (before + rest) → m'.Owes (after + rest)

theorem Trades.refl (m : Memory) (fs : Multiset PhysAddr) : m.Trades m fs fs := fun _ h => h

theorem Trades.of_eq {m' : Memory} (h : m' = m) (fs : Multiset PhysAddr) : m.Trades m' fs fs :=
  h ▸ .refl m' fs

theorem Trades.trans {m₁ m₂ m₃ : Memory} {xs ys zs : Multiset PhysAddr} (h : m₁.Trades m₂ xs ys)
    (h' : m₂.Trades m₃ ys zs) : m₁.Trades m₃ xs zs :=
  fun rest ho => h' rest (h rest ho)

theorem Trades.owes {m m' : Memory} {xs ys rest before after : Multiset PhysAddr}
    (h : m.Trades m' xs ys) (ho : m.Owes before) (hb : before = xs + rest)
    (ha : after = ys + rest) : m'.Owes after :=
  ha ▸ h rest (hb ▸ ho)

/-- Frames that have no part in the exchange stay where they are. -/
theorem Trades.frame {m m' : Memory} {xs ys : Multiset PhysAddr} (h : m.Trades m' xs ys)
    (fs : Multiset PhysAddr) : m.Trades m' (xs + fs) (ys + fs) := by
  intro rest ho
  rw [add_assoc] at ho ⊢
  exact h _ ho

theorem handOut_trades (m : Memory) (distance : UInt64) :
    m.Trades (m.handOut distance).2 0 {(m.handOut distance).1} := by
  intro rest ho
  rw [zero_add] at ho
  rw [Multiset.singleton_add]
  exact ho.handOut distance

theorem giveBack_trades (m : Memory) (a : PhysAddr) : m.Trades (m.giveBack a) {a} 0 := by
  intro rest ho
  rw [Multiset.singleton_add] at ho
  rw [zero_add]
  exact ho.giveBack

/-- Writing to memory moves no frame. -/
theorem fill_trades (m : Memory) (a : PhysAddr) (b : UInt8) (fs : Multiset PhysAddr) :
    m.Trades (m.fill a b) fs fs := fun _ ho => ⟨ho.ledger, ho.count⟩

theorem writeWord_trades (m : Memory) (a : PhysAddr) (v : UInt32) (fs : Multiset PhysAddr) :
    m.Trades (m.writeWord a v) fs fs := fun _ ho => ⟨ho.ledger, ho.count⟩

theorem script_trades (m : Memory) (script : List Grant) (fs : Multiset PhysAddr) :
    m.Trades { m with script } fs fs := fun _ ho => ⟨ho.ledger, ho.count⟩

theorem request_trades (m : Memory) :
    (∃ a m', m.request = (some a, m') ∧ m.Trades m' 0 {a}) ∨
    ∃ m', m.request = (none, m') ∧ m.Trades m' 0 0 := by
  have hs := m.script_trades m.script.tail 0
  have hout (d : UInt64) := hs.trans (handOut_trades { m with script := m.script.tail } d)
  cases hg : m.script.head? with
  | none => exact .inl ⟨_, _, by simp only [Memory.request, hg]; rfl, hout 0⟩
  | some g =>
    cases g with
    | fresh => exact .inl ⟨_, _, by simp only [Memory.request, hg]; rfl, hout 0⟩
    | shifted d => exact .inl ⟨_, _, by simp only [Memory.request, hg]; rfl, hout d⟩
    | refused =>
      exact .inr ⟨{ m with script := m.script.tail, traffic := .requested none :: m.traffic },
        by simp only [Memory.request, hg], fun _ ho => ⟨ho.ledger, ho.count⟩⟩

end Memory

/-! ## The host -/

namespace Host

/-- A misaligned frame goes back and is not missed. -/
theorem allocate_trades (h : Host) :
    (∃ f h', h.allocate = (.ok f, h') ∧ h.memory.Trades h'.memory 0 {f.addr}) ∨
    ∃ e h', h.allocate = (.error e, h') ∧ h.memory.Trades h'.memory 0 0 := by
  obtain ⟨a, m, hr, ht⟩ | ⟨m, hr, ht⟩ := h.memory.request_trades
  · by_cases ha : a &&& 0xfff = 0
    · exact .inl ⟨⟨a⟩, _, by simp only [allocate, hr, if_pos ha]; rfl, ht⟩
    · exact .inr ⟨.noMemory, _, by simp only [allocate, hr, if_neg ha]; rfl,
        ht.trans (m.giveBack_trades a)⟩
  · exact .inr ⟨.noMemory, _, by simp only [allocate, hr]; rfl, ht⟩

theorem allocateZeroed_trades (h : Host) :
    (∃ f h', h.allocateZeroed = (.ok f, h') ∧ h.memory.Trades h'.memory 0 {f.addr}) ∨
    ∃ e h', h.allocateZeroed = (.error e, h') ∧ h.memory.Trades h'.memory 0 0 := by
  obtain ⟨f, h', he, ht⟩ | ⟨e, h', he, ht⟩ := h.allocate_trades
  · exact .inl ⟨f, h'.fill f 0, by simp only [allocateZeroed, he],
      ht.trans (h'.memory.fill_trades _ _ _)⟩
  · exact .inr ⟨e, h', by simp only [allocateZeroed, he], ht⟩

theorem release_trades (h : Host) (f : Frame) : h.memory.Trades (h.release f).memory {f.addr} 0 :=
  h.memory.giveBack_trades f.addr

end Host

namespace RawRegion

variable {kind : RegionKind}

theorem allocate_trades (kind : RegionKind) (h : Host) :
    (∃ r h', allocate kind h = (.ok r, h') ∧ h.memory.Trades h'.memory 0 {r.addr}) ∨
    ∃ e h', allocate kind h = (.error e, h') ∧ h.memory.Trades h'.memory 0 0 := by
  obtain ⟨f, h', he, ht⟩ | ⟨e, h', he, ht⟩ := h.allocateZeroed_trades
  · exact .inl ⟨⟨f⟩, h', by simp only [allocate, he], ht⟩
  · exact .inr ⟨e, h', by simp only [allocate, he], ht⟩

/-- The stamped region is made of the same frame. -/
theorem stamp_trades (r : RawRegion kind) (caps : Capabilities) (h : Host) :
    (r.stamp caps h).1.frame = r.frame ∧
      ∀ fs, h.memory.Trades (r.stamp caps h).2.memory fs fs :=
  ⟨rfl, fun fs => (h.memory.fill_trades _ _ fs).trans (Memory.writeWord_trades _ _ _ fs)⟩

end RawRegion

/-! ## Machines -/

namespace Machine

variable {P α : Type}

/-- Between the two machines the frames `before` were exchanged for `after`. -/
def Trades (s t : Machine P) (before after : Multiset PhysAddr) : Prop :=
  s.host.memory.Trades t.host.memory before after

theorem Trades.of_memory {s t : Machine P} (h : t.host.memory = s.host.memory)
    (fs : Multiset PhysAddr) : s.Trades t fs fs := .of_eq h fs

theorem trades_release (s : Machine P) (f : Frame) : s.Trades (s.release f) {f.addr} 0 :=
  s.host.release_trades f

variable [Processor P]

theorem host_diagnose (s : Machine P) (f : VmFail) : (s.diagnose f).2.host = s.host := by
  cases f with
  | invalid => rfl
  | valid =>
    rcases hr : Processor.vmread Field.instructionError s.processor with ⟨e | v, p⟩
    all_goals simp only [diagnose, exec, hr]

/-- An instruction asks nothing of the host. -/
theorem host_attempt (s : Machine P) (i : P → Except VmFail α × P) :
    (s.attempt i).2.host = s.host := by
  rcases hi : i s.processor with ⟨f | a, p⟩
  · simp only [attempt, exec, hi]
    exact host_diagnose _ f
  · simp only [attempt, exec, hi]

theorem memory_attempt {s t : Machine P} {i : P → Except VmFail α × P} {r : Except Failure α}
    (h : s.attempt i = (r, t)) : t.host.memory = s.host.memory := by
  have ht := s.host_attempt i
  rw [h] at ht
  exact congrArg Host.memory ht

end Machine

/-! ## Cores -/

namespace Core

variable {P : Type} [Processor P]

namespace Root

/-- The frames that a core in root operation owns. -/
def frames (c : Root) : Multiset PhysAddr :=
  c.vmxon.addr ::ₘ c.region?.elim 0 fun r => {r.addr}

theorem frames_setLaunched (c : Root) : c.setLaunched.frames = c.frames := by
  cases hc : c.current <;> simp [frames, setLaunched, region?, hc]

theorem frames_load (c : Root) (hc : c.current = none) (cur : Current) :
    frames { c with current := some cur } = c.frames + {cur.region.addr} := by
  simp [frames, region?, hc]

/-- VMXOFF fails when the core is dropped. -/
def stuck (c : Root) (s : Machine P) : Bool :=
  match ((c.dropCurrent (s.note c.id .droppedInRoot)).exec Processor.vmxoff).1 with
  | .ok () => false
  | .error _ => true

end Root

def frames (c : Core) : Multiset PhysAddr := c.root?.elim 0 Root.frames

/-- What dropping the core leaves to the processor for good. -/
def abandons (c : Core) (s : Machine P) : Multiset PhysAddr :=
  c.root?.elim 0 fun c => if c.stuck s then {c.vmxon.addr} else 0

theorem memory_permitVmxon (s : Machine P) :
    (permitVmxon s).2.host.memory = s.host.memory := by
  unfold permitVmxon
  dsimp only
  split
  · rfl
  · split <;> rfl

theorem Disabled.memory_enable (c : Disabled) (s : Machine P) :
    (c.enable s).2.host.memory = s.host.memory := by
  have hc : (c.check s).2.host.memory = s.host.memory := by
    unfold check
    split
    · dsimp only
      split
      · have hp := memory_permitVmxon { s with processor := (Processor.present s.processor).2 }
        split <;> next he => rw [he] at hp; exact hp
      · rfl
    · rfl
  unfold enable
  split <;> next he => rw [he] at hc; exact hc

theorem Enabled.memory_disable (c : Enabled) (s : Machine P) :
    (c.disable s).2.host.memory = s.host.memory := rfl

/-- The region is in the core, or back with the caller; a trap frees it. -/
theorem Enabled.enterRoot_trades (c : Enabled) (region : Region .vmxon) (s : Machine P) :
    (∃ d t, c.enterRoot region s = (.ok (.ok d), t) ∧ d.frames = {region.addr} ∧
      t.host.memory = s.host.memory) ∨
    (∃ e t, c.enterRoot region s = (.ok (.error ⟨(c, region), e⟩), t) ∧
      t.host.memory = s.host.memory) ∨
    ∃ e t, c.enterRoot region s = (.error e, t) ∧ s.Trades t {region.addr} 0 := by
  rcases he : Processor.vmxon region.addr s.host.memory s.processor with e | ⟨f | u, p⟩
  · exact .inr (.inr ⟨e, c.drop (s.release region.frame), by simp only [enterRoot, he],
      s.trades_release region.frame⟩)
  · rcases hd : Machine.diagnose { s with processor := p } f with ⟨why, t⟩
    have ht := Machine.host_diagnose { s with processor := p } f
    rw [hd] at ht
    have hm : t.host.memory = s.host.memory := congrArg Host.memory ht
    exact .inr (.inl ⟨why, t.note c.id (.vmxonFailed region.addr why),
      by simp only [enterRoot, he, hd], hm⟩)
  · exact .inl ⟨⟨c.toIdentity, region, none⟩, Machine.note { s with processor := p } c.id .enteredRoot,
      by simp only [enterRoot, he], rfl, rfl⟩

namespace Root

theorem exitRoot_trades (c : Root) (s : Machine P) :
    (∃ t, c.exitRoot s = (.ok (⟨c.toIdentity⟩, c.vmxon), t) ∧ c.frames = {c.vmxon.addr} ∧
      t.host.memory = s.host.memory) ∨
    ∃ e t, c.exitRoot s = (.error ⟨c, e⟩, t) ∧ t.host.memory = s.host.memory := by
  cases hc : c.current with
  | some cur =>
    exact .inr ⟨.regionBusy, s.note c.id .vmxoffWithCurrent, by simp [exitRoot, hc], rfl⟩
  | none =>
    rcases ha : s.attempt Processor.vmxoff with ⟨e | u, t⟩
    all_goals have hm := Machine.memory_attempt ha
    · exact .inr ⟨e, t.note c.id (.vmxoffFailed e), by simp [exitRoot, hc, ha], hm⟩
    · exact .inl ⟨t.note c.id .leftRoot, by simp [exitRoot, hc, ha],
        by simp [frames, region?, hc], hm⟩

theorem memory_unload (c : Root) (region : Region .vmcs) (why : Failure) (s : Machine P) :
    (c.unload region why s).host.memory = s.host.memory := by
  unfold unload
  split <;> next ha =>
    have hm := Machine.memory_attempt ha
    exact hm

theorem load_trades (c : Root) (region : Region .vmcs) (s : Machine P) :
    (∃ d t, c.load region s = (.ok (), d, t) ∧ d.frames = c.frames + {region.addr} ∧
      t.host.memory = s.host.memory) ∨
    ∃ e t, c.load region s = (.error ⟨region, e⟩, c, t) ∧ t.host.memory = s.host.memory := by
  cases hc : c.current with
  | some cur => exact .inr ⟨.regionBusy, s, by simp [load, hc], rfl⟩
  | none =>
    rcases ha : s.attempt (Processor.vmptrld region.addr s.host.memory) with ⟨e | u, t⟩
    · have hm := Machine.memory_attempt ha
      exact .inr ⟨e, t.note c.id (.vmptrldFailed region.addr e), by simp [load, hc, ha], hm⟩
    · rcases hw : t.attempt Processor.writeHostState with ⟨e | u, t'⟩
      · refine .inr ⟨e, c.unload region e t', by simp [load, hc, ha, hw], ?_⟩
        rw [memory_unload, Machine.memory_attempt hw, Machine.memory_attempt ha]
      · refine .inl ⟨{ c with current := some ⟨region, false⟩ }, t'.note c.id (.loaded region.addr),
          by simp [load, hc, ha, hw], c.frames_load hc _, ?_⟩
        exact (Machine.memory_attempt hw).trans (Machine.memory_attempt ha)

theorem clearCurrent_trades (c : Root) (s : Machine P) :
    (∃ region d t, c.clearCurrent s = (.ok region, d, t) ∧ c.frames = d.frames + {region.addr} ∧
      d.current = none ∧ t.host.memory = s.host.memory) ∨
    ∃ e t, c.clearCurrent s = (.error e, c, t) ∧ t.host.memory = s.host.memory := by
  cases hc : c.current with
  | none => exact .inr ⟨.invalid, s, by simp [clearCurrent, hc], rfl⟩
  | some cur =>
    rcases ha : s.attempt (Processor.vmclear cur.region.addr) with ⟨e | u, t⟩
    all_goals have hm := Machine.memory_attempt ha
    · exact .inr ⟨e, t, by simp [clearCurrent, hc, ha], hm⟩
    · exact .inl ⟨cur.region, { c with current := none }, t.note c.id (.cleared cur.region.addr),
        by simp [clearCurrent, hc, ha], by simp [frames, region?, hc], rfl, hm⟩

/-! ### Dropping -/

theorem dropCurrent_trades (c : Root) (s : Machine P) :
    s.Trades (c.dropCurrent s) c.frames {c.vmxon.addr} := by
  cases hc : c.current with
  | none =>
    have hf : c.frames = {c.vmxon.addr} := by simp [frames, region?, hc]
    rw [hf, dropCurrent, hc]
    exact .of_memory rfl _
  | some cur =>
    have hf : c.frames = {cur.region.addr} + {c.vmxon.addr} := by
      simp only [frames, region?, hc]
      exact Multiset.pair_comm _ _
    rw [hf, dropCurrent, hc]
    have ht := (Machine.trades_release (s.exec (Processor.vmclear cur.region.addr)).2
      cur.region.frame).frame {c.vmxon.addr}
    rw [zero_add] at ht
    exact ht

theorem drop_trades (c : Root) (s : Machine P) :
    s.Trades (c.drop s) c.frames (abandons (root c) s) := by
  have hd : s.Trades _ c.frames _ := c.dropCurrent_trades (s.note c.id .droppedInRoot)
  rcases he : (c.dropCurrent (s.note c.id .droppedInRoot)).exec Processor.vmxoff with ⟨e | u, t⟩
  all_goals
    have hh : t.host = (c.dropCurrent (s.note c.id .droppedInRoot)).host :=
      (congrArg (fun x => x.2.host) he).symm
    have ht : s.Trades t c.frames {c.vmxon.addr} :=
      hd.trans (Machine.Trades.of_memory (congrArg Host.memory hh) _)
  · have hs : abandons (root c) s = {c.vmxon.addr} := by simp [abandons, root?, stuck, he]
    rw [hs, drop, he]
    exact ht
  · have hs : abandons (root c) s = 0 := by simp [abandons, root?, stuck, he]
    rw [hs, drop, he]
    exact ht.trans (t.clearVmxe.trades_release c.vmxon.frame)

/-! ### Calls in root operation -/

theorem memory_clear (c : Root) (region : Region .vmcs) (s : Machine P) :
    (c.clear region s).2.host.memory = s.host.memory := by
  unfold clear
  split <;> next ha =>
    have hm := Machine.memory_attempt ha
    exact hm

theorem memory_read (c : Root) (f : Field) (s : Machine P) :
    (c.read f s).2.host.memory = s.host.memory := by
  unfold read
  split
  · split <;> next ha => exact Machine.memory_attempt ha
  · rfl

theorem memory_write (c : Root) (f : Field) (v : UInt64) (s : Machine P) :
    (c.write f v s).2.host.memory = s.host.memory := by
  unfold write
  split
  · exact congrArg Host.memory (s.host_attempt _)
  · rfl

theorem memory_invalidateEpt (c : Root) (pointer : UInt64) (scope : EptScope) (s : Machine P) :
    (c.invalidateEpt pointer scope s).2.host.memory = s.host.memory := by
  unfold invalidateEpt
  split
  · split <;> next ha =>
      have hm := Machine.memory_attempt ha
      exact hm
  · rfl

theorem memory_invalidateVpid (c : Root) (tag : Tag) (scope : VpidScope) (address : UInt64)
    (s : Machine P) : (c.invalidateVpid tag scope address s).2.host.memory = s.host.memory := by
  unfold invalidateVpid
  split
  · split
    · rfl
    · split <;> next ha =>
        have hm := Machine.memory_attempt ha
        exact hm
  · rfl

theorem afterExit_stays (c : Root) (s : Machine P) :
    (c.afterExit s).2.1.frames = c.frames ∧
      (c.afterExit s).2.2.host.memory = s.host.memory := by
  unfold afterExit
  split
  · next ha =>
    refine ⟨?_, Machine.memory_attempt ha⟩
    dsimp only
    split
    · rfl
    · exact c.frames_setLaunched
  · next ha => exact ⟨rfl, Machine.memory_attempt ha⟩

theorem enter_stays (c : Root) (k : Entry) (regs : Registers) (s : Machine P) :
    (c.enter k regs s).2.1.frames = c.frames ∧
      (c.enter k regs s).2.2.2.host.memory = s.host.memory := by
  unfold enter
  split
  · exact ⟨rfl, rfl⟩
  · split
    · exact ⟨rfl, rfl⟩
    · split
      · exact c.afterExit_stays _
      · exact ⟨rfl, congrArg Host.memory (Machine.host_diagnose _ _)⟩
      · exact ⟨rfl, rfl⟩

end Root

theorem drop_trades (c : Core) (s : Machine P) : s.Trades (c.drop s) c.frames (c.abandons s) := by
  cases c with
  | disabled c | enabled c => exact .of_memory rfl _
  | root c => exact c.drop_trades s

end Core

namespace Running

variable {P : Type}

/-- The core owns what it owned, and memory is as it was. -/
def Stays (w v : Running P) : Prop :=
  v.core.frames = w.core.frames ∧ v.machine.host.memory = w.machine.host.memory

theorem Stays.trans {u v w : Running P} (h : u.Stays v) (h' : v.Stays w) : u.Stays w :=
  ⟨h'.1.trans h.1, h'.2.trans h.2⟩

theorem stays_count (w : Running P) (raw : RawExit) (entered time : UInt64) :
    w.Stays (w.count raw entered time) := by
  unfold count
  split <;> exact ⟨rfl, rfl⟩

variable [Processor P]

theorem stays_report (w : Running P) (raw : RawExit) (time : UInt64) :
    w.Stays (w.report raw time).2 := by
  unfold report
  split <;> next ha =>
    have hm := Machine.memory_attempt ha
    exact ⟨rfl, hm⟩

theorem stays_enter (w : Running P) (k : Entry) : w.Stays (w.enter k).2 := by
  obtain ⟨hf, hm⟩ := w.now.2.core.enter_stays k w.now.2.regs w.now.2.machine
  rcases hx : w.now.2.core.enter k w.now.2.regs w.now.2.machine with ⟨t | e | raw, core, regs, m⟩
  all_goals
    rw [hx] at hf hm
    simp only [enter, hx]
  · exact ⟨hf, hm⟩
  · exact ⟨hf, hm⟩
  · let v : Running P := { w.now.2 with core, regs, machine := m }
    have hv : w.Stays v.now.2 := ⟨hf, hm⟩
    exact hv.trans ((v.now.2.stays_count raw w.now.1 v.now.1).trans (stays_report _ raw v.now.1))

theorem stays_dispatch {β : Type} (w : Running P) (h : Handler β) :
    w.Stays (w.dispatch h).2 := by
  have hr : w.Stays w.run.2 := w.stays_enter _
  unfold dispatch
  split
  · next he => rw [he] at hr; exact hr
  · next he => rw [he] at hr; exact hr
  · next he =>
    rw [he] at hr
    split <;> exact hr

end Running

/-! ## Holders -/

namespace Holder

variable {P : Type} [Processor P]

def frames (h : Holder) : Multiset PhysAddr := h.core.elim 0 Core.frames

def abandons (h : Holder) (s : Machine P) : Multiset PhysAddr := h.core.elim 0 (·.abandons s)

/-- The region that a holder gets for its core is freed again if the core does not take it. -/
theorem enterRoot_trades (c : Core.Enabled) (s : Machine P) :
    s.Trades (enterRoot c s).2.2 0 (enterRoot c s).2.1.frames := by
  unfold enterRoot
  obtain ⟨raw, host, he, ht⟩ | ⟨e, host, he, ht⟩ := RawRegion.allocate_trades .vmxon s.host
  · simp only [he]
    obtain ⟨hf, hs⟩ := raw.stamp_trades c.caps host
    rcases hst : raw.stamp c.caps host with ⟨region, host'⟩
    rw [hst] at hf hs
    have hr : s.host.memory.Trades host'.memory 0 {region.addr} := by
      have ha : region.addr = raw.addr := congrArg Frame.addr hf
      rw [ha]
      exact ht.trans (hs _)
    obtain ⟨d, t, hx, hd, hm⟩ | ⟨f, t, hx, hm⟩ | ⟨f, t, hx, hm⟩ :=
      c.enterRoot_trades region { s with host := host' }
    all_goals simp only [hx]
    · have hfr : frames ⟨some (.root d)⟩ = {region.addr} := hd
      rw [hfr]
      exact hr.trans (.of_eq hm _)
    · exact (hr.trans (.of_eq hm _)).trans (t.trades_release region.frame)
    · exact hr.trans hm
  · simp only [he]
    exact ht

theorem hardwareEnable_trades (h : Holder) (s : Machine P) :
    s.Trades (h.hardwareEnable s).2.2 h.frames (h.hardwareEnable s).2.1.frames := by
  cases hc : h.core with
  | none =>
    simp only [hardwareEnable, hc]
    exact .of_memory rfl _
  | some core =>
    cases core with
    | root c =>
      simp only [hardwareEnable, hc]
      exact .of_memory rfl _
    | enabled c =>
      have hf : h.frames = 0 := by simp [frames, hc, Core.frames, Core.root?]
      simp only [hardwareEnable, hc, hf]
      exact enterRoot_trades c s
    | disabled c =>
      have hf : h.frames = 0 := by simp [frames, hc, Core.frames, Core.root?]
      have hm := c.memory_enable s
      rcases he : c.enable s with ⟨r | d, t⟩
      all_goals
        rw [he] at hm
        simp only [hardwareEnable, hc, he, hf]
      · exact .of_memory hm _
      · exact Memory.Trades.trans (.of_eq hm _) (enterRoot_trades d t)

theorem clearCurrent_trades (c : Core.Root) (s : Machine P) :
    s.Trades (clearCurrent c s).2.2 c.frames (clearCurrent c s).2.1.frames := by
  cases hc : c.current with
  | none =>
    have he : clearCurrent c s = (.ok (), c, s) := by simp [clearCurrent, hc]
    rw [he]
    exact .of_memory rfl _
  | some cur =>
    obtain ⟨region, d, t, he, hf, -, hm⟩ | ⟨e, t, he, hm⟩ := c.clearCurrent_trades s
    · have hx : clearCurrent c s = (.ok (), d, t.release region.frame) := by
        simp [clearCurrent, hc, he]
      rw [hx, hf, add_comm]
      have hr := (t.trades_release region.frame).frame d.frames
      rw [zero_add] at hr
      exact Memory.Trades.trans (.of_eq hm _) hr
    · have hx : clearCurrent c s = (.error e, c, t) := by simp [clearCurrent, hc, he]
      rw [hx]
      exact .of_memory hm _

theorem leaveRoot_trades (c : Core.Root) (s : Machine P) :
    s.Trades (leaveRoot c s).2.2 c.frames (leaveRoot c s).2.1.frames := by
  have ht := clearCurrent_trades c s
  unfold leaveRoot
  rcases hc : clearCurrent c s with ⟨e | u, d, t⟩
  all_goals rw [hc] at ht
  · exact ht
  · obtain ⟨v, he, hf, hm⟩ | ⟨e, v, he, hm⟩ := d.exitRoot_trades t
    all_goals simp only [he]
    · have hr : s.Trades v c.frames {d.vmxon.addr} := by
        rw [← hf]
        exact ht.trans (.of_eq hm _)
      exact hr.trans (v.clearVmxe.trades_release d.vmxon.frame)
    · exact ht.trans (.of_eq hm _)

theorem hardwareDisable_trades (h : Holder) (s : Machine P) :
    s.Trades (h.hardwareDisable s).2.2 h.frames (h.hardwareDisable s).2.1.frames := by
  cases hc : h.core with
  | none =>
    simp only [hardwareDisable, hc]
    exact .of_memory rfl _
  | some core =>
    cases core with
    | disabled c =>
      simp only [hardwareDisable, hc]
      exact .of_memory rfl _
    | enabled c =>
      have hf : h.frames = 0 := by simp [frames, hc, Core.frames, Core.root?]
      simp only [hardwareDisable, hc, hf]
      exact .of_memory rfl _
    | root c =>
      have hf : h.frames = c.frames := by simp [frames, hc, Core.frames, Core.root?]
      simp only [hardwareDisable, hc, hf]
      exact leaveRoot_trades c s

theorem drop_trades (h : Holder) (s : Machine P) :
    s.Trades (h.drop s) h.frames (h.abandons s) := by
  cases hc : h.core with
  | none =>
    simp only [drop, hc, frames, abandons]
    exact .of_memory rfl _
  | some c =>
    simp only [drop, hc, frames, abandons]
    exact c.drop_trades s

end Holder

end VmxControl
