import VmxControl.Proofs.Stance

/-!
# Dropping a core in root operation

A dropped core frees its current structure whatever VMCLEAR says, and the region of VMX operation only
once VMXOFF has worked. So the region is never freed under the processor. The structure is, in the one
case in which neither instruction works: VMX operation goes on then, and the structure is still current.
-/

namespace VmxControl

def Traffic.returned? : Traffic → Option PhysAddr
  | .returned a => some a
  | .requested _ => none

/-- The processor may read and write this memory on its own. -/
def Standing.Uses (st : Standing) (a : PhysAddr) : Prop :=
  st.vmxonPtr = some a ∨ st.current = some a

/-- In VMX operation VMXOFF fails only if a failure was injected. -/
theorem Emulator.vmxoff_cases {e : Emulator} (h : e.vmxonPtr ≠ none) :
    (e.pending .vmxoff = true ∧ e.Fails .vmxoff e.vmxoff) ∨
    (e.pending .vmxoff = false ∧ ∃ e', e.vmxoff = (.ok (), e') ∧
      e'.standing = e.standing.apply .vmxoff) := by
  have hr : e.inRoot = true := Option.isSome_iff_ne_none.2 h
  unfold vmxoff
  simp only [hr, ↓reduceIte]
  obtain hp | ⟨hp, he⟩ := unlessInjected_cases e .vmxoff _
  · exact .inl hp
  · exact .inr ⟨hp, _, he, rfl⟩

namespace Core.Root

variable {c : Root} {s : Machine Emulator}

/-- The frames that dropping the core gives back. -/
def freed (c : Root) (e : Emulator) : List PhysAddr :=
  (c.region?.map (·.addr)).toList ++ if e.pending .vmxoff then [] else [c.vmxon.addr]

/-- The core has a structure, and neither VMCLEAR nor VMXOFF is going to work. -/
def Doomed (c : Root) (e : Emulator) : Prop :=
  c.current.isSome = true ∧ e.pending .vmclear = true ∧ e.pending .vmxoff = true

/-- VMCLEAR takes the structure from the processor unless a failure was injected. The structure is
freed in either case. -/
theorem dropCurrent_cases {cur : Current} (hc : c.current = some cur)
    (hs : (root c).Stands s.footing) :
    ∃ p, c.dropCurrent s = (⟨p, s.host⟩ : Machine Emulator).release cur.region.frame ∧
      p.pending .vmxoff = s.processor.pending .vmxoff ∧
      ((s.processor.pending .vmclear = true ∧ p.standing = s.standing) ∨
        (s.processor.pending .vmclear = false ∧
          p.standing = s.standing.apply (.vmclear cur.region.addr))) := by
  have hon : s.processor.vmxonPtr = some c.vmxon.addr := hs.1
  have ha : c.vmxon.addr ≠ cur.region.addr := hs.apart hc
  obtain ⟨hp, f, p, he, hst, hj⟩ | ⟨hp, p, he, hst⟩ := Emulator.vmclear_cases hon ha
  · have hv : Processor.vmclear cur.region.addr s.processor = (.error f, p) := he
    refine ⟨p, ?_, hj .vmxoff (by simp), .inl ⟨hp, hst⟩⟩
    simp only [dropCurrent, hc, Machine.exec, hv]
  · obtain ⟨q, hq, hx⟩ := Emulator.vmclear_ok hs.1 ha hp
    obtain rfl : p = q := congrArg Prod.snd (he.symm.trans hq)
    have hv : Processor.vmclear cur.region.addr s.processor = (.ok (), p) := he
    refine ⟨p, ?_, hx, .inr ⟨hp, hst⟩⟩
    simp only [dropCurrent, hc, Machine.exec, hv]

/-- What is left of the current structure before VMXOFF is executed. -/
theorem dropCurrent_leaves (hs : (root c).Stands s.footing) (ht : (root c).Tracks s.standing) :
    (c.dropCurrent s).standing.vmxonPtr = some c.vmxon.addr ∧
    (c.dropCurrent s).processor.pending .vmxoff = s.processor.pending .vmxoff ∧
    (c.dropCurrent s).host.memory.traffic =
      ((c.region?.map (·.addr)).toList.map Traffic.returned) ++ s.host.memory.traffic ∧
    ∀ cur, c.current = some cur → (c.dropCurrent s).standing.current =
      if s.processor.pending .vmclear then some cur.region.addr else none := by
  have hon : s.standing.vmxonPtr = some c.vmxon.addr := hs.1
  cases hc : c.current with
  | none =>
    have he : c.dropCurrent s = s := by simp only [dropCurrent, hc]
    rw [he]
    exact ⟨hon, rfl, by simp [region?, hc], by simp⟩
  | some cur =>
    have hcur : s.standing.current = some cur.region.addr := ht cur hc
    obtain ⟨p, he, hx, hp⟩ := dropCurrent_cases hc hs
    rw [he, Machine.standing_release, Machine.standing_mk]
    refine ⟨?_, hx, by simp [region?, hc, Machine.release, Host.release, Memory.giveBack,
      Host.note, Region.addr], ?_⟩
    · obtain ⟨-, hst⟩ | ⟨-, hst⟩ := hp
      · rw [hst, hon]
      · rw [hst]
        exact hon
    · rintro _ ⟨⟩
      obtain ⟨hp, hst⟩ | ⟨hp, hst⟩ := hp
      · simp only [hst, hp, ↓reduceIte, hcur]
      · simp [hst, hp, Standing.apply, hcur]

/-- All that is given back, and what the processor goes on using. -/
theorem drop_leaves (hs : (root c).Stands s.footing) (ht : (root c).Tracks s.standing) :
    (c.drop s).host.memory.traffic =
      ((c.freed s.processor).map Traffic.returned).reverse ++ s.host.memory.traffic ∧
    (s.processor.pending .vmxoff = false →
      (c.drop s).standing.vmxonPtr = none ∧ (c.drop s).standing.current = none) ∧
    (s.processor.pending .vmxoff = true →
      (c.drop s).standing.vmxonPtr = some c.vmxon.addr ∧
      ∀ cur, c.current = some cur → (c.drop s).standing.current =
        if s.processor.pending .vmclear then some cur.region.addr else none) := by
  obtain ⟨hon, hx, htr, hcur⟩ := dropCurrent_leaves (s := s.note c.id .droppedInRoot) hs ht
  have hne : (c.dropCurrent (s.note c.id .droppedInRoot)).processor.vmxonPtr ≠ none := by
    intro hn
    cases hon.symm.trans hn
  have htr' : (c.dropCurrent (s.note c.id .droppedInRoot)).host.memory.traffic =
      (c.region?.map (·.addr)).toList.map Traffic.returned ++ s.host.memory.traffic := htr
  have hx' : _ = s.processor.pending .vmxoff := hx
  obtain ⟨hp, f, p, he, hst, -⟩ | ⟨hp, p, he, hst⟩ := Emulator.vmxoff_cases hne
  · have hv : Processor.vmxoff (c.dropCurrent (s.note c.id .droppedInRoot)).processor =
        (.error f, p) := he
    have hd : c.drop s = ⟨p, (c.dropCurrent (s.note c.id .droppedInRoot)).host⟩ := by
      simp only [drop, Machine.exec, hv]
    rw [hp] at hx'
    rw [hd, Machine.standing_mk, hst, freed, ← hx']
    refine ⟨?_, by simp, fun _ => ⟨hon, hcur⟩⟩
    cases hr : c.region? <;> simp [htr', hr]
  · have hv : Processor.vmxoff (c.dropCurrent (s.note c.id .droppedInRoot)).processor =
        (.ok (), p) := he
    have hd : c.drop s = (Machine.clearVmxe
        ⟨p, (c.dropCurrent (s.note c.id .droppedInRoot)).host⟩).release c.vmxon.frame := by
      simp only [drop, Machine.exec, hv]
    rw [hp] at hx'
    rw [hd, Machine.standing_release, Machine.standing_clearVmxe, Machine.standing_mk, hst, freed,
      ← hx']
    refine ⟨?_, fun _ => ⟨rfl, rfl⟩, by simp⟩
    cases hr : c.region? <;>
      simp [htr', hr, Machine.release, Host.release, Memory.giveBack, Host.note, Region.addr,
        Machine.clearVmxe, Machine.writeCr4]

/-- Nothing that is freed stays in use, except where the core is doomed. -/
theorem freed_unused_iff (hs : (root c).Stands s.footing) (ht : (root c).Tracks s.standing) :
    (∀ a ∈ c.freed s.processor, ¬ (c.drop s).standing.Uses a) ↔ ¬ c.Doomed s.processor := by
  obtain ⟨-, hoff, hstuck⟩ := drop_leaves hs ht
  constructor
  · rintro h ⟨hc, hp, hx⟩
    obtain ⟨cur, hc⟩ := Option.isSome_iff_exists.1 hc
    have hm : cur.region.addr ∈ c.freed s.processor := by simp [freed, region?, hc]
    have hcur := (hstuck hx).2 cur hc
    rw [hp] at hcur
    exact h _ hm (.inr hcur)
  · intro h a hm hu
    cases hx : s.processor.pending .vmxoff with
    | false =>
      obtain ⟨hv, hcur⟩ := hoff hx
      rw [Standing.Uses, hv, hcur] at hu
      simp at hu
    | true =>
      obtain ⟨hv, hcur⟩ := hstuck hx
      cases hc : c.current with
      | none => simp [freed, region?, hc, hx] at hm
      | some cur =>
        obtain rfl : a = cur.region.addr := by simpa [freed, region?, hc, hx] using hm
        have hp : s.processor.pending .vmclear = false :=
          Bool.eq_false_iff.2 fun hp => h ⟨by simp [hc], hp, hx⟩
        have hn : (c.drop s).standing.current = none := by simp [hcur cur hc, hp]
        rw [Standing.Uses, hv, hn] at hu
        obtain hu | hu := hu
        · exact hs.apart hc (Option.some.inj hu)
        · cases hu

/-- The region of VMX operation is freed only when VMX operation is over. -/
theorem freed_not_vmxon (hs : (root c).Stands s.footing) (ht : (root c).Tracks s.standing)
    {a : PhysAddr} (hm : a ∈ c.freed s.processor) : (c.drop s).standing.vmxonPtr ≠ some a := by
  obtain ⟨-, hoff, hstuck⟩ := drop_leaves hs ht
  cases hx : s.processor.pending .vmxoff with
  | false =>
    rw [(hoff hx).1]
    simp
  | true =>
    rw [(hstuck hx).1]
    intro he
    cases hc : c.current with
    | none => simp [freed, region?, hc, hx] at hm
    | some cur =>
      obtain rfl : a = cur.region.addr := by simpa [freed, region?, hc, hx] using hm
      exact hs.apart hc (Option.some.inj he)

end Core.Root

/-! ## Stations -/

namespace Station

variable {s : Station}

def Stands (s : Station) : Prop := ∀ c, s.core = some c → c.Stands s.machine.footing

theorem stands_call (h : s.Stands) (call : Call) : (s.call call).2.Stands := by
  cases s.finds call with
  | nothing he => simpa only [he] using h
  | @enable c hc =>
    have hs : s.machine.footing.region = none := h _ hc
    obtain ⟨t, he, ht⟩ | ⟨f, t, he, ht⟩ := c.enable_footing s.machine
    all_goals
      simp only [Station.call, hc, he]
      rintro _ ⟨⟩
      rw [ht]
    · exact ⟨hs, or_vmxe _⟩
    · exact hs
  | @disable c hc =>
    simp only [Station.call, hc]
    rintro _ ⟨⟩
    rw [c.disable_footing]
    exact (h _ hc).1
  | @enterRoot c region hc =>
    have hs := h _ hc
    obtain ⟨t, he, ht⟩ | ⟨f, t, he, ht⟩ := c.enterRoot_footing region (s := s.machine) hs.2
    all_goals
      simp only [Station.call, hc, he]
      rintro _ ⟨⟩
      rw [ht]
    · exact ⟨rfl, hs.2, by simp [Core.Root.region?]⟩
    · exact hs
  | @exitRoot c hc =>
    have hs := h _ hc
    obtain ⟨t, he, ht⟩ | ⟨f, t, he, ht⟩ := c.exitRoot_footing s.machine
    all_goals
      simp only [Station.call, hc, he]
      rintro _ ⟨⟩
      rw [ht]
    · exact ⟨rfl, hs.2.1⟩
    · exact hs
  | @inRoot c call hc =>
    have hk := (s.running c).keeps_call call
    simp only [Station.call, hc]
    rintro _ ⟨⟩
    exact hk.stands (h _ hc)
  | drop hc =>
    simp only [Station.call, hc]
    rintro _ ⟨⟩

theorem stands_step (e : Event) (h : s.Stands) : (s.step e).Stands := by
  cases e with
  | call c => exact stands_call h c
  | influence i =>
    obtain ⟨hc, hs⟩ := s.standing_influenced i
    intro c hd
    have hf : (s.influenced i).machine.footing = s.machine.footing :=
      congrArg Standing.footing hs
    exact hf ▸ h c (hc ▸ hd)

/-- Addresses of the frames that the event gives back to memory, in their order. -/
def frees (s : Station) (e : Event) : List PhysAddr :=
  (Run.newest (s.step e).machine.host.memory.traffic
    s.machine.host.memory.traffic.length).filterMap Traffic.returned?

theorem frees_drop {c : Core.Root} (hc : s.core = some (.root c)) (hs : s.Stands) (ht : s.Tracks) :
    s.frees (.call .drop) = c.freed s.machine.processor := by
  obtain ⟨htr, -⟩ := Core.Root.drop_leaves (hs _ hc) (ht _ hc)
  have he : (s.step (.call .drop)).machine = c.drop s.machine := by
    simp only [step, act, call, hc, Core.drop]
  have hf : Traffic.returned? ∘ Traffic.returned = some := rfl
  rw [frees, he, htr, Run.newest_append, List.reverse_reverse, List.filterMap_map, hf,
    List.filterMap_some]

/-- Dropping a core in root operation never frees the region that VMX operation runs on, and frees
a current structure exactly if there is one and neither VMCLEAR nor VMXOFF works. -/
theorem drop_frees_unused_iff {c₀ : Core.Disabled} (h₀ : s.core = some (.disabled c₀))
    (hv : s.standing.vmxonPtr = none) (hn : s.standing.current = none) (es : List Event)
    {c : Core.Root} (hc : (s.run es).core = some (.root c)) :
    (∀ a ∈ (s.run es).frees (.call .drop),
      ((s.run es).step (.call .drop)).standing.vmxonPtr ≠ some a) ∧
    ((∀ a ∈ (s.run es).frees (.call .drop),
      ((s.run es).step (.call .drop)).standing.vmxonPtr ≠ some a ∧
        ((s.run es).step (.call .drop)).standing.current ≠ some a) ↔
      ¬ (c.current.isSome = true ∧ (s.run es).machine.processor.pending .vmclear = true ∧
        (s.run es).machine.processor.pending .vmxoff = true)) := by
  have hs0 : s.Stands := fun d hd => by cases h₀.symm.trans hd; exact hv
  have ht0 : s.Tracks := fun d hd => by cases h₀.symm.trans hd; exact hn
  have hs : (s.run es).Stands := run_keeps (fun _ => stands_step) hs0 es
  have ht : (s.run es).Tracks := run_keeps (fun _ => tracks_step) ht0 es
  have he : ((s.run es).step (.call .drop)).standing = (c.drop (s.run es).machine).standing := by
    simp only [step, act, call, hc, Core.drop, standing]
  rw [frees_drop hc hs ht, he]
  refine ⟨fun a hm => Core.Root.freed_not_vmxon (hs _ hc) (ht _ hc) hm, ?_⟩
  have hi := Core.Root.freed_unused_iff (hs _ hc) (ht _ hc)
  simpa only [Standing.Uses, not_or, Core.Root.Doomed] using hi

/-- In root operation with a current structure, about to fail at VMCLEAR and at VMXOFF. -/
def cornered : List Event :=
  toRoot ++ [loadStructure, .influence (.inject .vmclear 3), .influence (.inject .vmxoff 6)]

/-- The drop gives back the structure that stays current. -/
theorem dropped_structure_stays_current :
    (fresh.run cornered).frees (.call .drop) = [0x101000] ∧
      ((fresh.run cornered).step (.call .drop)).standing.current = some 0x101000 ∧
      ((fresh.run cornered).step (.call .drop)).standing.vmxonPtr = some 0x100000 :=
  ⟨rfl, rfl, rfl⟩

/-- Without the two failures the same drop frees both regions and leaves neither in use. -/
theorem drop_of_loaded_core_frees_unused :
    (fresh.run (toRoot ++ [loadStructure])).frees (.call .drop) = [0x101000, 0x100000] ∧
      ∀ a ∈ (fresh.run (toRoot ++ [loadStructure])).frees (.call .drop),
        ((fresh.run (toRoot ++ [loadStructure])).step (.call .drop)).standing.vmxonPtr ≠ some a ∧
          ((fresh.run (toRoot ++ [loadStructure])).step (.call .drop)).standing.current ≠
            some a := by
  obtain ⟨-, hi⟩ := drop_frees_unused_iff (s := fresh) rfl rfl rfl (toRoot ++ [loadStructure])
    (c := ⟨⟨0, Core.announced⟩, stamped .vmxon 0x100000, some ⟨stamped .vmcs 0x101000, false⟩⟩) rfl
  refine ⟨rfl, hi.2 ?_⟩
  rintro ⟨-, hp, -⟩
  cases hp

end Station

end VmxControl
