import VmxControl.Native.HostState
import VmxControl.Proofs.Trampoline

/-!
# What a call for an entry comes to

The code is followed from the call to the return. Along the way the stack holds what the caller
wants back, and nothing but the block and the words below the caller's stack is written.
-/

namespace VmxControl

namespace Registers

/-- What is read by index does not depend on the slot of the stack pointer. -/
theorem get_congr {r s : Registers} (h : ∀ i : Gpr, i ≠ Gpr.rsp → r.slot i = s.slot i) (i : UInt8) :
    r.get i = s.get i := by
  unfold get
  split
  · next hi =>
    have bound := hi.1
    have other : (⟨i.toNat, bound⟩ : Gpr) ≠ Gpr.rsp := fun he => hi.2 (congrArg Fin.val he)
    have same : r.slots[i.toNat] = s.slots[i.toNat] := h _ other
    exact congrArg Except.ok same
  · rfl

end Registers

namespace Native

namespace Caller

variable {w : Caller} {k : Entry} {regs : Registers} {s : Software}

/-- A word that is neither one of the block nor one of the eight below the stack. -/
def Beyond (w : Caller) (x : UInt64) : Prop :=
  (∀ i : Gpr, w.block + i.offset ≠ x) ∧ ∀ n < 8, w.top - 64 + 8 * n.toUInt64 ≠ x

theorem Apart.ne (hw : w.Apart) (i : Gpr) {n : Nat} (hn : n < 9) :
    w.block + i.offset ≠ w.top - 64 + 8 * n.toUInt64 := hw i ⟨n, hn⟩

theorem Apart.ne_top (hw : w.Apart) (i : Gpr) : w.block + i.offset ≠ w.top := by
  simpa using hw.ne i (n := 8) (by omega)

/-- The block is away from the word to which RDI is pushed after an exit. -/
theorem Apart.ne_lowest (hw : w.Apart) (i : Gpr) : w.block + i.offset ≠ w.top - 64 := by
  simpa using hw.ne i (n := 0) (by omega)

theorem restored_ne {i : Gpr} (hi : i ∈ restoredRegisters) : i ≠ .rsp ∧ i ≠ .rax := by
  revert i
  decide

theorem blockRegisters_ne {i : Gpr} (hi : i ∈ blockRegisters) : i ≠ .rsp ∧ i ≠ .rdi := by
  revert i
  decide

/-- Amid a call. On the stack are the address of the block, what the caller wants back and the
address to return to. -/
structure Amid (w : Caller) (c : Cpu) : Prop where
  top : c.gpr.slot .rsp = w.top - 56
  stack : c.words.Stacked (w.top - 56)
    (w.block :: (restoredRegisters.map w.gpr.slot ++ [w.words w.top]))
  beyond : ∀ x, w.Beyond x → c.words x = w.words x

namespace Amid

/-- The stack is away from the block and from the word below it. -/
theorem of_outside {c d : Cpu} (hw : w.Apart) (h : w.Amid c)
    (top : d.gpr.slot .rsp = c.gpr.slot .rsp)
    (outside : ∀ x, (∀ i : Gpr, w.block + i.offset ≠ x) → w.top - 64 ≠ x → d.words x = c.words x) :
    w.Amid d where
  top := top.trans h.top
  stack := h.stack.of_agree fun n hn => by
    have hn : n < 8 := by simpa [restoredRegisters] using hn
    have he : w.top - 56 + 8 * n.toUInt64 = w.top - 64 + 8 * (n + 1).toUInt64 := by
      rw [Words.address_succ]
      grind
    rw [he]
    refine outside _ (fun i => hw.ne i (by omega)) ?_
    rw [Words.address_succ]
    have hb := Words.below_ne (w.top - 64 + 8) (n := n) (by omega)
    rw [UInt64.add_sub_cancel] at hb
    exact hb.symm
  beyond x hx := (outside x hx.1 (by simpa using hx.2 0 (by omega))).trans (h.beyond x hx)

theorem block {c : Cpu} (h : w.Amid c) : c.words (w.top - 56) = w.block := h.stack.1

theorem saved {c : Cpu} (h : w.Amid c) :
    c.words.Stacked (w.top - 48) (restoredRegisters.map w.gpr.slot) := by
  have upper := h.stack.2
  rw [show w.top - 56 + 8 = w.top - 48 by grind] at upper
  exact upper.append.1

theorem link {c : Cpu} (h : w.Amid c) : c.words w.top = w.words w.top := by
  have upper := h.stack.2.append.2.1
  rwa [show w.top - 56 + 8 + 8 * (restoredRegisters.map w.gpr.slot).length.toUInt64 = w.top by
    simp [restoredRegisters]; grind] at upper

theorem steps_restoring {c : Cpu} (h : w.Amid c) :
    ∃ flags, c.steps restoring =
      { c with gpr := (c.gpr.put .rsp w.top).taking restoredRegisters w.gpr.slot, flags } := by
  have dropped : w.top - 56 + 8 = w.top - 48 := by grind
  have up : w.top - 48 + 8 * restoredRegisters.length.toUInt64 = w.top := by
    simp [restoredRegisters]
  refine ⟨⟨w.top - 48 < 8, w.top - 48 == 0⟩, ?_⟩
  have added : c.step (.add .rsp 8) =
      { c with
        gpr := c.gpr.put .rsp (w.top - 48)
        flags := ⟨w.top - 48 < 8, w.top - 48 == 0⟩ } := by
    simp only [Cpu.step, h.top, dropped]
  rw [restoring, Cpu.steps_cons, added, Cpu.steps_pop (g := w.gpr.slot)]
  · simp [up]
  · decide
  · simpa using h.saved

end Amid

/-- A call that is over, with a number in RAX. -/
structure Over (w : Caller) (c : Cpu) (rax : UInt64) (r : Departure × Cpu) : Prop where
  target : r.1 = .returned (w.words w.top)
  rax : r.2.gpr.slot .rax = rax
  rsp : r.2.gpr.slot .rsp = w.top + 8
  restored : ∀ i ∈ restoredRegisters, r.2.gpr.slot i = w.gpr.slot i
  words : r.2.words = c.words
  software : r.2.software = c.software

namespace Amid

theorem ret {c d : Cpu} {v : UInt64} (h : w.Amid c) (rax : d.gpr.slot .rax = v)
    (top : d.gpr.slot .rsp = w.top)
    (restored : ∀ i ∈ restoredRegisters, d.gpr.slot i = w.gpr.slot i) (words : d.words = c.words)
    (software : d.software = c.software) : w.Over c v (d.run none [.ret]) where
  target := by simp [Cpu.run, top, words, h.link]
  rax := (Registers.slot_put_other _ _ (by decide)).trans rax
  rsp := by simp [Cpu.run, top]
  restored i hi := (Registers.slot_put_other _ _ (restored_ne hi).1).trans (restored i hi)
  words := words
  software := software

/-- A guest has exited. -/
theorem leaving {c : Cpu} (h : w.Amid c) :
    w.Over c 0 (c.run none (restoring.map .plain ++ [.plain (.zero .rax), .ret])) := by
  obtain ⟨flags, hr⟩ := h.steps_restoring
  rw [Cpu.run_plain, Cpu.run_step, hr]
  simp only [Cpu.step]
  refine h.ret ?_ ?_ (fun i hi => ?_) rfl rfl
  · simp
  · simp (disch := decide) [Registers.slot_put_other]
  · simp [Registers.slot_put_other _ _ (restored_ne hi).2, hi]

/-- An instruction has failed. -/
theorem failing {c : Cpu} (h : w.Amid c) :
    w.Over c (if c.flags.cf then 1 else 2) (c.run none Cpu.failing) := by
  have hn : Gpr.rsp ≠ Gpr.rax := by decide
  have told : w.Amid { c with gpr := c.gpr.put .rax (if c.flags.cf then 1 else 2) } :=
    { h with top := (Registers.slot_put_other _ _ hn).trans h.top }
  obtain ⟨flags, hr⟩ := told.steps_restoring
  rw [Cpu.failing, Cpu.run_telling, Cpu.run_plain, hr]
  refine h.ret ?_ ?_ (fun i hi => ?_) rfl rfl
  · have hs : Gpr.rax ∉ restoredRegisters := by decide
    simp [Registers.slot_put_other _ _ hn.symm, hs]
  · have hs : Gpr.rsp ∉ restoredRegisters := by decide
    simp [hs]
  · simp [hi]

end Amid

/-- Memory when the registers of the caller are saved. -/
def frame (w : Caller) (regs : Registers) : Words :=
  (w.words.place w.block regs).pushed w.top
    ((restoredRegisters.map w.gpr.slot).reverse ++ [w.block])

theorem stacked_frame (hw : w.Apart) (regs : Registers) :
    (w.frame regs).Stacked (w.top - 56)
      (w.block :: (restoredRegisters.map w.gpr.slot ++ [w.words w.top])) := by
  have link : (w.words.place w.block regs).Stacked w.top [w.words w.top] :=
    ⟨Words.place_other _ _ hw.ne_top, trivial⟩
  have stack := link.pushed ((restoredRegisters.map w.gpr.slot).reverse ++ [w.block])
    (by simp [restoredRegisters])
  simpa [frame, restoredRegisters] using stack

theorem frame_other {x : UInt64} (regs : Registers)
    (hx : ∀ n < 7, w.top - 64 + 8 * (n + 1).toUInt64 ≠ x) :
    w.frame regs x = w.words.place w.block regs x := by
  refine Words.pushed_other _ fun n hn => ?_
  have next := hx n (by simpa [restoredRegisters] using hn)
  rw [Words.address_succ] at next
  simp [restoredRegisters]
  grind

theorem frame_beyond {x : UInt64} (regs : Registers) (hx : w.Beyond x) :
    w.frame regs x = w.words x :=
  (frame_other regs fun n hn => hx.2 (n + 1) (by omega)).trans (Words.place_other _ _ hx.1)

theorem frame_offset (hw : w.Apart) (regs : Registers) (i : Gpr) :
    w.frame regs (w.block + i.offset) = regs.slot i :=
  (frame_other regs fun n hn => (hw.ne i (n := n + 1) (by omega)).symm).trans
    (Words.place_offset ..)

theorem view_frame (hw : w.Apart) (regs : Registers) : (w.frame regs).view w.block = regs :=
  Registers.ext_slot fun i => (Words.slot_view _ _ i).trans (frame_offset hw regs i)

theorem steps_saving (w : Caller) (k : Entry) (regs : Registers) (s : Software) :
    (w.start k regs s).steps saving =
      { gpr := ((w.start k regs s).gpr.put .rsp (w.top - 56)).put .rax
          Field.hostStackPointer.toUInt64
        flags := (s.store Field.hostStackPointer (w.top - 56)).1
        words := w.frame regs
        software := (s.store Field.hostStackPointer (w.top - 56)).2 } := by
  have top : (w.start k regs s).gpr.slot .rsp = w.top := by
    simp (disch := decide) [start, Registers.slot_put_other, Caller.top]
  have values : savedRegisters.map (w.start k regs s).gpr.slot =
      (restoredRegisters.map w.gpr.slot).reverse ++ [w.block] := by
    simp (disch := decide) [start, savedRegisters, restoredRegisters, Registers.slot_put_other]
  have down : w.top - 8 * savedRegisters.length.toUInt64 = w.top - 56 := by simp [savedRegisters]
  have field : Field.hostStackPointer.toUInt64.toUInt32 = Field.hostStackPointer := by decide
  rw [saving, Cpu.steps_append, Cpu.steps_push _ (by decide), values, top, down]
  simp (disch := decide) only [Cpu.steps_cons, Cpu.steps_nil, Cpu.step, Registers.slot_put_same,
    Registers.slot_put_other, field]
  rfl

/-- The registers are saved, and the block is in RDI. -/
structure Saved (w : Caller) (k : Entry) (regs : Registers) (c : Cpu) : Prop extends w.Amid c where
  held : c.words.view w.block = regs
  pointer : c.gpr.slot .rdi = w.block
  selector : c.gpr.slot .rsi = selector k

theorem saved_saving (hw : w.Apart) :
    w.Saved k regs ((w.start k regs s).steps saving) := by
  rw [steps_saving]
  refine { top := ?_, stack := stacked_frame hw regs, beyond := fun x hx => frame_beyond regs hx,
           held := view_frame hw regs, pointer := ?_, selector := ?_ }
  · simp (disch := decide) [Registers.slot_put_other]
  · simp (disch := decide) [start, Registers.slot_put_other]
  · simp (disch := decide) [start, Registers.slot_put_other]

/-- The registers that a guest is entered with. The stack pointer does not reach it. -/
def loaded (w : Caller) (regs : Registers) : Registers := regs.put .rsp (w.top - 56)

theorem get_loaded (w : Caller) (regs : Registers) (i : UInt8) :
    (w.loaded regs).get i = regs.get i :=
  Registers.get_congr (fun _ hi => Registers.slot_put_other _ _ hi) i

/-- All registers but the stack pointer are kept in the block. -/
theorem mem_blockRegisters : ∀ i : Gpr, i ≠ .rsp → i ≠ .rdi → i ∈ blockRegisters := by decide

theorem Saved.word {c : Cpu} (h : w.Saved k regs c) (i : Gpr) :
    c.words (w.block + i.offset) = regs.slot i := by
  rw [← h.held, Words.slot_view]

theorem Saved.steps_loading {c : Cpu} (h : w.Saved k regs c) :
    c.steps loading = { c with gpr := w.loaded regs, flags := ⟨false, k == .launch⟩ } := by
  have selected : (c.gpr.slot .rsi == 0) = (k == .launch) := by
    rw [h.selector]
    cases k <;> rfl
  have base : Gpr.rdi ∉ blockRegisters := by decide
  have moved : (c.gpr.taking blockRegisters fun i => c.words (w.block + i.offset)).put .rdi
      (c.words (w.block + Gpr.rdi.offset)) = w.loaded regs := by
    refine Registers.ext_slot fun i => ?_
    by_cases hd : i = .rdi
    · subst hd
      simp (disch := decide) [loaded, h.word, Registers.slot_put_other]
    by_cases hs : i = .rsp
    · subst hs
      simp (disch := decide) [loaded, h.top, Registers.slot_put_other]
    · simp [loaded, h.word, Registers.slot_put_other, hd, hs, mem_blockRegisters i hs hd]
  rw [loading, List.map_append, Cpu.steps_cons, Cpu.steps_append, Cpu.steps_load _ base]
  simp only [List.map_cons, List.map_nil, Cpu.steps_cons, Cpu.steps_nil, Cpu.step, selected,
    h.pointer, Registers.slot_taking_other _ _ base, moved]

/-- Memory when the registers of the guest are stored. -/
def stored (w : Caller) (c : Cpu) : Words :=
  ((c.words.put (w.top - 64) (c.gpr.slot .rdi)).keep w.block blockRegisters c.gpr).put
    (w.block + Gpr.rdi.offset) (c.gpr.slot .rdi)

theorem stored_offset (c : Cpu) {i : Gpr} (hi : i ≠ .rsp) :
    w.stored c (w.block + i.offset) = c.gpr.slot i := by
  by_cases hd : i = .rdi
  · rw [hd, stored, Words.put_same]
  · have other : w.block + i.offset ≠ w.block + Gpr.rdi.offset :=
      fun he => hd (offset_injective _ he)
    rw [stored, Words.put_other _ _ other, Words.keep_offset _ _ _ (mem_blockRegisters i hi hd)]

theorem stored_other (c : Cpu) {x : UInt64} (hx : ∀ i : Gpr, i ≠ .rsp → w.block + i.offset ≠ x)
    (ht : w.top - 64 ≠ x) : w.stored c x = c.words x := by
  have block : ∀ i ∈ blockRegisters, w.block + i.offset ≠ x :=
    fun i hi => hx i (blockRegisters_ne hi).1
  rw [stored, Words.put_other _ _ (hx .rdi (by decide)).symm, Words.keep_other _ _ block,
    Words.put_other _ _ ht.symm]

theorem Amid.steps_storing {c : Cpu} (hw : w.Apart) (h : w.Amid c) :
    ∃ gpr, c.steps storing = { c with gpr, words := w.stored c } ∧ gpr.slot .rsp = w.top - 56 := by
  have low : w.top - 56 - 8 = w.top - 64 := by grind
  have high : w.top - 64 + 8 = w.top - 56 := by grind
  have above : w.top - 56 ≠ w.top - 64 := by grind
  have opened : c.steps [.push .rdi, .load .rdi .rsp 8] =
      { c with
        gpr := (c.gpr.put .rsp (w.top - 64)).put .rdi w.block
        words := c.words.put (w.top - 64) (c.gpr.slot .rdi) } := by
    simp only [Cpu.steps_cons, Cpu.steps_nil, Cpu.step, h.top, low, Registers.slot_put_same, high,
      Words.put_other _ _ above, h.block]
  -- What is stored is what the guest left, for neither of the two has changed a register of these.
  have same : ∀ i ∈ blockRegisters,
      ((c.gpr.put .rsp (w.top - 64)).put .rdi w.block).slot i = c.gpr.slot i := fun i hi => by
    obtain ⟨hs, hd⟩ := blockRegisters_ne hi
    rw [Registers.slot_put_other _ _ hd, Registers.slot_put_other _ _ hs]
  have apart : ∀ i ∈ blockRegisters, w.block + i.offset ≠ w.top - 64 := fun i _ => hw.ne_lowest i
  rw [storing, Cpu.steps_append, Cpu.steps_append, opened, Cpu.steps_store]
  refine ⟨(((c.gpr.put .rsp (w.top - 64)).put .rdi w.block).put .rsp (w.top - 56)).put .rax
    (c.gpr.slot .rdi), ?_, ?_⟩
  · simp (disch := decide) only [Cpu.steps_cons, Cpu.steps_nil, Cpu.step, Registers.slot_put_same,
      Registers.slot_put_other, Words.keep_congr _ _ same, Words.keep_other _ _ apart,
      Words.put_same, high]
    rfl
  · simp (disch := decide) [Registers.slot_put_other]

/-- The code to which a guest exits stores its registers and returns zero. -/
theorem Amid.run_exitCode {c : Cpu} (hw : w.Apart) (h : w.Amid c) :
    ∃ d, w.Amid d ∧ d.words = w.stored c ∧ d.software = c.software ∧
      w.Over d 0 (c.run none exitCode) := by
  obtain ⟨gpr, hs, top⟩ := h.steps_storing hw
  have amid : w.Amid { c with gpr, words := w.stored c } :=
    h.of_outside hw (top.trans h.top.symm) fun x hx ht => stored_other c (fun i _ => hx i) ht
  rw [Cpu.exitCode_eq, Cpu.run_plain, hs]
  exact ⟨_, amid, rfl, rfl, amid.leaving⟩

/-- What a caller can rely on after a call. -/
structure Follows (w : Caller) (r : Departure × Cpu) : Prop where
  target : r.1 = .returned (w.words w.top)
  rsp : r.2.gpr.slot .rsp = w.top + 8
  restored : ∀ i ∈ restoredRegisters, r.2.gpr.slot i = w.gpr.slot i
  beyond : ∀ x, w.Beyond x → r.2.words x = w.words x

theorem Over.follows {c : Cpu} {v : UInt64} {r : Departure × Cpu} (o : w.Over c v r)
    (h : w.Amid c) : w.Follows r :=
  ⟨o.target, o.rsp, o.restored, fun x hx => o.words ▸ h.beyond x hx⟩

end Caller

theorem Cpu.enterGuest_returned {c : Cpu} (h : (c.run none enterCode).1 ≠ .exited) :
    c.enterGuest = c.run none enterCode := by
  unfold enterGuest
  split
  · next hr => simp [hr] at h
  · rfl

theorem Cpu.enterGuest_exited {c d : Cpu} (h : c.run none enterCode = (.exited, d)) :
    c.enterGuest = d.run none exitCode := by
  simp [enterGuest, h]

/-- How an entry can end, and what it has done by then. -/
inductive Ending (k : Entry) (regs loaded : Registers) (top : UInt64) (s : Software) :
    Except VmFail Unit × Registers × Software → Prop
  /-- The end of the stack could not be remembered. -/
  | unsaved {e : VmFail}
      (failed : (s.answer (.vmwrite Field.hostStackPointer top)).outcome = .error e) :
      Ending k regs loaded top s (.error e, regs, s.performed (.vmwrite Field.hostStackPointer top))
  /-- The guest was not let in. -/
  | refused {e : VmFail}
      (saved : (s.answer (.vmwrite Field.hostStackPointer top)).outcome = .ok ())
      (failed :
        ((s.wrote Field.hostStackPointer top).answer (.enter k loaded)).outcome = .error e) :
      Ending k regs loaded top s
        (.error e, regs, (s.wrote Field.hostStackPointer top).performed (.enter k loaded))
  /-- The guest ran and exited. -/
  | exited {left : Registers}
      (saved : (s.answer (.vmwrite Field.hostStackPointer top)).outcome = .ok ())
      (entered : ((s.wrote Field.hostStackPointer top).answer (.enter k loaded)).outcome = .ok ())
      (guest : ∀ i, left.get i = (loaded.load (s.guests.head?.getD [])).get i)
      (unused : left.slot .rsp = regs.slot .rsp) :
      Ending k regs loaded top s
        (.ok (), left,
          { (s.wrote Field.hostStackPointer top).performed (.enter k loaded) with
            guests := s.guests.tail })

namespace Caller

variable {w : Caller} {k : Entry} {regs : Registers} {s : Software}

theorem outcome_told {f : Flags} (h : f ≠ .clear) :
    ∃ e, f.outcome = .error e ∧ outcome (if f.cf then 1 else 2) = .error e := by
  obtain ⟨cf, zf⟩ := f
  cases cf with
  | true => exact ⟨.invalid, rfl, rfl⟩
  | false =>
    cases zf with
    | true => exact ⟨.valid, rfl, rfl⟩
    | false => exact absurd rfl h

theorem Over.enter {c : Cpu} {v : UInt64} (o : w.Over c v (w.call k regs s)) :
    w.enter k regs s = (outcome v, c.words.view w.block, c.software) := by
  simp [Caller.enter, o.rax, o.words, o.software]

theorem Over.of_run {c : Cpu} {v : UInt64}
    (o : w.Over c v ((w.start k regs s).run none enterCode)) : w.Over c v (w.call k regs s) := by
  have returned : ((w.start k regs s).run none enterCode).1 ≠ .exited := by simp [o.target]
  rw [call, Cpu.enterGuest_returned returned]
  exact o

theorem call_unsaved (hw : w.Apart) (k : Entry) (regs : Registers)
    (hf : s.answer (.vmwrite Field.hostStackPointer (w.top - 56)) ≠ .clear) :
    w.Follows (w.call k regs s) ∧
      Ending k regs (w.loaded regs) (w.top - 56) s (w.enter k regs s) := by
  have saved : w.Saved k regs ((w.start k regs s).steps saving) := saved_saving hw
  have flags : ((w.start k regs s).steps saving).flags =
      s.answer (.vmwrite Field.hostStackPointer (w.top - 56)) := by
    rw [steps_saving, Software.store_eq]
  have software : ((w.start k regs s).steps saving).software =
      s.performed (.vmwrite Field.hostStackPointer (w.top - 56)) := by
    rw [steps_saving, Software.store_eq]
    simp [hf]
  have o := saved.failing
  rw [← Cpu.run_unsaved (flags ▸ hf), flags] at o
  obtain ⟨e, failed, told⟩ := outcome_told hf
  refine ⟨o.of_run.follows saved.toAmid, ?_⟩
  rw [o.of_run.enter, told, saved.held, software]
  exact .unsaved failed

/-- The processor when an entry instruction is reached. -/
def entry (w : Caller) (k : Entry) (regs : Registers) (s : Software) : Cpu where
  gpr := w.loaded regs
  flags := ⟨false, k == .launch⟩
  words := w.frame regs
  software := s.wrote Field.hostStackPointer (w.top - 56)

theorem amid_entry (hw : w.Apart) (k : Entry) (regs : Registers) (s : Software) :
    w.Amid (w.entry k regs s) where
  top := Registers.slot_put_same ..
  stack := stacked_frame hw regs
  beyond _ hx := frame_beyond regs hx

theorem run_enterCode (hw : w.Apart) (k : Entry) (regs : Registers)
    (hs : s.answer (.vmwrite Field.hostStackPointer (w.top - 56)) = .clear) :
    (w.start k regs s).run none enterCode =
      (w.entry k regs s).run none (Cpu.entering ++ Cpu.failing) := by
  have saved : w.Saved k regs ((w.start k regs s).steps saving) := saved_saving hw
  have flags : ((w.start k regs s).steps saving).flags = .clear := by
    rw [steps_saving, Software.store_eq, hs]
  rw [Cpu.run_saved flags, saved.steps_loading, steps_saving, Software.store_eq, if_pos hs]
  rfl

theorem call_refused (hw : w.Apart) (k : Entry) (regs : Registers)
    (hs : s.answer (.vmwrite Field.hostStackPointer (w.top - 56)) = .clear)
    (hf : (s.wrote Field.hostStackPointer (w.top - 56)).answer
      (.enter k (w.loaded regs)) ≠ .clear) :
    w.Follows (w.call k regs s) ∧
      Ending k regs (w.loaded regs) (w.top - 56) s (w.enter k regs s) := by
  have run : (w.start k regs s).run none enterCode =
      ((w.entry k regs s).refused k).run none Cpu.failing :=
    (run_enterCode hw k regs hs).trans (Cpu.run_refused rfl hf)
  have reached := amid_entry hw k regs s
  have amid : w.Amid ((w.entry k regs s).refused k) :=
    ⟨reached.top, reached.stack, reached.beyond⟩
  have o := amid.failing
  rw [← run] at o
  have held : ((w.entry k regs s).refused k).words.view w.block = regs := view_frame hw regs
  obtain ⟨e, failed, told⟩ := outcome_told hf
  refine ⟨o.of_run.follows amid, ?_⟩
  rw [o.of_run.enter, held]
  have result : outcome (if ((w.entry k regs s).refused k).flags.cf then 1 else 2) = .error e :=
    told
  rw [result]
  exact .refused (Flags.outcome_eq_ok.2 hs) failed

theorem call_exited (hw : w.Apart) (k : Entry) (regs : Registers)
    (hs : s.answer (.vmwrite Field.hostStackPointer (w.top - 56)) = .clear)
    (he : (s.wrote Field.hostStackPointer (w.top - 56)).answer
      (.enter k (w.loaded regs)) = .clear) :
    w.Follows (w.call k regs s) ∧
      Ending k regs (w.loaded regs) (w.top - 56) s (w.enter k regs s) := by
  have run : (w.start k regs s).run none enterCode =
      (.exited, (w.entry k regs s).admitted k) :=
    (run_enterCode hw k regs hs).trans (Cpu.run_admitted rfl he)
  have remembered : ((w.loaded regs).load (s.guests.head?.getD [])).put .rsp
      ((w.entry k regs s).software.fields.get Field.hostStackPointer) =
        ((w.entry k regs s).admitted k).gpr := rfl
  have top : (w.entry k regs s).software.fields.get Field.hostStackPointer = w.top - 56 :=
    Store.get_put_same ..
  rw [top] at remembered
  have reached := amid_entry hw k regs s
  have amid : w.Amid ((w.entry k regs s).admitted k) :=
    ⟨by rw [← remembered, Registers.slot_put_same], reached.stack, reached.beyond⟩
  obtain ⟨d, amid', words, software, o⟩ := amid.run_exitCode hw
  have o : w.Over d 0 (w.call k regs s) := by
    rw [call, Cpu.enterGuest_exited run]
    exact o
  refine ⟨o.follows amid', ?_⟩
  rw [o.enter, words, software]
  refine .exited (Flags.outcome_eq_ok.2 hs) (Flags.outcome_eq_ok.2 he) ?_ ?_
  · refine Registers.get_congr fun i hi => ?_
    rw [Words.slot_view, stored_offset _ hi, ← remembered, Registers.slot_put_other _ _ hi]
  · have other : ∀ i : Gpr, i ≠ .rsp → w.block + i.offset ≠ w.block + Gpr.rsp.offset :=
      fun i hi he => hi (offset_injective _ he)
    rw [Words.slot_view, stored_other _ other (hw.ne_lowest .rsp).symm]
    exact frame_offset hw regs .rsp

theorem call_ends (hw : w.Apart) (k : Entry) (regs : Registers) (s : Software) :
    w.Follows (w.call k regs s) ∧
      Ending k regs (w.loaded regs) (w.top - 56) s (w.enter k regs s) := by
  by_cases hs : s.answer (.vmwrite Field.hostStackPointer (w.top - 56)) = .clear
  · by_cases he : (s.wrote Field.hostStackPointer (w.top - 56)).answer
        (.enter k (w.loaded regs)) = .clear
    · exact call_exited hw k regs hs he
    · exact call_refused hw k regs hs he
  · exact call_unsaved hw k regs hs

theorem process_apart : process.Apart := by decide

end Caller

/-- An entry from the process first remembers where the stack ends, then executes one entry
instruction with the registers of the guest loaded, and returns. Only a guest that was let in is
taken from the script, and only then the registers change. -/
theorem enter_ends (k : Entry) (regs : Registers) (s : Software) :
    Caller.process.Follows (Caller.process.call k regs s) ∧
      ∃ top loaded, (∀ i, loaded.get i = regs.get i) ∧
        Ending k regs loaded top s (enter k regs s) := by
  obtain ⟨follows, ending⟩ := Caller.call_ends Caller.process_apart k regs s
  exact ⟨follows, _, _, Caller.get_loaded Caller.process regs, ending⟩

end Native

end VmxControl
