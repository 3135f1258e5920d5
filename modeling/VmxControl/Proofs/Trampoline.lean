import VmxControl.Native.Trampoline
import VmxControl.Proofs.Scripted

/-!
# Registers across an entry

The code that enters a guest moves registers in lists: it pushes a list, loads a list from the
block, stores a list into it and pops a list. What a list of moves does is an induction on the list.
-/

namespace VmxControl

namespace Registers

/-- The registers with those of the list taken from elsewhere. -/
def taking (r : Registers) (rs : List Gpr) (g : Gpr → UInt64) : Registers :=
  ⟨Vector.ofFn fun i : Gpr => if i ∈ rs then g i else r.slot i⟩

@[simp] theorem slot_taking_mem (r : Registers) {rs : List Gpr} (g : Gpr → UInt64) {i : Gpr}
    (h : i ∈ rs) : (r.taking rs g).slot i = g i := by
  simp [taking, slot, h]

@[simp] theorem slot_taking_other (r : Registers) {rs : List Gpr} (g : Gpr → UInt64) {i : Gpr}
    (h : i ∉ rs) : (r.taking rs g).slot i = r.slot i := by
  simp [taking, slot, h]

@[simp] theorem taking_nil (r : Registers) (g : Gpr → UInt64) : r.taking [] g = r :=
  ext_slot fun _ => slot_taking_other r g List.not_mem_nil

/-- A register that is none of the list may as well have been written before. -/
theorem taking_put (r : Registers) {rs : List Gpr} (g : Gpr → UInt64) {i : Gpr} {v : UInt64}
    (h : g i = v) : (r.put i v).taking rs g = r.taking (i :: rs) g := by
  refine ext_slot fun j => ?_
  by_cases hl : j ∈ rs
  · rw [slot_taking_mem _ g hl, slot_taking_mem r g (List.mem_cons_of_mem i hl)]
  rw [slot_taking_other _ g hl]
  by_cases hi : j = i
  · subst hi
    rw [slot_put_same, slot_taking_mem r g List.mem_cons_self, h]
  · have hn : j ∉ i :: rs := by simp [hi, hl]
    rw [slot_put_other r v hi, slot_taking_other r g hn]

end Registers

namespace Native

theorem offset_injective {i j : Gpr} (b : UInt64) (h : b + i.offset = b + j.offset) : i = j := by
  have same : i.offset = j.offset := (UInt64.add_right_inj b).1 h
  clear h
  revert i j
  decide

namespace Words

theorem place_offset (m : Words) (b : UInt64) (r : Registers) (i : Gpr) :
    m.place b r (b + i.offset) = r.slot i := by
  unfold place
  cases h : (List.finRange 16).find? fun j : Gpr => b + i.offset == b + j.offset with
  | some j =>
    have found := List.find?_some h
    simp only [beq_iff_eq] at found
    rw [offset_injective b found]
  | none => exact absurd (List.find?_eq_none.1 h i (List.mem_finRange i)) (by simp)

theorem place_other (m : Words) {b x : UInt64} (r : Registers) (h : ∀ i : Gpr, b + i.offset ≠ x) :
    m.place b r x = m x := by
  have none_found : (List.finRange 16).find? (fun i : Gpr => x == b + i.offset) = none := by
    simpa using fun i => (h i).symm
  simp [place, none_found]

@[simp] theorem slot_view (m : Words) (b : UInt64) (i : Gpr) :
    (m.view b).slot i = m (b + i.offset) := by
  simp [view, Registers.slot]

/-- The words from an address upwards. -/
def Stacked (m : Words) : UInt64 → List UInt64 → Prop
  | _, [] => True
  | a, v :: vs => m a = v ∧ m.Stacked (a + 8) vs

/-- Memory after the values were pushed one after the other, the first at the highest address. -/
def pushed (m : Words) (a : UInt64) : List UInt64 → Words
  | [] => m
  | v :: vs => (m.put (a - 8) v).pushed (a - 8) vs

theorem address_succ (a : UInt64) (n : Nat) :
    a + 8 * (n + 1).toUInt64 = a + 8 + 8 * n.toUInt64 := by
  simp only [Nat.toUInt64, UInt64.ofNat_add]
  grind

theorem address_pred (a : UInt64) (n : Nat) :
    a - 8 * (n + 1).toUInt64 = a - 8 - 8 * n.toUInt64 := by
  simp only [Nat.toUInt64, UInt64.ofNat_add]
  grind

theorem Stacked.of_agree {m m' : Words} {a : UInt64} {vs : List UInt64} (h : m.Stacked a vs)
    (agree : ∀ n < vs.length, m' (a + 8 * n.toUInt64) = m (a + 8 * n.toUInt64)) :
    m'.Stacked a vs := by
  induction vs generalizing a with
  | nil => exact trivial
  | cons v vs ih =>
    have first : m' a = m a := by simpa using agree 0 (by simp)
    refine ⟨first.trans h.1, ih h.2 fun n hn => ?_⟩
    have next := agree (n + 1) (by simpa using hn)
    rwa [address_succ] at next

/-- The word below a stack is none of the stack, unless the stack goes round. -/
theorem below_ne (a : UInt64) {n : Nat} (hn : n < 0x1000000000000000) :
    a + 8 * n.toUInt64 ≠ a - 8 := by
  intro h
  have round : 8 * (n.toUInt64 + 1) = 0 := by grind
  have round := congrArg UInt64.toNat round
  simp [UInt64.toNat_mul, UInt64.toNat_add] at round
  omega

theorem Stacked.push {m : Words} {a : UInt64} {vs : List UInt64} (h : m.Stacked a vs) (v : UInt64)
    (hn : vs.length < 0x1000000000000000) : (m.put (a - 8) v).Stacked (a - 8) (v :: vs) := by
  refine ⟨put_same m _ v, ?_⟩
  rw [UInt64.sub_add_cancel]
  exact h.of_agree fun n hl => put_other m v (below_ne a (by omega))

theorem Stacked.pushed {m : Words} {a : UInt64} {ws : List UInt64} (h : m.Stacked a ws)
    (vs : List UInt64) (hn : vs.length + ws.length < 0x1000000000000000) :
    (m.pushed a vs).Stacked (a - 8 * vs.length.toUInt64) (vs.reverse ++ ws) := by
  induction vs generalizing m a ws with
  | nil => simpa [Words.pushed] using h
  | cons v vs ih =>
    simp only [List.length_cons] at hn
    have rest := ih (h.push v (by omega)) (by simp only [List.length_cons]; omega)
    rw [List.length_cons, address_pred]
    simpa [Words.pushed] using rest

theorem pushed_other (m : Words) {a x : UInt64} {vs : List UInt64}
    (h : ∀ n < vs.length, a - 8 * vs.length.toUInt64 + 8 * n.toUInt64 ≠ x) :
    m.pushed a vs x = m x := by
  induction vs generalizing m a with
  | nil => rfl
  | cons v vs ih =>
    rw [List.length_cons, address_pred] at h
    have first : x ≠ a - 8 := by simpa using (h vs.length (by omega)).symm
    rw [pushed, ih _ fun n hn => h n (by omega), put_other m v first]

/-- Memory with some registers stored where a block keeps them. -/
def keep (m : Words) (b : UInt64) (rs : List Gpr) (r : Registers) : Words :=
  rs.foldl (fun m i => m.put (b + i.offset) (r.slot i)) m

theorem keep_other (m : Words) {b x : UInt64} {rs : List Gpr} (r : Registers)
    (h : ∀ i ∈ rs, b + i.offset ≠ x) : m.keep b rs r x = m x := by
  induction rs generalizing m with
  | nil => rfl
  | cons i rs ih =>
    have first : x ≠ b + i.offset := (h i List.mem_cons_self).symm
    exact (ih _ fun j hj => h j (List.mem_cons_of_mem i hj)).trans (put_other m _ first)

theorem keep_offset (m : Words) (b : UInt64) {rs : List Gpr} (r : Registers) {i : Gpr}
    (hi : i ∈ rs) : m.keep b rs r (b + i.offset) = r.slot i := by
  induction rs generalizing m with
  | nil => exact absurd hi List.not_mem_nil
  | cons j rs ih =>
    by_cases later : i ∈ rs
    · exact ih _ later
    · obtain rfl : i = j := (List.mem_cons.1 hi).resolve_right later
      have others : ∀ k ∈ rs, b + k.offset ≠ b + i.offset :=
        fun k hk he => later (offset_injective b he ▸ hk)
      exact (keep_other _ r others).trans (put_same m _ _)

theorem keep_congr (m : Words) (b : UInt64) {rs : List Gpr} {r r' : Registers}
    (h : ∀ i ∈ rs, r.slot i = r'.slot i) : m.keep b rs r = m.keep b rs r' := by
  induction rs generalizing m with
  | nil => rfl
  | cons i rs ih =>
    have first : r.slot i = r'.slot i := h i List.mem_cons_self
    simp only [keep, List.foldl_cons, first]
    exact ih _ fun j hj => h j (List.mem_cons_of_mem i hj)

theorem Stacked.append {m : Words} {a : UInt64} {vs ws : List UInt64}
    (h : m.Stacked a (vs ++ ws)) :
    m.Stacked a vs ∧ m.Stacked (a + 8 * vs.length.toUInt64) ws := by
  induction vs generalizing a with
  | nil => exact ⟨trivial, by simpa using h⟩
  | cons v vs ih =>
    obtain ⟨first, rest⟩ := h
    rw [List.length_cons, address_succ]
    exact ⟨⟨first, (ih rest).1⟩, (ih rest).2⟩

end Words

namespace Cpu

@[simp] theorem steps_nil (c : Cpu) : c.steps [] = c := rfl

@[simp] theorem steps_cons (c : Cpu) (i : Plain) (is : List Plain) :
    c.steps (i :: is) = (c.step i).steps is := rfl

@[simp] theorem steps_append (c : Cpu) (is js : List Plain) :
    c.steps (is ++ js) = (c.steps is).steps js := List.foldl_append

theorem steps_push (c : Cpu) {rs : List Gpr} (hr : Gpr.rsp ∉ rs) :
    c.steps (rs.map .push) =
      { c with
        gpr := c.gpr.put .rsp (c.gpr.slot .rsp - 8 * rs.length.toUInt64)
        words := c.words.pushed (c.gpr.slot .rsp) (rs.map c.gpr.slot) } := by
  induction rs generalizing c with
  | nil => simp [Words.pushed]
  | cons r rs ih =>
    simp only [List.mem_cons, not_or] at hr
    -- A push changes no register that is still to be pushed.
    have others : rs.map (c.step (.push r)).gpr.slot = rs.map c.gpr.slot :=
      List.map_congr_left fun i hi =>
        Registers.slot_put_other _ _ fun he => hr.2 (he ▸ hi)
    rw [List.map_cons, steps_cons, ih _ hr.2, others, List.length_cons, Words.address_pred]
    simp [step, Words.pushed]

/-- A list of registers is popped from a stack that holds what they are to be. -/
theorem steps_pop (c : Cpu) {rs : List Gpr} {g : Gpr → UInt64} (hr : Gpr.rsp ∉ rs)
    (hs : c.words.Stacked (c.gpr.slot .rsp) (rs.map g)) :
    c.steps (rs.map .pop) =
      { c with
        gpr := (c.gpr.put .rsp (c.gpr.slot .rsp + 8 * rs.length.toUInt64)).taking rs g } := by
  induction rs generalizing c with
  | nil => simp
  | cons r rs ih =>
    simp only [List.mem_cons, not_or] at hr
    have top : (c.step (.pop r)).gpr.slot .rsp = c.gpr.slot .rsp + 8 := by
      simp [step, Registers.slot_put, hr.1]
    have higher : c.gpr.slot .rsp + 8 + 8 * rs.length.toUInt64 =
        c.gpr.slot .rsp + 8 * (r :: rs).length.toUInt64 := (Words.address_succ _ _).symm
    have popped : c.words (c.gpr.slot .rsp) = g r := hs.1
    rw [List.map_cons, steps_cons, ih _ hr.2 (top ▸ hs.2), top, higher]
    simp only [step, popped]
    rw [Registers.put_comm _ (g r) _ (Ne.symm hr.1), Registers.put_put,
      Registers.taking_put _ _ rfl]

theorem steps_load (c : Cpu) {rs : List Gpr} {b : Gpr} (hb : b ∉ rs) :
    c.steps (rs.map fun r => .load r b r.offset) =
      { c with gpr := c.gpr.taking rs fun r => c.words (c.gpr.slot b + r.offset) } := by
  induction rs generalizing c with
  | nil => simp
  | cons r rs ih =>
    simp only [List.mem_cons, not_or] at hb
    -- The register that holds the address of the block is loaded by itself, last.
    have base : (c.step (.load r b r.offset)).gpr.slot b = c.gpr.slot b :=
      Registers.slot_put_other _ _ hb.1
    rw [List.map_cons, steps_cons, ih _ hb.2, base]
    exact congrArg (fun gpr => { c with gpr }) (Registers.taking_put _ _ rfl)

theorem steps_store (c : Cpu) (rs : List Gpr) (b : Gpr) :
    c.steps (rs.map fun r => .store b r.offset r) =
      { c with words := c.words.keep (c.gpr.slot b) rs c.gpr } := by
  induction rs generalizing c with
  | nil => rfl
  | cons r rs ih => rw [List.map_cons, steps_cons, ih]; rfl

theorem run_step (c : Cpu) (i : Plain) (rest : List Code) :
    c.run none (.plain i :: rest) = (c.step i).run none rest := rfl

theorem run_plain (c : Cpu) (is : List Plain) (rest : List Code) :
    c.run none (is.map .plain ++ rest) = (c.steps is).run none rest := by
  induction is generalizing c with
  | nil => rfl
  | cons i is ih => exact ih (c.step i)

theorem skip_plain (c : Cpu) (n : Nat) (is : List Plain) (rest : List Code) :
    c.run (some n) (is.map .plain ++ rest) = c.run (some n) rest := by
  induction is with
  | nil => rfl
  | cons i is ih => exact ih

theorem run_telling (c : Cpu) (rest : List Code) :
    c.run none (telling ++ rest) =
      { c with gpr := c.gpr.put .rax (if c.flags.cf then 1 else 2) }.run none rest := by
  cases h : c.flags.cf <;> simp [telling, run, step, Condition.holds, h]

/-- What a failed instruction comes to. -/
def failing : List Code := telling ++ (restoring.map .plain ++ [.ret])

/-- Both entry instructions, and which of them is executed. -/
def entering : List Code :=
  [.jump .notZero 2, .enter .launch, .jump .always 3, .label 2, .enter .resume, .label 3]

theorem enterCode_eq :
    enterCode = saving.map .plain ++ .jump .carryOrZero 3 ::
      (loading.map .plain ++ (entering ++ failing)) := rfl

theorem exitCode_eq :
    exitCode = storing.map .plain ++ (restoring.map .plain ++ [.plain (.zero .rax), .ret]) := rfl

theorem run_unsaved {c : Cpu} (h : (c.steps saving).flags ≠ .clear) :
    c.run none enterCode = (c.steps saving).run none failing := by
  have taken : (c.steps saving).flags.cf || (c.steps saving).flags.zf := by
    revert h
    obtain ⟨cf, zf⟩ := (c.steps saving).flags
    cases cf <;> cases zf <;> decide
  rw [enterCode_eq, run_plain]
  simp only [run, Condition.holds, taken, if_true, skip_plain]
  simp [entering, run]

theorem run_saved {c : Cpu} (h : (c.steps saving).flags = .clear) :
    c.run none enterCode = ((c.steps saving).steps loading).run none (entering ++ failing) := by
  rw [enterCode_eq, run_plain]
  simp only [run, Condition.holds, h, Flags.clear, Bool.or_false, Bool.false_eq_true, if_false,
    run_plain]

/-- Of the entry instructions only the one that the caller selected is executed. -/
theorem run_entering {c : Cpu} {k : Entry} (h : c.flags.zf = (k == .launch)) :
    c.run none (entering ++ failing) =
      let (flags, software) := c.software.perform (.enter k c.gpr)
      if flags = .clear then (.exited, { c with software }.runGuest)
      else { c with flags, software }.run none failing := by
  cases k with
  | launch => simp [entering, run, Condition.holds, h]
  | resume => simp [entering, run, Condition.holds, h]

/-- The processor after an entry instruction that failed. -/
def refused (c : Cpu) (k : Entry) : Cpu :=
  { c with
    flags := c.software.answer (.enter k c.gpr)
    software := c.software.performed (.enter k c.gpr) }

/-- The processor when the guest that was let in has exited. -/
def admitted (c : Cpu) (k : Entry) : Cpu :=
  { c with software := c.software.performed (.enter k c.gpr) }.runGuest

theorem run_refused {c : Cpu} {k : Entry} (h : c.flags.zf = (k == .launch))
    (hf : c.software.answer (.enter k c.gpr) ≠ .clear) :
    c.run none (entering ++ failing) = (c.refused k).run none failing := by
  rw [run_entering h, Software.perform_eq]
  exact if_neg hf

theorem run_admitted {c : Cpu} {k : Entry} (h : c.flags.zf = (k == .launch))
    (he : c.software.answer (.enter k c.gpr) = .clear) :
    c.run none (entering ++ failing) = (.exited, c.admitted k) := by
  rw [run_entering h, Software.perform_eq]
  exact if_pos he

end Cpu

end Native

end VmxControl
