import Mathlib.Data.Nat.Bitwise
import VmxControl.Native.TaskSegment

/-!
# Descriptors of task segments

The two words of a task-segment descriptor are written here field by field, as the manual lays them
out, and the base that is read from the table is the one they were written with. What else stands in
the table does not matter, only that both words are inside it.
-/

namespace VmxControl.Native

theorem getLsbD_append_add {m n : Nat} (x : BitVec m) (y : BitVec n) (i : Nat) :
    (x ++ y).getLsbD (n + i) = x.getLsbD i := by
  rw [BitVec.getLsbD_append, if_neg (by omega), Nat.add_sub_cancel_left]

structure TaskDescriptor where
  base : UInt64
  limit : BitVec 20
  /-- Type, system flag and privilege level. -/
  access : BitVec 7
  flags : BitVec 4
  /-- The half of the second word that has nothing of the base. -/
  upper : BitVec 32

namespace TaskDescriptor

/-- From bit 63 down. The single one is the present bit. -/
def low (d : TaskDescriptor) : UInt64 :=
  .ofBitVec (d.base.toBitVec.extractLsb' 24 8 ++ d.flags ++ d.limit.extractLsb' 16 4 ++ 1#1 ++
    d.access ++ d.base.toBitVec.extractLsb' 0 24 ++ d.limit.extractLsb' 0 16)

def high (d : TaskDescriptor) : UInt64 :=
  .ofBitVec (d.upper ++ d.base.toBitVec.extractLsb' 32 32)

variable (d : TaskDescriptor) {i : Nat}

theorem testBit_low_middle (hi : i < 24) :
    d.low.toNat.testBit (16 + i) = d.base.toNat.testBit i := by
  change d.low.toBitVec.getLsbD (16 + i) = d.base.toBitVec.getLsbD i
  rw [low, getLsbD_append_add, BitVec.getLsbD_append, if_pos hi, BitVec.getLsbD_extractLsb',
    decide_eq_true hi, Bool.true_and, Nat.zero_add]

theorem testBit_low_top (hi : i < 8) :
    d.low.toNat.testBit (56 + i) = d.base.toNat.testBit (24 + i) := by
  change d.low.toBitVec.getLsbD (56 + i) = d.base.toBitVec.getLsbD (24 + i)
  have h : 56 + i = 16 + (24 + (7 + (1 + (4 + (4 + i))))) := by omega
  rw [h, low]
  iterate 6 rw [getLsbD_append_add]
  rw [BitVec.getLsbD_extractLsb', decide_eq_true hi, Bool.true_and]

theorem testBit_low_present : d.low.toNat.testBit 47 = true := by
  change d.low.toBitVec.getLsbD (16 + (24 + (7 + 0))) = true
  rw [low]
  iterate 3 rw [getLsbD_append_add]
  rw [BitVec.getLsbD_append, if_pos (by decide)]
  decide

theorem testBit_high (hi : i < 32) :
    d.high.toNat.testBit i = d.base.toNat.testBit (32 + i) := by
  change d.high.toBitVec.getLsbD i = d.base.toBitVec.getLsbD (32 + i)
  rw [high, BitVec.getLsbD_append, if_pos hi, BitVec.getLsbD_extractLsb', decide_eq_true hi,
    Bool.true_and]

end TaskDescriptor

/-! ## Reading the base -/

theorem testBit_eq_false {w : UInt64} {i : Nat} (hi : 64 ≤ i) : w.toNat.testBit i = false :=
  Nat.testBit_lt_two_pow (w.toNat_lt.trans_le (Nat.pow_le_pow_right (by decide) hi))

theorem testBit_baseLow (w : UInt64) (i : Nat) : (baseLow w).toNat.testBit i =
    (decide (i < 24) && w.toNat.testBit (16 + i) ||
      decide (24 ≤ i) && w.toNat.testBit (32 + i)) := by
  have hm : (0xffffff : UInt64).toNat = 2 ^ 24 - 1 := by decide
  have hmiddle : (w >>> 16 &&& 0xffffff).toNat.testBit i =
      (decide (i < 24) && w.toNat.testBit (16 + i)) := by
    rw [UInt64.toNat_and, hm, Nat.testBit_and, Nat.testBit_two_pow_sub_one, Bool.and_comm,
      UInt64.toNat_shiftRight, Nat.testBit_shiftRight]
    rfl
  have htop : (w >>> 56 <<< 24).toNat.testBit i =
      (decide (24 ≤ i) && w.toNat.testBit (32 + i)) := by
    simp only [UInt64.toNat_shiftLeft, UInt64.toNat_shiftRight, UInt64.reduceToNat, Nat.reduceMod,
      Nat.testBit_mod_two_pow, Nat.testBit_shiftLeft, Nat.testBit_shiftRight]
    by_cases h24 : 24 ≤ i
    · have hi : 56 + (i - 24) = 32 + i := by omega
      rw [hi]
      by_cases h32 : i < 32
      · simp [show i < 64 by omega]
      · simp [testBit_eq_false (w := w) (i := 32 + i) (by omega)]
    · simp [h24]
  rw [baseLow, UInt64.toNat_or, Nat.testBit_or, hmiddle, htop]

theorem testBit_baseHigh (w : UInt64) (i : Nat) : (baseHigh w <<< 32).toNat.testBit i =
    (decide (32 ≤ i) && decide (i < 64) && w.toNat.testBit (i - 32)) := by
  have hm : (0xffffffff : UInt64).toNat = 2 ^ 32 - 1 := by decide
  simp only [baseHigh, UInt64.toNat_shiftLeft, UInt64.toNat_and, hm, UInt64.reduceToNat,
    Nat.reduceMod, Nat.testBit_mod_two_pow, Nat.testBit_shiftLeft, Nat.testBit_and,
    Nat.testBit_two_pow_sub_one]
  by_cases h64 : i < 64
  · have hi : i - 32 < 32 := by omega
    simp [h64, hi]
  · simp [h64]

/-- The three parts of the base come together again. -/
theorem base_joined (d : TaskDescriptor) :
    baseLow d.low ||| baseHigh d.high <<< 32 = d.base := by
  rw [← UInt64.toNat_inj]
  refine Nat.eq_of_testBit_eq fun i => ?_
  rw [UInt64.toNat_or, Nat.testBit_or, testBit_baseLow, testBit_baseHigh]
  by_cases h24 : i < 24
  · have hn : ¬ 24 ≤ i := by omega
    have hn' : ¬ 32 ≤ i := by omega
    simp [h24, hn, hn', d.testBit_low_middle]
  · by_cases h32 : i < 32
    · obtain ⟨j, rfl⟩ := Nat.exists_eq_add_of_le (Nat.not_lt.1 h24)
      have hj : j < 8 := by omega
      have hn : ¬ 32 ≤ 24 + j := by omega
      have h56 : 32 + (24 + j) = 56 + j := by omega
      rw [h56, d.testBit_low_top hj]
      simp [hn]
    · have hlow : d.low.toNat.testBit (32 + i) = false := testBit_eq_false (by omega)
      by_cases h64 : i < 64
      · have hi : 32 + (i - 32) = i := by omega
        rw [d.testBit_high (by omega), hi, hlow]
        simp [h24, h64, Nat.not_lt.1 h32]
      · rw [hlow, testBit_eq_false (w := d.base) (Nat.not_lt.1 h64)]
        simp [h24, h64]

theorem and_presentBit_eq_zero (w : UInt64) :
    w &&& presentBit = 0 ↔ w.toNat.testBit 47 = false := by
  have hp : presentBit.toNat = 2 ^ 47 := by decide
  rw [← UInt64.toNat_inj, UInt64.toNat_and, hp, UInt64.toNat_zero, Nat.and_two_pow]
  cases w.toNat.testBit 47 with
  | false => simp
  | true => simp

/-! ## The table -/

namespace DescriptorTable

/-- The entry is there and has its present bit set. -/
def Present (t : DescriptorTable) (i : Nat) : Prop :=
  ∃ w, t.words[i]? = some w ∧ w.toNat.testBit 47 = true

variable {t : DescriptorTable} {i : Nat}

theorem word_of_lt (h : i < t.length) : t.word i = .ok (t.words[i]?.getD 0) := if_pos h

theorem word_of_le (h : t.length ≤ i) : t.word i = .error (.outOfBounds t.length i) :=
  if_neg (Nat.not_lt.2 h)

theorem present_iff : t.Present i ↔ t.words[i]?.getD 0 &&& presentBit ≠ 0 := by
  rw [Ne, and_presentBit_eq_zero, Bool.not_eq_false, Present]
  cases t.words[i]? with
  | none => simp
  | some w => simp

end DescriptorTable

section

variable {selector : UInt16} {t : DescriptorTable}

theorem index_eq (selector : UInt16) : (selector >>> 3).toNat = selector.toNat / 8 := by
  rw [UInt16.toNat_shiftRight, Nat.shiftRight_eq_div_pow]
  rfl

/-- The second entry is read only if the first is there and present. -/
theorem taskBase_eq (selector : UInt16) (t : DescriptorTable) : taskBase selector t =
    (t.word (selector.toNat / 8)).bind fun low =>
      if low &&& presentBit = 0 then .ok (0 : UInt64)
      else (t.word (selector.toNat / 8 + 1)).map fun high =>
        baseLow low ||| baseHigh high <<< 32 := by
  simp only [taskBase, index_eq]
  cases t.word (selector.toNat / 8) with
  | error e => rfl
  | ok low => cases t.word (selector.toNat / 8 + 1) <;> rfl

theorem taskBase_of_outside (h : t.length ≤ selector.toNat / 8) :
    taskBase selector t = .error (.outOfBounds t.length (selector.toNat / 8)) := by
  rw [taskBase_eq, t.word_of_le h, Except.bind]

theorem taskBase_of_absent (h : selector.toNat / 8 < t.length)
    (hp : ¬ t.Present (selector.toNat / 8)) : taskBase selector t = .ok 0 := by
  rw [DescriptorTable.present_iff, not_not] at hp
  rw [taskBase_eq, t.word_of_lt h, Except.bind, if_pos hp]

theorem taskBase_of_cut (h : selector.toNat / 8 < t.length)
    (hp : t.Present (selector.toNat / 8)) (hn : t.length ≤ selector.toNat / 8 + 1) :
    taskBase selector t = .error (.outOfBounds t.length (selector.toNat / 8 + 1)) := by
  rw [DescriptorTable.present_iff] at hp
  rw [taskBase_eq, t.word_of_lt h, Except.bind, if_neg hp, t.word_of_le hn, Except.map]

theorem taskBase_of_inside (hn : selector.toNat / 8 + 1 < t.length)
    (hp : t.Present (selector.toNat / 8)) : taskBase selector t =
      .ok (baseLow (t.words[selector.toNat / 8]?.getD 0) |||
        baseHigh (t.words[selector.toNat / 8 + 1]?.getD 0) <<< 32) := by
  rw [DescriptorTable.present_iff] at hp
  rw [taskBase_eq, t.word_of_lt (Nat.lt_of_succ_lt hn), Except.bind, if_neg hp, t.word_of_lt hn,
    Except.map]

theorem taskBase_of_descriptor (d : TaskDescriptor) (hn : selector.toNat / 8 + 1 < t.length)
    (hlow : t.words[selector.toNat / 8]? = some d.low)
    (hhigh : t.words[selector.toNat / 8 + 1]? = some d.high) :
    taskBase selector t = .ok d.base := by
  rw [taskBase_of_inside hn ⟨d.low, hlow, d.testBit_low_present⟩, hlow, hhigh]
  exact congrArg Except.ok (base_joined d)

/-- Which results there are. Two reads of the table can fail, the second only if the entry is
present. -/
theorem taskBase_eq_error {trap : Trap} : taskBase selector t = .error trap ↔
    (t.length ≤ selector.toNat / 8 ∧ trap = .outOfBounds t.length (selector.toNat / 8)) ∨
    (selector.toNat / 8 < t.length ∧ t.Present (selector.toNat / 8) ∧
      t.length ≤ selector.toNat / 8 + 1 ∧
      trap = .outOfBounds t.length (selector.toNat / 8 + 1)) := by
  by_cases h : t.length ≤ selector.toNat / 8
  · simp [taskBase_of_outside h, h, Nat.not_lt.2 h, eq_comm]
  · have hi : selector.toNat / 8 < t.length := Nat.not_le.1 h
    by_cases hp : t.Present (selector.toNat / 8)
    · by_cases hn : t.length ≤ selector.toNat / 8 + 1
      · simp [taskBase_of_cut hi hp hn, h, hi, hp, hn, eq_comm]
      · simp [taskBase_of_inside (Nat.not_le.1 hn) hp, h, hn]
    · simp [taskBase_of_absent hi hp, h, hp]

end

/-- Reading the base traps exactly if the entry is past the limit, or is present and the one behind
it is past the limit, and then the trap names that entry. Of an absent segment the base is zero. Of
any descriptor both words of which are inside the table it is the base the descriptor was made
with. -/
theorem taskBase_recovers_base (selector : UInt16) (t : DescriptorTable) :
    ((∃ trap, taskBase selector t = .error trap) ↔
      t.length ≤ selector.toNat / 8 ∨
        (t.Present (selector.toNat / 8) ∧ t.length ≤ selector.toNat / 8 + 1)) ∧
    (∀ trap, taskBase selector t = .error trap → trap = .outOfBounds t.length
      (if t.length ≤ selector.toNat / 8 then selector.toNat / 8 else selector.toNat / 8 + 1)) ∧
    (selector.toNat / 8 < t.length → ¬ t.Present (selector.toNat / 8) →
      taskBase selector t = .ok 0) ∧
    ∀ d : TaskDescriptor, selector.toNat / 8 + 1 < t.length →
      t.words[selector.toNat / 8]? = some d.low →
      t.words[selector.toNat / 8 + 1]? = some d.high → taskBase selector t = .ok d.base := by
  refine ⟨?_, fun trap htrap => ?_, taskBase_of_absent, taskBase_of_descriptor⟩
  · constructor
    · rintro ⟨trap, htrap⟩
      obtain ⟨h, -⟩ | ⟨-, hp, hn, -⟩ := taskBase_eq_error.1 htrap
      · exact .inl h
      · exact .inr ⟨hp, hn⟩
    · intro h
      by_cases hi : t.length ≤ selector.toNat / 8
      · exact ⟨_, taskBase_of_outside hi⟩
      · obtain ⟨hp, hn⟩ := h.resolve_left hi
        exact ⟨_, taskBase_of_cut (Nat.not_le.1 hi) hp hn⟩
  · obtain ⟨h, rfl⟩ | ⟨h, -, -, rfl⟩ := taskBase_eq_error.1 htrap
    · rw [if_pos h]
    · rw [if_neg (Nat.not_le.2 h)]

/-- A segment in the third and fourth word of the table, and the same table cut short between
them. -/
theorem available_segment_read :
    taskBase 0x10 ⟨[0, 0x00af9b000000ffff, 0x1200893456780067, 0x5affff8000], 31⟩ =
      .ok 0xffff800012345678 ∧
    taskBase 0x10 ⟨[0, 0x00af9b000000ffff, 0x1200093456780067, 0xffff8000], 31⟩ = .ok 0 ∧
    ∃ trap, taskBase 0x10 ⟨[0, 0x00af9b000000ffff, 0x1200893456780067, 0xffff8000], 30⟩ =
      .error trap := by
  obtain ⟨-, -, -, hread⟩ := taskBase_recovers_base 0x10
    ⟨[0, 0x00af9b000000ffff, 0x1200893456780067, 0x5affff8000], 31⟩
  obtain ⟨-, -, habsent, -⟩ := taskBase_recovers_base 0x10
    ⟨[0, 0x00af9b000000ffff, 0x1200093456780067, 0xffff8000], 31⟩
  obtain ⟨htrap, -, -, -⟩ := taskBase_recovers_base 0x10
    ⟨[0, 0x00af9b000000ffff, 0x1200893456780067, 0xffff8000], 30⟩
  refine ⟨?_, habsent (by decide) ?_, htrap.2 (.inr ⟨⟨_, rfl, by decide⟩, by decide⟩)⟩
  · exact hread ⟨0xffff800012345678, 0x67, 0x09, 0, 0x5a⟩ (by decide) rfl rfl
  · rintro ⟨w, hw, hbit⟩
    cases hw
    exact absurd hbit (by decide)

end VmxControl.Native
