import Mathlib.Data.Nat.Bitwise
import VmxControl.Capability

/-!
# Words taken apart

What the fields of the capability words are in numbers: a field of bits is a quotient modulo a power
of two, and a flag is one bit of the word. A control group allows a control exactly if the bit for
it is set in the high half of its word.
-/

namespace VmxControl

namespace BasicInfo

theorem toNat_revision (w : UInt64) : (ofWord w).revision.toNat = w.toNat % 2 ^ 31 := by
  have h : w.toNat &&& 0x7fffffff = w.toNat % 2 ^ 31 := Nat.and_two_pow_sub_one_eq_mod _ 31
  simp only [ofWord, UInt64.toNat_toUInt32, UInt64.toNat_and, UInt64.reduceToNat, h]
  omega

theorem toNat_regionSize (w : UInt64) :
    (ofWord w).regionSize.toNat = w.toNat / 2 ^ 32 % 2 ^ 13 := by
  have h : w.toNat / 2 ^ 32 &&& 0x1fff = w.toNat / 2 ^ 32 % 2 ^ 13 :=
    Nat.and_two_pow_sub_one_eq_mod _ 13
  simp only [ofWord, UInt64.toNat_toUInt16, UInt64.toNat_and, UInt64.toNat_shiftRight,
    UInt64.reduceToNat, Nat.reduceMod, Nat.shiftRight_eq_div_pow, h]
  omega

theorem toNat_memoryType (w : UInt64) :
    (ofWord w).memoryType.toNat = w.toNat / 2 ^ 50 % 2 ^ 4 := by
  have h : w.toNat / 2 ^ 50 &&& 0xf = w.toNat / 2 ^ 50 % 2 ^ 4 :=
    Nat.and_two_pow_sub_one_eq_mod _ 4
  simp only [ofWord, UInt64.toNat_toUInt8, UInt64.toNat_and, UInt64.toNat_shiftRight,
    UInt64.reduceToNat, Nat.reduceMod, Nat.shiftRight_eq_div_pow, h]
  omega

/-- A flag that is shifted down and masked is a bit of the word. -/
theorem flag_eq_testBit (w i : UInt64) (hi : i.toNat < 64) :
    (w >>> i &&& 1 == 1) = w.toNat.testBit i.toNat := by
  rw [Bool.eq_iff_iff, beq_iff_eq, ← UInt64.toNat_inj, Nat.testBit_eq_decide_div_mod_eq,
    decide_eq_true_eq, UInt64.toNat_and, UInt64.toNat_shiftRight, Nat.mod_eq_of_lt hi,
    Nat.shiftRight_eq_div_pow, UInt64.toNat_one, Nat.and_one_is_mod]

theorem addr32_eq (w : UInt64) : (ofWord w).addr32 = w.toNat.testBit 48 :=
  flag_eq_testBit w 48 (by decide)

theorem ioExitInfo_eq (w : UInt64) : (ofWord w).ioExitInfo = w.toNat.testBit 54 :=
  flag_eq_testBit w 54 (by decide)

theorem trueControls_eq (w : UInt64) : (ofWord w).trueControls = w.toNat.testBit 55 :=
  flag_eq_testBit w 55 (by decide)

structure Decodes (b : BasicInfo) (word : UInt64) : Prop where
  revision : b.revision.toNat = word.toNat % 2 ^ 31
  regionSize : b.regionSize.toNat = word.toNat / 2 ^ 32 % 2 ^ 13
  addr32 : b.addr32 = word.toNat.testBit 48
  memoryType : b.memoryType.toNat = word.toNat / 2 ^ 50 % 2 ^ 4
  ioExitInfo : b.ioExitInfo = word.toNat.testBit 54
  trueControls : b.trueControls = word.toNat.testBit 55

theorem decodes_ofWord (w : UInt64) : (ofWord w).Decodes w where
  revision := toNat_revision w
  regionSize := toNat_regionSize w
  addr32 := addr32_eq w
  memoryType := toNat_memoryType w
  ioExitInfo := ioExitInfo_eq w
  trueControls := trueControls_eq w

end BasicInfo

namespace Controls

theorem toNat_high (w : UInt64) : (w >>> 32).toUInt32.toNat = w.toNat / 2 ^ 32 := by
  have hw : w.toNat < 2 ^ 64 := w.toNat_lt
  simp only [UInt64.toNat_toUInt32, UInt64.toNat_shiftRight, UInt64.reduceToNat, Nat.reduceMod,
    Nat.shiftRight_eq_div_pow]
  omega

theorem toNat_mustBe1 (g : ControlGroup) (w : UInt64) :
    (ofWord g w).mustBe1.toNat = w.toNat % 2 ^ 32 :=
  UInt64.toNat_toUInt32 w

theorem toNat_mustBe0 (g : ControlGroup) (w : UInt64) :
    (ofWord g w).mustBe0.toNat = 2 ^ 32 - 1 - w.toNat / 2 ^ 32 := by
  rw [ofWord, UInt32.toNat_not, toNat_high]
  rfl

structure Decodes (c : Controls) (g : ControlGroup) (word : UInt64) : Prop where
  group : c.group = g
  mustBe1 : c.mustBe1.toNat = word.toNat % 2 ^ 32
  mustBe0 : c.mustBe0.toNat = 2 ^ 32 - 1 - word.toNat / 2 ^ 32

theorem decodes_ofWord (g : ControlGroup) (w : UInt64) : (ofWord g w).Decodes g w where
  group := rfl
  mustBe1 := toNat_mustBe1 g w
  mustBe0 := toNat_mustBe0 g w

/-- One control is asked for by the number whose only bit is that of the control. -/
theorem allows_eq_testBit (c : Controls) {bits : UInt32} {i : Nat} (hb : bits.toNat = 2 ^ i) :
    c.allows bits = !c.mustBe0.toNat.testBit i := by
  have h : (bits &&& c.mustBe0).toNat = 2 ^ i * (c.mustBe0.toNat.testBit i).toNat := by
    rw [UInt32.toNat_and, hb, Nat.two_pow_and]
  cases ht : c.mustBe0.toNat.testBit i with
  | false =>
    have h0 : bits &&& c.mustBe0 = 0 := UInt32.toNat_inj.1 (by rw [h, ht]; rfl)
    rw [allows, h0]
    rfl
  | true =>
    have h0 : bits &&& c.mustBe0 ≠ 0 := fun he => by
      rw [he, ht] at h
      exact (Nat.two_pow_pos i).ne (by simpa using h)
    rw [allows, beq_eq_false_iff_ne.2 h0]
    rfl

/-- A group that is there allows what the high half of its word has a bit for. -/
theorem allows_ofWord (g : ControlGroup) (w : UInt64) {bits : UInt32} {i : Nat}
    (hb : bits.toNat = 2 ^ i) : (ofWord g w).allows bits = w.toNat.testBit (32 + i) := by
  have hi : i < 32 := (Nat.pow_lt_pow_iff_right (by decide)).1 (hb ▸ bits.toNat_lt)
  have hw : w.toNat / 2 ^ 32 < 2 ^ 32 := by
    rw [← toNat_high]
    exact UInt32.toNat_lt _
  have hn : 2 ^ 32 - 1 - w.toNat / 2 ^ 32 = 2 ^ 32 - (w.toNat / 2 ^ 32 + 1) := by omega
  rw [allows_eq_testBit _ hb, toNat_mustBe0, hn, Nat.testBit_two_pow_sub_succ hw,
    Nat.testBit_div_two_pow, decide_eq_true hi, Bool.true_and, Bool.not_not, Nat.add_comm]

/-- A group that is not there allows nothing. -/
theorem allows_absent (g : ControlGroup) {bits : UInt32} {i : Nat} (hb : bits.toNat = 2 ^ i) :
    (absent g).allows bits = false := by
  have hi : i < 32 := (Nat.pow_lt_pow_iff_right (by decide)).1 (hb ▸ bits.toNat_lt)
  have hm : (absent g).mustBe0.toNat = 2 ^ 32 - 1 := rfl
  rw [allows_eq_testBit _ hb, hm, Nat.testBit_two_pow_sub_one, decide_eq_true hi]
  rfl

end Controls

namespace FixedBits

structure Decodes (f : FixedBits) (fixed0 fixed1 : UInt64) : Prop where
  mustBe1 : f.mustBe1 = fixed0
  mustBe0 : f.mustBe0.toNat = 2 ^ 64 - 1 - fixed1.toNat

theorem decodes_ofWords (fixed0 fixed1 : UInt64) :
    (ofWords fixed0 fixed1).Decodes fixed0 fixed1 where
  mustBe1 := rfl
  mustBe0 := UInt64.toNat_not fixed1

end FixedBits

namespace IsolationFlags

/-- The bits of the abilities in the table. -/
def positions : List Nat := [0, 6, 8, 14, 16, 17, 20, 21, 25, 26, 32, 40, 41, 42, 43]

theorem testBit_known (i : Nat) : known.toNat.testBit i = decide (i ∈ positions) := by
  by_cases hi : i < 64
  · revert i
    decide
  · have hp : ∀ j ∈ positions, j < 64 := by decide
    have hk : known.toNat < 2 ^ i :=
      known.toNat_lt.trans_le (Nat.pow_le_pow_right (by decide) (Nat.not_lt.1 hi))
    rw [Nat.testBit_lt_two_pow hk, decide_eq_false fun h => hi (hp i h)]

/-- The bits of the word that are known are kept, and no others. -/
theorem testBit_ofWord (w : UInt64) (i : Nat) :
    (ofWord w).bits.toNat.testBit i = (w.toNat.testBit i && decide (i ∈ positions)) := by
  rw [ofWord, UInt64.toNat_and, Nat.testBit_and, testBit_known]

end IsolationFlags

end VmxControl
