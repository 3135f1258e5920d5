/-!
# Masks

Setting, clearing and keeping the bits of a mask, bit by bit.
-/

namespace VmxControl

theorem or_and_self (v bits : UInt64) : (v ||| bits) &&& bits = bits := by
  rw [← UInt64.toBitVec_inj]
  ext i
  simp only [UInt64.toBitVec_and, UInt64.toBitVec_or, BitVec.getElem_and, BitVec.getElem_or]
  grind

theorem or_and_not (v bits : UInt64) : (v ||| bits) &&& ~~~bits = v &&& ~~~bits := by
  rw [← UInt64.toBitVec_inj]
  ext i
  simp only [UInt64.toBitVec_and, UInt64.toBitVec_or, UInt64.toBitVec_not, BitVec.getElem_and,
    BitVec.getElem_or, BitVec.getElem_not]
  grind

theorem and_not_or (v bits : UInt64) : v &&& ~~~bits ||| bits = v ||| bits := by
  rw [← UInt64.toBitVec_inj]
  ext i
  simp only [UInt64.toBitVec_and, UInt64.toBitVec_or, UInt64.toBitVec_not, BitVec.getElem_and,
    BitVec.getElem_or, BitVec.getElem_not]
  grind

theorem and_not_of_and_eq_zero {v bits : UInt64} (h : v &&& bits = 0) : v &&& ~~~bits = v := by
  rw [← UInt64.toBitVec_inj] at h ⊢
  ext i hi
  have hb := congrArg (fun w : BitVec 64 => w[i]) h
  simp only [UInt64.toBitVec_and, UInt64.toBitVec_not, BitVec.getElem_and, BitVec.getElem_not,
    UInt64.toBitVec_zero, BitVec.getElem_zero] at hb ⊢
  grind

theorem and_eq_self_iff (v bits : UInt64) : v &&& bits = v ↔ v &&& ~~~bits = 0 := by
  constructor
  · intro h
    rw [← h, UInt64.and_assoc, UInt64.and_not_self, UInt64.and_zero]
  · intro h
    have kept := and_not_of_and_eq_zero h
    rwa [UInt64.not_not] at kept

end VmxControl
