import Mathlib.Order.BooleanAlgebra.Set
import VmxControl.Proofs.Decoding

/-!
# Adjusting to what the processor fixes

A word is taken for the set of its bits. The word of a control group then requires some bits and
allows some, and to adjust a request means to add what is required, unless the request has bits that
are not allowed. The two words of a control register leave the values between two sets of bits, and
to force a value means to move it between them. Nothing keeps a processor from requiring what it
does not allow, so where the laws need this it is said.
-/

namespace VmxControl

def bitsOf (n : Nat) : Set Nat := {i | n.testBit i = true}

@[simp] theorem mem_bitsOf {n i : Nat} : i ∈ bitsOf n ↔ n.testBit i = true := Iff.rfl

instance (n i : Nat) : Decidable (i ∈ bitsOf n) := decidable_of_iff _ mem_bitsOf.symm

theorem bitsOf_injective : Function.Injective bitsOf := by
  intro a b h
  refine Nat.eq_of_testBit_eq fun i => ?_
  rw [Bool.eq_iff_iff, ← mem_bitsOf, ← mem_bitsOf, h]

theorem bitsOf_zero : bitsOf 0 = ∅ := by
  ext i
  simp

theorem bitsOf_or (a b : Nat) : bitsOf (a ||| b) = bitsOf a ∪ bitsOf b := by
  ext i
  simp [Nat.testBit_or]

theorem bitsOf_and (a b : Nat) : bitsOf (a &&& b) = bitsOf a ∩ bitsOf b := by
  ext i
  simp [Nat.testBit_and]

theorem mem_bitsOf_xor {a b i : Nat} : i ∈ bitsOf (a ^^^ b) ↔ ¬ (i ∈ bitsOf a ↔ i ∈ bitsOf b) := by
  rw [mem_bitsOf, mem_bitsOf, mem_bitsOf, Nat.testBit_xor, ← Bool.eq_iff_iff, bne_iff_ne]

/-- Bits of a word of `k` bits that are masked out. -/
theorem bitsOf_and_compl {k a b : Nat} (ha : a < 2 ^ k) (hb : b < 2 ^ k) :
    bitsOf (a &&& (2 ^ k - 1 - b)) = bitsOf a \ bitsOf b := by
  have hc : 2 ^ k - 1 - b = 2 ^ k - (b + 1) := by omega
  ext i
  rw [Set.mem_sdiff, mem_bitsOf, mem_bitsOf, mem_bitsOf, hc, Nat.testBit_and,
    Nat.testBit_two_pow_sub_succ hb]
  by_cases hi : i < k
  · simp [hi]
  · -- The word has no bit up there.
    have hai : a < 2 ^ i := ha.trans_le (Nat.pow_le_pow_right (by decide) (Nat.not_lt.1 hi))
    simp [Nat.testBit_lt_two_pow hai]

theorem and_compl_eq_zero {k a b : Nat} (ha : a < 2 ^ k) (hb : b < 2 ^ k) :
    a &&& (2 ^ k - 1 - b) = 0 ↔ bitsOf a ⊆ bitsOf b := by
  rw [← Set.sdiff_eq_empty, ← bitsOf_and_compl ha hb, ← bitsOf_zero, bitsOf_injective.eq_iff]

/-! ## Control groups -/

namespace Controls

/-- The bits that a word requires of its group. -/
def required (w : UInt64) : Set Nat := bitsOf (w.toNat % 2 ^ 32)

/-- The bits that a word allows in its group. -/
def allowed (w : UInt64) : Set Nat := bitsOf (w.toNat / 2 ^ 32)

/-- What may become of the request, as far as bits have to be there. -/
structure Extends (w : UInt64) (request v : UInt32) : Prop where
  request : bitsOf request.toNat ⊆ bitsOf v.toNat
  required : required w ⊆ bitsOf v.toNat

variable (g : ControlGroup) (w : UInt64)

theorem high_lt : w.toNat / 2 ^ 32 < 2 ^ 32 := by
  rw [← toNat_high]
  exact UInt32.toNat_lt _

theorem bitsOf_and_mustBe0 (a : UInt32) :
    bitsOf (a &&& (ofWord g w).mustBe0).toNat = bitsOf a.toNat \ allowed w := by
  rw [UInt32.toNat_and, toNat_mustBe0, bitsOf_and_compl a.toNat_lt (high_lt w), allowed]

theorem bitsOf_or_mustBe1 (a : UInt32) :
    bitsOf (a ||| (ofWord g w).mustBe1).toNat = bitsOf a.toNat ∪ required w := by
  rw [UInt32.toNat_or, toNat_mustBe1, bitsOf_or, required]

theorem and_mustBe0_eq_zero (a : UInt32) :
    a &&& (ofWord g w).mustBe0 = 0 ↔ bitsOf a.toNat ⊆ allowed w := by
  rw [← UInt32.toNat_inj, UInt32.toNat_and, toNat_mustBe0, UInt32.toNat_zero,
    and_compl_eq_zero a.toNat_lt (high_lt w), allowed]

theorem allows_iff (a : UInt32) :
    (ofWord g w).allows a = true ↔ bitsOf a.toNat ⊆ allowed w := by
  rw [allows, beq_iff_eq, and_mustBe0_eq_zero]

variable {g w} {a b v : UInt32}

theorem adjust_eq_ok : (ofWord g w).adjust a = .ok v ↔
    bitsOf a.toNat ⊆ allowed w ∧ bitsOf v.toNat = bitsOf a.toNat ∪ required w := by
  rw [← bitsOf_or_mustBe1 g, bitsOf_injective.eq_iff, UInt32.toNat_inj, ← and_mustBe0_eq_zero g,
    eq_comm (a := v), adjust]
  by_cases h : a &&& (ofWord g w).mustBe0 = 0
  · simp [h]
  · simp [h]

theorem adjust_eq_error {e : Failure} : (ofWord g w).adjust a = .error e ↔
    ¬ bitsOf a.toNat ⊆ allowed w ∧
      ∃ rejected, e = .controlNotAllowed g rejected ∧
        bitsOf rejected.toNat = bitsOf a.toNat \ allowed w := by
  rw [← and_mustBe0_eq_zero g, adjust]
  by_cases h : a &&& (ofWord g w).mustBe0 = 0
  · simp [h]
  · constructor
    · intro he
      rw [if_neg h] at he
      cases he
      exact ⟨h, _, rfl, bitsOf_and_mustBe0 g w a⟩
    · rintro ⟨-, rejected, rfl, hr⟩
      have hx : rejected = a &&& (ofWord g w).mustBe0 := by
        rw [← UInt32.toNat_inj, ← bitsOf_injective.eq_iff, hr, bitsOf_and_mustBe0]
      rw [if_neg h, hx]
      rfl

theorem extends_of_adjust (h : (ofWord g w).adjust a = .ok v) : Extends w a v := by
  obtain ⟨-, hv⟩ := adjust_eq_ok.1 h
  constructor
  · rw [hv]
    exact Set.subset_union_left
  · rw [hv]
    exact Set.subset_union_right

theorem least_of_adjust (h : (ofWord g w).adjust a = .ok v) {x : UInt32} (hx : Extends w a x) :
    bitsOf v.toNat ⊆ bitsOf x.toNat := by
  obtain ⟨-, hv⟩ := adjust_eq_ok.1 h
  rw [hv]
  exact Set.union_subset hx.request hx.required

theorem allows_of_adjust (h : (ofWord g w).adjust a = .ok v) :
    (ofWord g w).allows v = true ↔ required w ⊆ allowed w := by
  obtain ⟨ha, hv⟩ := adjust_eq_ok.1 h
  rw [allows_iff, hv, Set.union_subset_iff, and_iff_right ha]

/-- What is adjusted needs no further adjustment, if it is allowed. -/
theorem adjust_adjusted (hw : required w ⊆ allowed w) (h : (ofWord g w).adjust a = .ok v) :
    (ofWord g w).adjust v = .ok v := by
  refine adjust_eq_ok.2 ⟨(allows_iff g w v).1 ((allows_of_adjust h).2 hw), ?_⟩
  exact (Set.union_eq_self_of_subset_right (extends_of_adjust h).required).symm

theorem adjust_mono (hab : bitsOf a.toNat ⊆ bitsOf b.toNat) (h : (ofWord g w).adjust b = .ok v) :
    ∃ u, (ofWord g w).adjust a = .ok u ∧ bitsOf u.toNat ⊆ bitsOf v.toNat := by
  obtain ⟨hb, hv⟩ := adjust_eq_ok.1 h
  refine ⟨a ||| (ofWord g w).mustBe1, ?_, ?_⟩
  · exact adjust_eq_ok.2 ⟨hab.trans hb, bitsOf_or_mustBe1 g w a⟩
  · rw [bitsOf_or_mustBe1, hv]
    exact Set.union_subset_union_left _ hab

theorem adjust_or : (ofWord g w).adjust (a ||| b) = .ok v ↔
    ∃ x y, (ofWord g w).adjust a = .ok x ∧ (ofWord g w).adjust b = .ok y ∧ v = x ||| y := by
  have hbits : bitsOf (a ||| b).toNat = bitsOf a.toNat ∪ bitsOf b.toNat := by
    rw [UInt32.toNat_or, bitsOf_or]
  constructor
  · intro h
    obtain ⟨hab, hv⟩ := adjust_eq_ok.1 h
    rw [hbits, Set.union_subset_iff] at hab
    refine ⟨_, _, adjust_eq_ok.2 ⟨hab.1, bitsOf_or_mustBe1 g w a⟩,
      adjust_eq_ok.2 ⟨hab.2, bitsOf_or_mustBe1 g w b⟩, ?_⟩
    rw [← UInt32.toNat_inj, ← bitsOf_injective.eq_iff, hv, hbits, UInt32.toNat_or, bitsOf_or,
      bitsOf_or_mustBe1, bitsOf_or_mustBe1, Set.union_union_distrib_right]
  · rintro ⟨x, y, hx, hy, rfl⟩
    obtain ⟨ha, hx⟩ := adjust_eq_ok.1 hx
    obtain ⟨hb, hy⟩ := adjust_eq_ok.1 hy
    refine adjust_eq_ok.2 ⟨?_, ?_⟩
    · rw [hbits]
      exact Set.union_subset ha hb
    · rw [hbits, Set.union_union_distrib_right, ← hx, ← hy, ← bitsOf_or, ← UInt32.toNat_or]

theorem adjust_absent (g : ControlGroup) (a : UInt32) :
    (absent g).adjust a = if a = 0 then .ok 0 else .error (.controlNotAllowed g a) := by
  have hm : a &&& (absent g).mustBe0 = a := UInt32.and_neg_one
  have hr : a ||| (absent g).mustBe1 = a := UInt32.or_zero
  rw [adjust, hm, hr]
  by_cases h : a = 0
  · rw [if_pos h, if_pos h, h]
  · rw [if_neg h, if_neg h]
    rfl

/-- A request is rejected exactly if it has a bit that is not allowed, and the failure names these
bits. Otherwise adjusting gives the least word that has the request and all that is required, and
the group allows this word exactly if the processor allows what it requires. Where it does, to
adjust once is enough. Whether it does or not, to ask for less gives no more, and two requests can
be adjusted together or one by one. Of a group that is not there only the empty request is
accepted. -/
theorem adjust_gives_least_extension (g : ControlGroup) (w : UInt64) :
    (∀ a, (∃ e, (ofWord g w).adjust a = .error e) ↔ ∃ i ∈ bitsOf a.toNat, i ∉ allowed w) ∧
    (∀ a e, (ofWord g w).adjust a = .error e → ∃ rejected, e = .controlNotAllowed g rejected ∧
      bitsOf rejected.toNat = bitsOf a.toNat \ allowed w) ∧
    (∀ a v, (ofWord g w).adjust a = .ok v →
      Extends w a v ∧ (∀ x, Extends w a x → bitsOf v.toNat ⊆ bitsOf x.toNat) ∧
      ((ofWord g w).allows v = true ↔ required w ⊆ allowed w)) ∧
    (required w ⊆ allowed w →
      ∀ a v, (ofWord g w).adjust a = .ok v → (ofWord g w).adjust v = .ok v) ∧
    (∀ a b v, bitsOf a.toNat ⊆ bitsOf b.toNat → (ofWord g w).adjust b = .ok v →
      ∃ u, (ofWord g w).adjust a = .ok u ∧ bitsOf u.toNat ⊆ bitsOf v.toNat) ∧
    (∀ a b v, (ofWord g w).adjust (a ||| b) = .ok v ↔
      ∃ x y, (ofWord g w).adjust a = .ok x ∧ (ofWord g w).adjust b = .ok y ∧ v = x ||| y) ∧
    ∀ a, (absent g).adjust a = if a = 0 then .ok 0 else .error (.controlNotAllowed g a) := by
  refine ⟨fun a => ?_, fun a e h => (adjust_eq_error.1 h).2, fun a v h => ?_,
    fun hw a v => adjust_adjusted hw, fun a b v => adjust_mono, fun a b v => adjust_or,
    adjust_absent g⟩
  · rw [← Set.not_subset]
    constructor
    · rintro ⟨e, he⟩
      exact (adjust_eq_error.1 he).1
    · intro h
      exact ⟨_, adjust_eq_error.2 ⟨h, _, rfl, bitsOf_and_mustBe0 g w a⟩⟩
  · exact ⟨extends_of_adjust h, fun x hx => least_of_adjust h hx, allows_of_adjust h⟩

/-- A processor that requires bits 1, 2 and 4 and allows bits 0 to 6. -/
theorem pin_controls_adjusted :
    (∃ e, (ofWord .pinBased 0x0000007f00000016).adjust 0x80 = .error e) ∧
    (ofWord .pinBased 0x0000007f00000016).adjust 0x17 = .ok 0x17 ∧
    (ofWord .pinBased 0x0000007f00000016).adjust 0x29 = .ok 0x3f ∧
    (absent .pinBased).adjust 0x1 = .error (.controlNotAllowed .pinBased 0x1) := by
  have hw : required 0x0000007f00000016 ⊆ allowed 0x0000007f00000016 := by
    have h : (ofWord .pinBased 0x0000007f00000016).adjust 0 = .ok 0x16 := by decide
    exact (allows_of_adjust h).1 (by decide)
  obtain ⟨hrejects, -, -, hagain, -, hunion, habsent⟩ :=
    adjust_gives_least_extension .pinBased 0x0000007f00000016
  have h7 : 7 ∉ allowed 0x0000007f00000016 := by
    rw [allowed]
    decide
  refine ⟨(hrejects 0x80).2 ⟨7, by decide, h7⟩, hagain hw 0x1 0x17 (by decide), ?_, habsent 0x1⟩
  exact (hunion 0x9 0x20 0x3f).2 ⟨0x1f, 0x36, by decide, by decide, by decide⟩

end Controls

/-! ## Fixed bits -/

namespace FixedBits

variable (fixed0 fixed1 : UInt64)

theorem bitsOf_apply (v : UInt64) :
    bitsOf ((ofWords fixed0 fixed1).apply v).toNat =
      (bitsOf v.toNat ∪ bitsOf fixed0.toNat) ∩ bitsOf fixed1.toNat := by
  rw [apply, ofWords, UInt64.not_not, UInt64.toNat_and, UInt64.toNat_or, bitsOf_and, bitsOf_or]

theorem admits_iff (v : UInt64) : (ofWords fixed0 fixed1).admits v = true ↔
    bitsOf fixed0.toNat ⊆ bitsOf v.toNat ∧ bitsOf v.toNat ⊆ bitsOf fixed1.toNat := by
  have h1 : v &&& fixed0 = fixed0 ↔ bitsOf fixed0.toNat ⊆ bitsOf v.toNat := by
    rw [← UInt64.toNat_inj, ← bitsOf_injective.eq_iff, UInt64.toNat_and, bitsOf_and,
      Set.inter_eq_right]
  have h0 : v &&& (ofWords fixed0 fixed1).mustBe0 = 0 ↔
      bitsOf v.toNat ⊆ bitsOf fixed1.toNat := by
    have hm : (ofWords fixed0 fixed1).mustBe0.toNat = 2 ^ 64 - 1 - fixed1.toNat :=
      UInt64.toNat_not fixed1
    rw [← UInt64.toNat_inj, UInt64.toNat_and, hm, UInt64.toNat_zero,
      and_compl_eq_zero v.toNat_lt fixed1.toNat_lt]
  rw [admits, Bool.and_eq_true, beq_iff_eq, beq_iff_eq, h0]
  exact and_congr_left' h1

variable {fixed0 fixed1} {v x : UInt64}

theorem apply_eq_of_admits (h : (ofWords fixed0 fixed1).admits v = true) :
    (ofWords fixed0 fixed1).apply v = v := by
  obtain ⟨h0, h1⟩ := (admits_iff fixed0 fixed1 v).1 h
  rw [← UInt64.toNat_inj, ← bitsOf_injective.eq_iff, bitsOf_apply,
    Set.union_eq_self_of_subset_right h0, Set.inter_eq_self_of_subset_left h1]

theorem admits_apply (hc : bitsOf fixed0.toNat ⊆ bitsOf fixed1.toNat) (v : UInt64) :
    (ofWords fixed0 fixed1).admits ((ofWords fixed0 fixed1).apply v) = true := by
  rw [admits_iff, bitsOf_apply]
  constructor
  · exact Set.subset_inter Set.subset_union_right hc
  · exact Set.inter_subset_right

theorem apply_apply (fixed0 fixed1 v : UInt64) :
    (ofWords fixed0 fixed1).apply ((ofWords fixed0 fixed1).apply v) =
      (ofWords fixed0 fixed1).apply v := by
  rw [← UInt64.toNat_inj, ← bitsOf_injective.eq_iff, bitsOf_apply, bitsOf_apply]
  ext i
  simp only [Set.mem_inter_iff, Set.mem_union]
  tauto

/-- No bit is moved that some admitted value has as it is. -/
theorem bitsOf_apply_xor_subset (hx : (ofWords fixed0 fixed1).admits x = true) (v : UInt64) :
    bitsOf ((ofWords fixed0 fixed1).apply v ^^^ v).toNat ⊆ bitsOf (x ^^^ v).toNat := by
  obtain ⟨h0, h1⟩ := (admits_iff fixed0 fixed1 x).1 hx
  intro i hi
  rw [UInt64.toNat_xor, mem_bitsOf_xor] at hi ⊢
  intro hxv
  refine hi ?_
  rw [bitsOf_apply]
  constructor
  · rintro ⟨hv | h, -⟩
    · exact hv
    · exact hxv.1 (h0 h)
  · intro hv
    exact ⟨.inl hv, h1 (hxv.2 hv)⟩

/-- To force a value twice changes nothing more, and what is admitted stays as it is. If no bit is
fixed both ways then what is forced is admitted, the admitted values are those that forcing leaves
alone, and a bit is moved only if it differs in every admitted value. Otherwise nothing is
admitted. -/
theorem admits_and_apply_agree (fixed0 fixed1 : UInt64) :
    (∀ v, (ofWords fixed0 fixed1).apply ((ofWords fixed0 fixed1).apply v) =
      (ofWords fixed0 fixed1).apply v) ∧
    (∀ v, (ofWords fixed0 fixed1).admits v = true → (ofWords fixed0 fixed1).apply v = v) ∧
    (bitsOf fixed0.toNat ⊆ bitsOf fixed1.toNat →
      (∀ v, (ofWords fixed0 fixed1).admits ((ofWords fixed0 fixed1).apply v) = true) ∧
      (∀ v, (ofWords fixed0 fixed1).admits v = true ↔ (ofWords fixed0 fixed1).apply v = v) ∧
      ∀ v x, (ofWords fixed0 fixed1).admits x = true →
        bitsOf ((ofWords fixed0 fixed1).apply v ^^^ v).toNat ⊆ bitsOf (x ^^^ v).toNat) ∧
    (¬ bitsOf fixed0.toNat ⊆ bitsOf fixed1.toNat →
      ∀ v, (ofWords fixed0 fixed1).admits v = false) := by
  refine ⟨apply_apply fixed0 fixed1, fun v => apply_eq_of_admits, fun hc => ?_, fun hc v => ?_⟩
  · refine ⟨admits_apply hc, fun v => ?_, fun v x hx => bitsOf_apply_xor_subset hx v⟩
    constructor
    · exact apply_eq_of_admits
    · intro h
      rw [← h]
      exact admits_apply hc v
  · rw [Bool.eq_false_iff]
    intro h
    obtain ⟨h0, h1⟩ := (admits_iff fixed0 fixed1 v).1 h
    exact hc (h0.trans h1)

/-- The bits 0, 5 and 31 fixed to one, all above 31 fixed to zero. With bit 32 fixed to one as well
nothing is admitted. -/
theorem control_register_forced :
    (ofWords 0x80000021 0xffffffff).apply 0x10 = 0x80000031 ∧
    (ofWords 0x80000021 0xffffffff).admits 0x80000031 = true ∧
    (ofWords 0x80000021 0xffffffff).apply 0x80050033 = 0x80050033 ∧
    (ofWords 0x180000021 0xffffffff).admits 0x80050033 = false := by
  obtain ⟨-, hfixed, hconsistent, -⟩ := admits_and_apply_agree 0x80000021 0xffffffff
  obtain ⟨-, -, -, hnone⟩ := admits_and_apply_agree 0x180000021 0xffffffff
  have hv : (ofWords 0x80000021 0xffffffff).admits 0x80050033 = true := by decide
  have hc : bitsOf (0x80000021 : UInt64).toNat ⊆ bitsOf (0xffffffff : UInt64).toNat := by
    obtain ⟨h0, h1⟩ := (admits_iff _ _ _).1 hv
    exact h0.trans h1
  obtain ⟨hforced, -, -⟩ := hconsistent hc
  have hn : ¬ bitsOf (0x180000021 : UInt64).toNat ⊆ bitsOf (0xffffffff : UInt64).toNat := by
    intro h
    have h32 : 32 ∈ bitsOf (0xffffffff : UInt64).toNat := h (by decide)
    exact absurd h32 (by decide)
  exact ⟨by decide, hforced 0x10, hfixed 0x80050033 hv, hnone hn 0x80050033⟩

end FixedBits

end VmxControl
