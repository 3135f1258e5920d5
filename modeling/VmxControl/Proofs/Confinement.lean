import VmxControl.Frame
import VmxControl.Proofs.Bytes

/-!
# Accesses confined to a frame

Whether a word may be accessed is decided by where it ends, and the end is a sum of machine words.
If sums are checked, an access at any offset either traps or concerns bytes of the frame only. If
sums wrap, a word at one of the last four offsets seems to end at the start of the frame. It is let
through, and lies in front of the frame.
-/

namespace VmxControl

namespace Arithmetic

variable {a b : UInt64}

theorem add_of_fits (sums : Arithmetic) (h : a.toNat + b.toNat < 2 ^ 64) :
    sums.add a b = .ok (a + b) := by
  cases sums with
  | wrapping => rfl
  | checked =>
    have hn : ¬ a + b < a := by
      rw [UInt64.lt_iff_toNat_lt, UInt64.toNat_add]
      omega
    exact if_neg hn

theorem add_of_wraps (h : 2 ^ 64 ≤ a.toNat + b.toNat) : checked.add a b = .error .overflow := by
  have ha := a.toNat_lt
  have hb := b.toNat_lt
  have hlt : a + b < a := by
    rw [UInt64.lt_iff_toNat_lt, UInt64.toNat_add]
    omega
  exact if_pos hlt

end Arithmetic

namespace Frame

open Memory

variable {offset : UInt64}

def Contains (f : Frame) (x : PhysAddr) : Prop := Within f.addr frameSize x

/-! ## Where a word is located -/

theorem end_le_iff (offset : UInt64) :
    offset + 4 ≤ frameSize ↔ (offset.toNat + 4) % 2 ^ 64 ≤ 4096 := by
  rw [UInt64.le_iff_toNat_le, UInt64.toNat_add]
  rfl

variable (f : Frame) (sums : Arithmetic)

theorem locate_of_fits (h : offset.toNat + 4 < 2 ^ 64) : f.locate offset sums =
    if offset.toNat + 4 ≤ 4096 then .ok (f.addr + offset) else .error .beyondFrame := by
  have hsum : sums.add offset 4 = .ok (offset + 4) := sums.add_of_fits h
  have hend := end_le_iff offset
  rw [Nat.mod_eq_of_lt h] at hend
  simp only [locate, hsum, hend]

theorem locate_inside (h : offset.toNat + 4 ≤ 4096) :
    f.locate offset sums = .ok (f.addr + offset) := by
  rw [locate_of_fits f sums (by omega), if_pos h]

theorem locate_overflow (h : 2 ^ 64 ≤ offset.toNat + 4) :
    f.locate offset .checked = .error .overflow := by
  have hsum : Arithmetic.checked.add offset 4 = .error .overflow := Arithmetic.add_of_wraps h
  simp only [locate, hsum]

/-- A sum that has wrapped is small, so the word is let through. -/
theorem locate_wrapped (h : 2 ^ 64 ≤ offset.toNat + 4) :
    f.locate offset .wrapping = .ok (f.addr + offset) := by
  have hlt := offset.toNat_lt
  have hle : offset + 4 ≤ frameSize := (end_le_iff offset).2 (by omega)
  simp only [locate, Arithmetic.add, if_pos hle]

/-! ## Confined accesses -/

/-- A read or a write at the offset traps, or the word ends inside the frame and the access concerns
no other bytes. In no case does it concern a byte outside the frame. -/
structure Confined (f : Frame) (offset : UInt64) (sums : Arithmetic) : Prop where
  read : ∀ m, (∃ t, f.read offset m sums = .error t) ∨
    offset.toNat + 4 ≤ 4096 ∧
      ∀ m', (∀ x, Within (f.addr + offset) 4 x → m'.bytes x = m.bytes x) →
        f.read offset m' sums = f.read offset m sums
  write : ∀ v m, (∃ t, f.write offset v m sums = .error t) ∨
    offset.toNat + 4 ≤ 4096 ∧
      ∃ m', f.write offset v m sums = .ok m' ∧
        ∀ x, ¬ Within (f.addr + offset) 4 x → m'.bytes x = m.bytes x
  read_frame : ∀ m m', (∀ x, f.Contains x → m'.bytes x = m.bytes x) →
    f.read offset m' sums = f.read offset m sums
  write_frame : ∀ v m m', f.write offset v m sums = .ok m' →
    ∀ x, ¬ f.Contains x → m'.bytes x = m.bytes x

variable {f} {sums}

theorem confined_of_trap {t : Trap} (h : f.locate offset sums = .error t) :
    f.Confined offset sums where
  read m := .inl ⟨t, by rw [Frame.read, h, Except.map]⟩
  write v m := .inl ⟨t, by rw [Frame.write, h, Except.map]⟩
  read_frame m m' _ := by rw [Frame.read, Frame.read, h, Except.map, Except.map]
  write_frame v m m' hw := by
    rw [Frame.write, h, Except.map] at hw
    cases hw

theorem confined_of_inside (h : offset.toNat + 4 ≤ 4096) : f.Confined offset sums := by
  have located := f.locate_inside sums h
  have reads (m : Memory) : f.read offset m sums = .ok (m.readWord (f.addr + offset)) := by
    rw [Frame.read, located, Except.map]
  have writes (v : UInt32) (m : Memory) :
      f.write offset v m sums = .ok (m.writeWord (f.addr + offset) v) := by
    rw [Frame.write, located, Except.map]
  constructor
  · intro m
    refine .inr ⟨h, fun m' hm => ?_⟩
    rw [reads, reads, readWord_congr hm]
  · intro v m
    exact .inr ⟨h, _, writes v m, fun x hx => bytes_writeWord_outside v hx⟩
  · intro m m' hm
    rw [reads, reads, readWord_congr fun x hx => hm x (hx.of_word h)]
  · intro v m m' hw x hx
    rw [writes] at hw
    cases hw
    exact bytes_writeWord_outside v fun hword => hx (hword.of_word h)

theorem confined_of_fits (h : offset.toNat + 4 < 2 ^ 64) : f.Confined offset sums := by
  by_cases hin : offset.toNat + 4 ≤ 4096
  · exact confined_of_inside hin
  · have trapped := f.locate_of_fits sums h
    rw [if_neg hin] at trapped
    exact confined_of_trap trapped

/-- A word whose end wraps begins outside the frame. -/
theorem not_contains_of_wraps (h : 2 ^ 64 ≤ offset.toNat + 4) :
    ¬ f.Contains (f.addr + offset) := by
  have hs : frameSize.toNat = 4096 := rfl
  rw [Contains, Within, sub_start, UInt64.lt_iff_toNat_lt, hs]
  omega

theorem not_confined_of_wraps (h : 2 ^ 64 ≤ offset.toNat + 4) : ¬ f.Confined offset .wrapping := by
  intro hc
  obtain ⟨t, ht⟩ | ⟨hin, -⟩ := hc.read {}
  · rw [Frame.read, f.locate_wrapped h] at ht
    cases ht
  · omega

/-- Which words are let through. -/
theorem exists_locate_iff (f : Frame) (offset : UInt64) (sums : Arithmetic) :
    (∃ a, f.locate offset sums = .ok a) ↔
      offset.toNat + 4 ≤ 4096 ∨ sums = .wrapping ∧ 2 ^ 64 ≤ offset.toNat + 4 := by
  by_cases hfits : offset.toNat + 4 < 2 ^ 64
  · rw [locate_of_fits f sums hfits]
    split
    · next hin => exact ⟨fun _ => .inl hin, fun _ => ⟨_, rfl⟩⟩
    · next hout =>
      constructor
      · rintro ⟨_, ⟨⟩⟩
      · rintro (hin | ⟨-, hwraps⟩)
        · exact absurd hin hout
        · exact absurd hfits (Nat.not_lt.2 hwraps)
  · have hwraps := Nat.not_lt.1 hfits
    cases sums with
    | checked =>
      rw [locate_overflow f hwraps]
      constructor
      · rintro ⟨_, ⟨⟩⟩
      · rintro (hin | ⟨⟨⟩, -⟩)
        omega
    | wrapping =>
      rw [locate_wrapped f hwraps]
      exact ⟨fun _ => .inr ⟨rfl, hwraps⟩, fun _ => ⟨_, rfl⟩⟩

/-- As long as sums are checked, an access at any offset is confined to the frame. If sums wrap, it
is at all but the last four. A word at one of those begins in front of the frame, and there it is
read and written. -/
theorem confined_unless_end_wraps (f : Frame) (offset : UInt64) :
    f.Confined offset .checked ∧
    (f.Confined offset .wrapping ↔ offset.toNat + 4 < 2 ^ 64) ∧
    (∀ sums, (∃ a, f.locate offset sums = .ok a) ↔
      offset.toNat + 4 ≤ 4096 ∨ sums = .wrapping ∧ 2 ^ 64 ≤ offset.toNat + 4) ∧
    (2 ^ 64 ≤ offset.toNat + 4 → ¬ f.Contains (f.addr + offset) ∧ ∀ v m,
      f.read offset m .wrapping = .ok (m.readWord (f.addr + offset)) ∧
        f.write offset v m .wrapping = .ok (m.writeWord (f.addr + offset) v)) := by
  have hchecked : f.Confined offset .checked := by
    by_cases hfits : offset.toNat + 4 < 2 ^ 64
    · exact confined_of_fits hfits
    · exact confined_of_trap (f.locate_overflow (Nat.not_lt.1 hfits))
  have hwrapping (hc : f.Confined offset .wrapping) : offset.toNat + 4 < 2 ^ 64 :=
    Nat.not_le.1 fun hwraps => not_confined_of_wraps hwraps hc
  refine ⟨hchecked, ⟨hwrapping, confined_of_fits⟩, f.exists_locate_iff offset, fun hwraps => ?_⟩
  refine ⟨not_contains_of_wraps hwraps, fun v m => ?_⟩
  rw [Frame.read, Frame.write, f.locate_wrapped hwraps]
  exact ⟨rfl, rfl⟩

/-- A word that is written to a frame at such an offset ends up in the frame below. -/
theorem wrapped_end_reaches_below :
    let below : Frame := ⟨frameAddr 0⟩
    let f : Frame := ⟨frameAddr 1⟩
    ¬ f.Confined 0xfffffffffffffffc .wrapping ∧
      below.read 4092 {} = .ok 0 ∧
      ∃ m, f.write 0xfffffffffffffffc 7 {} .wrapping = .ok m ∧ below.read 4092 m = .ok 7 := by
  refine ⟨fun hc => ?_, rfl, _, rfl, rfl⟩
  obtain ⟨t, ht⟩ | ⟨hin, -⟩ := hc.write 7 {}
  · cases ht
  · exact absurd hin (by decide)

end Frame

end VmxControl
