import Mathlib.Data.Nat.Bitwise
import VmxControl.Memory

/-!
# Words and bytes

A word lies in memory as its four bytes, the lowest first, and what was written is read back from
them. A frame is 4096 bytes: two memories may agree on these and on nothing else.
-/

namespace VmxControl.Memory

/-- The word with these bytes, the lowest first. -/
def wordOf (b₀ b₁ b₂ b₃ : UInt8) : UInt32 :=
  b₀.toUInt32 ||| b₁.toUInt32 <<< 8 ||| b₂.toUInt32 <<< 16 ||| b₃.toUInt32 <<< 24

def bytesOf (v : UInt32) : List UInt8 :=
  [v.toUInt8, (v >>> 8).toUInt8, (v >>> 16).toUInt8, (v >>> 24).toUInt8]

/-- The bytes of the word at an address. -/
def bytesAt (m : Memory) (a : PhysAddr) : List UInt8 :=
  [m.bytes a, m.bytes (a + 1), m.bytes (a + 2), m.bytes (a + 3)]

theorem or_above {n low : Nat} (h : low < 2 ^ n) (high : Nat) :
    low ||| 2 ^ n * high = low + 2 ^ n * high := by
  rw [Nat.or_comm, ← Nat.two_pow_add_eq_or_of_lt h, Nat.add_comm]

theorem toNat_wordOf (b₀ b₁ b₂ b₃ : UInt8) : (wordOf b₀ b₁ b₂ b₃).toNat =
    b₀.toNat + 2 ^ 8 * b₁.toNat + 2 ^ 16 * b₂.toNat + 2 ^ 24 * b₃.toNat := by
  have h₀ := b₀.toNat_lt
  have h₁ := b₁.toNat_lt
  have h₂ := b₂.toNat_lt
  have h₃ := b₃.toNat_lt
  have two : b₀.toNat + 2 ^ 8 * b₁.toNat < 2 ^ 16 := by omega
  have three : b₀.toNat + 2 ^ 8 * b₁.toNat + 2 ^ 16 * b₂.toNat < 2 ^ 24 := by omega
  simp only [wordOf, UInt32.toNat_or, UInt32.toNat_shiftLeft, UInt8.toNat_toUInt32,
    UInt32.reduceToNat, Nat.reduceMod, Nat.shiftLeft_eq, Nat.mul_comm _ (2 ^ _)]
  rw [Nat.mod_eq_of_lt (by omega), Nat.mod_eq_of_lt (by omega), Nat.mod_eq_of_lt (by omega),
    or_above h₀, or_above two, or_above three]

/-- The four bytes of a word make up the word. -/
theorem join_bytes (v : UInt32) :
    wordOf v.toUInt8 (v >>> 8).toUInt8 (v >>> 16).toUInt8 (v >>> 24).toUInt8 = v := by
  have hv := v.toNat_lt
  rw [← UInt32.toNat_inj, toNat_wordOf]
  simp only [UInt32.toNat_toUInt8, UInt32.toNat_shiftRight, UInt32.reduceToNat, Nat.reduceMod,
    Nat.shiftRight_eq_div_pow]
  omega

theorem bytesOf_wordOf (b₀ b₁ b₂ b₃ : UInt8) :
    bytesOf (wordOf b₀ b₁ b₂ b₃) = [b₀, b₁, b₂, b₃] := by
  have h₀ := b₀.toNat_lt
  have h₁ := b₁.toNat_lt
  have h₂ := b₂.toNat_lt
  have h₃ := b₃.toNat_lt
  simp only [bytesOf, List.cons.injEq, ← UInt8.toNat_inj, UInt32.toNat_toUInt8,
    UInt32.toNat_shiftRight, UInt32.reduceToNat, Nat.reduceMod, Nat.shiftRight_eq_div_pow,
    toNat_wordOf, and_true]
  omega

theorem readWord_eq (m : Memory) (a : PhysAddr) : m.readWord a =
    wordOf (m.bytes a) (m.bytes (a + 1)) (m.bytes (a + 2)) (m.bytes (a + 3)) := rfl

/-- Whatever the memory holds, a word is read as its bytes lie there. -/
theorem bytesAt_eq (m : Memory) (a : PhysAddr) : m.bytesAt a = bytesOf (m.readWord a) := by
  rw [readWord_eq, bytesOf_wordOf, bytesAt]

theorem readWord_writeWord (m : Memory) (a : PhysAddr) (v : UInt32) :
    (m.writeWord a v).readWord a = v := by
  simpa [readWord_eq, writeWord] using join_bytes v

/-! ## Frames -/

variable {a k : PhysAddr} {m m' m'' : Memory}

theorem sub_start (a k : PhysAddr) : a + k - a = k := by
  rw [UInt64.add_comm, UInt64.add_sub_cancel]

theorem bytes_fill (m : Memory) (b : UInt8) (hk : k < frameSize) :
    (m.fill a b).bytes (a + k) = b := by
  simp only [fill, sub_start, hk, ↓reduceIte]

/-- The bytes behind a word are not disturbed when it is written. -/
theorem bytes_writeWord (m : Memory) (v : UInt32) (hk : 4 ≤ k) :
    (m.writeWord a v).bytes (a + k) = m.bytes (a + k) := by
  have hne (n : PhysAddr) (hn : ¬ 4 ≤ n) : k ≠ n := fun h => hn (h ▸ hk)
  simp [writeWord, hne 0 (by decide), hne 1 (by decide), hne 2 (by decide), hne 3 (by decide)]

/-! ## What an access reaches -/

/-- The address is one of the `n` that begin at `a`. -/
def Within (a n x : PhysAddr) : Prop := x - a < n

theorem within_add {n : PhysAddr} (hk : k < n) : Within a n (a + k) := by
  rwa [Within, sub_start]

theorem add_distance (a x : PhysAddr) : a + (x - a) = x := by
  rw [UInt64.add_comm, UInt64.sub_add_cancel]

/-- Where a byte of the word at an offset lies, from the start of its frame. -/
theorem Within.of_offset {x : PhysAddr} (hk : k.toNat + 4 ≤ 2 ^ 64) (h : Within (a + k) 4 x) :
    k.toNat ≤ (x - a).toNat ∧ (x - a).toNat < k.toNat + 4 := by
  have hd := (x - a).toNat_lt
  have shift : x - (a + k) = x - a - k := by grind
  rw [Within, shift, UInt64.lt_iff_toNat_lt, UInt64.toNat_sub] at h
  simp only [UInt64.reduceToNat] at h
  omega

/-- The bytes of a word inside a frame are bytes of the frame. -/
theorem Within.of_word {x : PhysAddr} (hk : k.toNat + 4 ≤ 4096) (h : Within (a + k) 4 x) :
    Within a frameSize x := by
  obtain ⟨-, hx⟩ := h.of_offset (by omega)
  have hs : frameSize.toNat = 4096 := rfl
  rw [Within, UInt64.lt_iff_toNat_lt, hs]
  omega

/-- Only the bytes of a word decide on what is read. -/
theorem readWord_congr (h : ∀ x, Within a 4 x → m'.bytes x = m.bytes x) :
    m'.readWord a = m.readWord a := by
  have h₀ := h (a + 0) (within_add (by decide))
  rw [UInt64.add_zero] at h₀
  simp only [readWord_eq, h₀, h (a + 1) (within_add (by decide)),
    h (a + 2) (within_add (by decide)), h (a + 3) (within_add (by decide))]

/-- Only the bytes of a word change when it is written. -/
theorem bytes_writeWord_outside {x : PhysAddr} (v : UInt32) (h : ¬ Within a 4 x) :
    (m.writeWord a v).bytes x = m.bytes x := by
  have behind := bytes_writeWord m v (a := a) (UInt64.not_lt.1 h)
  rwa [add_distance] at behind

/-- The two memories agree on the frame at the address. -/
def SameFrame (a : PhysAddr) (m m' : Memory) : Prop :=
  ∀ k, k < frameSize → m'.bytes (a + k) = m.bytes (a + k)

namespace SameFrame

theorem of_bytes (h : m'.bytes = m.bytes) : SameFrame a m m' := fun _ _ => h ▸ rfl

theorem trans (h : SameFrame a m m') (h' : SameFrame a m' m'') : SameFrame a m m'' :=
  fun k hk => (h' k hk).trans (h k hk)

theorem readWord (h : SameFrame a m m') : m'.readWord a = m.readWord a := by
  refine readWord_congr fun x hx => ?_
  have hbyte := h (x - a) (UInt64.lt_trans hx (by decide))
  rwa [add_distance] at hbyte

end SameFrame

end VmxControl.Memory
