import VmxControl.Proofs.Confinement

/-!
# A frame as a store of words

The words of a frame at offsets that are multiples of four lie side by side. To fill the frame puts
a word in each of these cells, to write one puts it in one cell, and a cell keeps what was put there
last. A word lies in its cell with its lowest byte first.
-/

namespace VmxControl

namespace Frame

open Memory

/-- The offset of a word that lies inside the frame, of those that do not overlap. -/
structure Cell where
  offset : UInt64
  aligned : offset % 4 = 0
  inside : offset.toNat + 4 ≤ 4096
  deriving DecidableEq

/-- What its owner does to what is in a frame. -/
inductive Edit where
  | fill (b : UInt8)
  | write (c : Cell) (v : UInt32)
  deriving DecidableEq

def edit (f : Frame) (sums : Arithmetic) (h : Host) : Edit → Except Trap Host
  | .fill b => .ok (h.fill f b)
  | .write c v => (f.write c.offset v h.memory sums).map fun memory => { h with memory }

/-- One edit after the other, up to the first that traps. -/
def edits (f : Frame) (sums : Arithmetic) (h : Host) (es : List Edit) : Except Trap Host :=
  es.foldlM (f.edit sums) h

/-- The word that an edit puts in the cell, if it does. -/
def Edit.puts (c : Cell) : Edit → Option UInt32
  | .fill b => some (wordOf b b b b)
  | .write d v => if d = c then some v else none

/-- The word that was put in the cell last. -/
def lastPut (c : Cell) (es : List Edit) : Option UInt32 := es.reverse.findSome? (Edit.puts c)

/-- What an edit puts in a cell is there until a later one puts something else there. -/
theorem getD_lastPut_cons (c : Cell) (e : Edit) (es : List Edit) (v : UInt32) :
    (lastPut c (e :: es)).getD v = (lastPut c es).getD ((e.puts c).getD v) := by
  simp [lastPut, List.findSome?_append]

/-! ## Cells -/

variable {f : Frame} {a : PhysAddr} {m : Memory}

theorem Cell.dvd_offset (c : Cell) : 4 ∣ c.offset.toNat := by
  have h := congrArg UInt64.toNat c.aligned
  rw [UInt64.toNat_mod] at h
  exact Nat.dvd_of_mod_eq_zero h

/-- No byte belongs to two cells. -/
theorem Cell.apart {c d : Cell} (h : d ≠ c) {x : PhysAddr} (hx : Within (a + c.offset) 4 x) :
    ¬ Within (a + d.offset) 4 x := by
  intro hd
  obtain ⟨hc₀, hc₁⟩ := hx.of_offset (Nat.le_trans c.inside (by decide))
  obtain ⟨hd₀, hd₁⟩ := hd.of_offset (Nat.le_trans d.inside (by decide))
  have hc := c.dvd_offset
  have hd := d.dvd_offset
  have heq : d.offset = c.offset := UInt64.toNat_inj.1 (by omega)
  cases c
  cases d
  cases heq
  exact h rfl

theorem readWord_fill (c : Cell) (b : UInt8) :
    (m.fill a b).readWord (a + c.offset) = wordOf b b b b := by
  have filled (k : UInt64) (hk : k < 4) : (m.fill a b).bytes (a + c.offset + k) = b := by
    have hword := (within_add (a := a + c.offset) hk).of_word c.inside
    exact if_pos hword
  have first := filled 0 (by decide)
  rw [UInt64.add_zero] at first
  rw [readWord_eq, first, filled 1 (by decide), filled 2 (by decide), filled 3 (by decide)]

theorem readWord_writeWord_other {c d : Cell} (h : d ≠ c) (v : UInt32) :
    (m.writeWord (a + d.offset) v).readWord (a + c.offset) = m.readWord (a + c.offset) :=
  readWord_congr fun _ hx => bytes_writeWord_outside v (Cell.apart h hx)

/-! ## What the cells hold -/

/-- The words in the cells of a frame. -/
def Shows (f : Frame) (h : Host) (words : Cell → UInt32) : Prop :=
  ∀ c, h.memory.readWord (f.addr + c.offset) = words c

variable {h : Host} {words : Cell → UInt32}

theorem Shows.read (hs : f.Shows h words) (sums : Arithmetic) (c : Cell) :
    f.read c.offset h.memory sums = .ok (words c) := by
  rw [Frame.read, f.locate_inside sums c.inside, Except.map, hs c]

theorem Shows.edit (hs : f.Shows h words) (sums : Arithmetic) (e : Edit) :
    ∃ h', f.edit sums h e = .ok h' ∧ f.Shows h' fun c => (e.puts c).getD (words c) := by
  cases e with
  | fill b => exact ⟨h.fill f b, rfl, fun c => readWord_fill c b⟩
  | write d v =>
    refine ⟨{ h with memory := h.memory.writeWord (f.addr + d.offset) v }, ?_, fun c => ?_⟩
    · rw [Frame.edit, Frame.write, f.locate_inside sums d.inside]
      rfl
    · by_cases hd : d = c
      · subst hd
        simp [Edit.puts, readWord_writeWord]
      · simp [Edit.puts, hd, readWord_writeWord_other hd, hs c]

theorem Shows.edits (hs : f.Shows h words) (sums : Arithmetic) (es : List Edit) :
    ∃ h', f.edits sums h es = .ok h' ∧ f.Shows h' fun c => (lastPut c es).getD (words c) := by
  induction es generalizing h words with
  | nil => exact ⟨h, rfl, hs⟩
  | cons e es ih =>
    obtain ⟨k, hk, hs⟩ := hs.edit sums e
    obtain ⟨h', hh, hs⟩ := ih hs
    refine ⟨h', ?_, fun c => ?_⟩
    · rw [Frame.edits, List.foldlM_cons, hk]
      exact hh
    · exact (hs c).trans (getD_lastPut_cons c e es (words c)).symm

theorem shows_allocateZeroed {h₀ : Host} (ha : h₀.allocateZeroed = (.ok f, h)) :
    f.Shows h fun _ => 0 := by
  unfold Host.allocateZeroed at ha
  split at ha
  · cases ha
    exact fun c => readWord_fill c 0
  · cases ha

/-- Whatever its owner does to a frame that was granted with zeros in it, nothing traps, and each
cell holds what was put there last, or else zero. That is what a read gives, and its bytes are in
memory with the lowest first. A write to another cell leaves it as it is. -/
theorem cells_keep_what_was_put_last {h₀ h : Host} (ha : h₀.allocateZeroed = (.ok f, h))
    (sums : Arithmetic) (es : List Edit) :
    ∃ h', f.edits sums h es = .ok h' ∧ ∀ c : Cell,
      f.read c.offset h'.memory sums = .ok ((lastPut c es).getD 0) ∧
      h'.memory.bytesAt (f.addr + c.offset) = bytesOf ((lastPut c es).getD 0) ∧
      ∀ d ≠ c, ∀ v, ∃ k, f.edit sums h' (.write d v) = .ok k ∧
        f.read c.offset k.memory sums = f.read c.offset h'.memory sums := by
  obtain ⟨h', hrun, hs⟩ := (shows_allocateZeroed ha).edits sums es
  refine ⟨h', hrun, fun c => ⟨hs.read sums c, ?_, fun d hd v => ?_⟩⟩
  · rw [bytesAt_eq, hs c]
  · obtain ⟨k, hk, hsk⟩ := hs.edit sums (.write d v)
    refine ⟨k, hk, ?_⟩
    rw [hsk.read sums c, hs.read sums c, Edit.puts, if_neg hd, Option.getD_none]

/-- Two cells are written, all are filled, and the second is written again. -/
theorem filled_cells_keep_later_write :
    let f : Frame := ⟨0x100000⟩
    let c : Cell := ⟨8, by decide, by decide⟩
    let d : Cell := ⟨12, by decide, by decide⟩
    ∃ h h', ({} : Host).allocateZeroed = (.ok f, h) ∧
      f.edits .checked h [.write c 0xdeadbeef, .write d 1, .fill 0xff, .write d 0x12345678] =
        .ok h' ∧
      f.read 8 h'.memory = .ok 0xffffffff ∧ f.read 12 h'.memory = .ok 0x12345678 ∧
      h'.memory.bytesAt (f.addr + 12) = [0x78, 0x56, 0x34, 0x12] := by
  intro f c d
  have granted : ({} : Host).allocateZeroed = (.ok f, _) := rfl
  obtain ⟨h', hrun, holds⟩ := cells_keep_what_was_put_last granted .checked
    [.write c 0xdeadbeef, .write d 1, .fill 0xff, .write d 0x12345678]
  obtain ⟨hc, -, -⟩ := holds c
  obtain ⟨hd, hbytes, -⟩ := holds d
  have lowest : bytesOf 0x12345678 = [0x78, 0x56, 0x34, 0x12] := by decide
  exact ⟨_, h', granted, hrun, hc, hd, hbytes.trans lowest⟩

end Frame

end VmxControl
