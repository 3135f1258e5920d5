import VmxControl.Text
import VmxControl.Trap

/-!
# General-purpose registers of a guest

Sixteen slots in encoding order. The stack pointer lives in the control structure, so slot 4 is
neither read nor written by index.
-/

namespace VmxControl

/-- A general register by its encoding. -/
abbrev Gpr := Fin 16

namespace Gpr

def rax : Gpr := 0
def rcx : Gpr := 1
def rdx : Gpr := 2
def rbx : Gpr := 3
def rsp : Gpr := 4
def rbp : Gpr := 5
def rsi : Gpr := 6
def rdi : Gpr := 7
def r8 : Gpr := 8
def r9 : Gpr := 9
def r10 : Gpr := 10
def r11 : Gpr := 11
def r12 : Gpr := 12
def r13 : Gpr := 13
def r14 : Gpr := 14
def r15 : Gpr := 15

/-- Where a register is kept in a block of registers. -/
def offset (r : Gpr) : UInt64 := 8 * r.val.toUInt64

end Gpr

structure Registers where
  slots : Vector UInt64 16
  deriving DecidableEq, Repr

namespace Registers

def zero : Registers := ⟨Vector.replicate 16 0⟩

instance : Inhabited Registers := ⟨zero⟩

/-- Names in encoding order. -/
def names : List String :=
  ["rax", "rcx", "rdx", "rbx", "rsp", "rbp", "rsi", "rdi", "r8", "r9", "r10", "r11", "r12", "r13",
   "r14", "r15"]

def stackSlot : Nat := 4

/-- Whether the index stands for a slot that is swapped with the guest. -/
def Legal (i : UInt8) : Prop := i.toNat < 16 ∧ i.toNat ≠ stackSlot

instance (i : UInt8) : Decidable (Legal i) := inferInstanceAs (Decidable (_ ∧ _))

def name (i : UInt8) : Except Trap String :=
  match names[i.toNat]? with
  | some n => .ok n
  | none => .error (.outOfBounds names.length i.toNat)

def get (r : Registers) (i : UInt8) : Except Trap UInt64 :=
  if h : Legal i then
    have := h.1
    .ok r.slots[i.toNat]
  else .error (.illegalRegister i)

def set (r : Registers) (i : UInt8) (v : UInt64) : Except Trap Registers :=
  if h : Legal i then .ok ⟨r.slots.set i.toNat v h.1⟩ else .error (.illegalRegister i)

/-- The registers after a list of writes. Only legal slots are written. -/
def load (r : Registers) (ws : List (UInt8 × UInt64)) : Registers :=
  ws.foldl (fun r w => (r.set w.1 w.2).toOption.getD r) r

/-- The writes in turn. The first that is not legal stops them, and what came before it stays. -/
def setAll (r : Registers) : List (UInt8 × UInt64) → Except Trap Unit × Registers
  | [] => (.ok (), r)
  | (i, v) :: ws =>
    match r.set i v with
    | .ok r => r.setAll ws
    | .error t => (.error t, r)

/-- The slots in encoding order, the unused one left out. -/
def view (r : Registers) : List (Option UInt64) :=
  (List.range 16).map fun i => if i = stackSlot then none else r.slots[i]?

/-- The slot of a register by its encoding, the unused one included. -/
def slot (r : Registers) (i : Gpr) : UInt64 := r.slots[i]

def put (r : Registers) (i : Gpr) (v : UInt64) : Registers := ⟨r.slots.set i v⟩

def debug (r : Registers) : String :=
  Text.record "GeneralRegisters" <|
    (names.zip r.slots.toList).map fun e =>
      (if e.1 = "rsp" then "_unused_rsp" else e.1, toString e.2.toNat)

theorem get_set_same {r s : Registers} {i : UInt8} {v : UInt64} (h : r.set i v = .ok s) :
    s.get i = .ok v := by
  unfold set at h
  split at h
  · next hi =>
    cases h
    simp [get, hi]
  · simp at h

theorem get_set_other {r s : Registers} {i j : UInt8} {v : UInt64} (h : r.set i v = .ok s)
    (hj : j ≠ i) : s.get j = r.get j := by
  unfold set at h
  split at h
  · cases h
    have hn : i.toNat ≠ j.toNat := fun e => hj (UInt8.toNat.inj e.symm)
    simp [get, Vector.getElem_set_ne, hn]
  · simp at h

theorem ext_slot {r s : Registers} (h : ∀ i, r.slot i = s.slot i) : r = s := by
  obtain ⟨a⟩ := r
  obtain ⟨b⟩ := s
  exact congrArg mk (Vector.ext fun i hi => h ⟨i, hi⟩)

theorem slot_put (r : Registers) (i j : Gpr) (v : UInt64) :
    (r.put i v).slot j = if j = i then v else r.slot j := by
  by_cases h : j = i
  · subst h
    simp [slot, put]
  · have hn : i.val ≠ j.val := fun e => h (Fin.ext e.symm)
    simp [slot, put, h, Vector.getElem_set_ne, hn]

@[simp] theorem slot_put_same (r : Registers) (i : Gpr) (v : UInt64) :
    (r.put i v).slot i = v := by simp [slot_put]

theorem slot_put_other (r : Registers) {i j : Gpr} (v : UInt64) (h : j ≠ i) :
    (r.put i v).slot j = r.slot j := by simp [slot_put, h]

@[simp] theorem put_slot (r : Registers) (i : Gpr) : r.put i (r.slot i) = r := by
  refine ext_slot fun j => ?_
  by_cases h : j = i
  · subst h
    simp
  · simp [slot_put, h]

@[simp] theorem put_put (r : Registers) (i : Gpr) (u v : UInt64) :
    (r.put i u).put i v = r.put i v := by
  refine ext_slot fun j => ?_
  by_cases h : j = i <;> simp [slot_put, h]

theorem put_comm (r : Registers) {i j : Gpr} (u v : UInt64) (h : i ≠ j) :
    (r.put i u).put j v = (r.put j v).put i u := by
  refine ext_slot fun k => ?_
  by_cases hi : k = i
  · subst hi
    simp [slot_put, h]
  · simp [slot_put, hi]

end Registers

end VmxControl
