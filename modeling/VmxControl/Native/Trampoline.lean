import VmxControl.Native.Software

/-!
# The way into a guest and back

A guest is entered by machine code, for all general registers are to change hands with it. The code
saves the registers that belong to its caller and the address of the block in which the registers
of the guest are kept, lets the structure remember where the stack ends, loads the block and
enters. When the guest exits, the processor goes on at another piece of code, with the stack as
remembered: the registers are stored into the block, and both pieces end by restoring the caller's.
Memory is seen by its 64-bit words.
-/

namespace VmxControl.Native

abbrev Words := UInt64 → UInt64

namespace Words

def put (m : Words) (a v : UInt64) : Words := fun x => if x = a then v else m x

@[simp] theorem put_same (m : Words) (a v : UInt64) : m.put a v a = v := by simp [put]

theorem put_other (m : Words) {a x : UInt64} (v : UInt64) (h : x ≠ a) : m.put a v x = m x := by
  simp [put, h]

/-- Memory with a block of registers in it. -/
def place (m : Words) (block : UInt64) (r : Registers) : Words := fun x =>
  match (List.finRange 16).find? fun i : Gpr => x == block + i.offset with
  | some i => r.slot i
  | none => m x

/-- The registers that a block holds. -/
def view (m : Words) (block : UInt64) : Registers :=
  ⟨Vector.ofFn fun i : Gpr => m (block + i.offset)⟩

end Words

/-- Instructions that go on with the next one. -/
inductive Plain where
  | push (r : Gpr)
  | pop (r : Gpr)
  | const (r : Gpr) (v : UInt64)
  | load (r base : Gpr) (disp : UInt64)
  | store (base : Gpr) (disp : UInt64) (r : Gpr)
  | vmwrite (field r : Gpr)
  | test (r : Gpr)
  | add (r : Gpr) (v : UInt64)
  | zero (r : Gpr)
  deriving DecidableEq, Repr

inductive Condition where
  | always
  | carry
  | notZero
  | carryOrZero
  deriving DecidableEq, Repr

def Condition.holds : Condition → Flags → Bool
  | .always, _ => true
  | .carry, f => f.cf
  | .notZero, f => !f.zf
  | .carryOrZero, f => f.cf || f.zf

inductive Code where
  | plain (i : Plain)
  | label (n : Nat)
  | jump (when : Condition) (target : Nat)
  | enter (k : Entry)
  | ret
  deriving DecidableEq, Repr

structure Cpu where
  gpr : Registers
  flags : Flags
  words : Words
  software : Software

namespace Cpu

def step (c : Cpu) : Plain → Cpu
  | .push r =>
    let top := c.gpr.slot .rsp - 8
    { c with gpr := c.gpr.put .rsp top, words := c.words.put top (c.gpr.slot r) }
  | .pop r =>
    let top := c.gpr.slot .rsp
    { c with gpr := (c.gpr.put .rsp (top + 8)).put r (c.words top) }
  | .const r v => { c with gpr := c.gpr.put r v }
  | .load r base disp => { c with gpr := c.gpr.put r (c.words (c.gpr.slot base + disp)) }
  | .store base disp r =>
    { c with words := c.words.put (c.gpr.slot base + disp) (c.gpr.slot r) }
  | .vmwrite field r =>
    let (flags, software) := c.software.store (c.gpr.slot field).toUInt32 (c.gpr.slot r)
    { c with flags, software }
  | .test r => { c with flags := ⟨false, c.gpr.slot r == 0⟩ }
  | .add r v =>
    let sum := c.gpr.slot r + v
    { c with gpr := c.gpr.put r sum, flags := ⟨sum < v, sum == 0⟩ }
  | .zero r => { c with gpr := c.gpr.put r 0, flags := ⟨false, true⟩ }

def steps (c : Cpu) (is : List Plain) : Cpu := is.foldl step c

/-- The guest runs with the registers as they are. When it exits, the stack pointer is the one that
the structure remembers. -/
def runGuest (c : Cpu) : Cpu :=
  let (gpr, software) := c.software.runGuest c.gpr
  let top := software.fields.get Field.hostStackPointer
  { c with gpr := gpr.put .rsp top, flags := .clear, software }

end Cpu

/-- How a piece of code is left. -/
inductive Departure where
  /-- To the address on top of the stack. -/
  | returned (target : UInt64)
  /-- By an exit of the guest. -/
  | exited
  | pastEnd
  deriving DecidableEq, Repr

/-- Runs a piece of code. All jumps in it go forward: one that is taken skips what comes before its
label. -/
def Cpu.run (c : Cpu) : Option Nat → List Code → Departure × Cpu
  | _, [] => (.pastEnd, c)
  | some n, i :: rest => c.run (if i = .label n then none else some n) rest
  | none, .plain i :: rest => (c.step i).run none rest
  | none, .label _ :: rest => c.run none rest
  | none, .jump when n :: rest => c.run (if when.holds c.flags then some n else none) rest
  | none, .enter k :: rest =>
    let (flags, software) := c.software.perform (.enter k c.gpr)
    if flags = .clear then (.exited, { c with software }.runGuest)
    else { c with flags, software }.run none rest
  | none, .ret :: _ =>
    let top := c.gpr.slot .rsp
    (.returned (c.words top), { c with gpr := c.gpr.put .rsp (top + 8) })

/-- What the caller wants back, and last the address of the block. -/
def savedRegisters : List Gpr := [.rbp, .rbx, .r12, .r13, .r14, .r15, .rdi]

def restoredRegisters : List Gpr := [.r15, .r14, .r13, .r12, .rbx, .rbp]

/-- RDI holds the address of the block, so it is loaded last and stored last. -/
def blockRegisters : List Gpr :=
  [.rax, .rcx, .rdx, .rbx, .rbp, .rsi, .r8, .r9, .r10, .r11, .r12, .r13, .r14, .r15]

def saving : List Plain :=
  savedRegisters.map Plain.push ++
    [.const .rax Field.hostStackPointer.toUInt64, .vmwrite .rax .rsp]

def loading : List Plain :=
  .test .rsi :: (blockRegisters ++ [Gpr.rdi]).map fun r => .load r .rdi r.offset

def storing : List Plain :=
  [.push .rdi, .load .rdi .rsp 8] ++ (blockRegisters.map fun r => .store .rdi r.offset r) ++
    [.pop .rax, .store .rdi Gpr.rdi.offset .rax]

/-- Drops the address of the block and restores the registers of the caller. -/
def restoring : List Plain :=
  .add .rsp 8 :: restoredRegisters.map .pop

/-- Tells in RAX which flag is set: 1 for CF, which is looked at first, and 2 for ZF. -/
def telling : List Code :=
  [.plain (.const .rax 1), .jump .carry 4, .plain (.const .rax 2), .label 4]

/-- Takes the address of the block in RDI, and in RSI zero for VMLAUNCH. Returns only if there is no
entry. -/
def enterCode : List Code :=
  saving.map .plain ++ [.jump .carryOrZero 3] ++ loading.map .plain ++
    [.jump .notZero 2, .enter .launch, .jump .always 3, .label 2, .enter .resume, .label 3] ++
    telling ++ restoring.map .plain ++ [.ret]

/-- Where a guest exits to, with the address of the block on top of the stack. Returns zero to
whoever called `enterCode`. -/
def exitCode : List Code := (storing ++ restoring ++ [Plain.zero .rax]).map .plain ++ [.ret]

def Cpu.enterGuest (c : Cpu) : Departure × Cpu :=
  match c.run none enterCode with
  | (.exited, c) => c.run none exitCode
  | r => r

/-- Who enters a guest: what its registers and memory hold, and where it keeps the registers of the
guest. -/
structure Caller where
  gpr : Registers
  words : Words
  block : UInt64

namespace Caller

/-- What stands for the instruction in RSI. -/
def selector : Entry → UInt64
  | .launch => 0
  | .resume => 1

/-- Where the stack of the caller ends. The address to return to is there. -/
def top (w : Caller) : UInt64 := w.gpr.slot .rsp

/-- The processor when the call begins, with the registers of the guest in the block. -/
def start (w : Caller) (k : Entry) (regs : Registers) (s : Software) : Cpu where
  gpr := (w.gpr.put .rdi w.block).put .rsi (selector k)
  flags := .clear
  words := w.words.place w.block regs
  software := s

def call (w : Caller) (k : Entry) (regs : Registers) (s : Software) : Departure × Cpu :=
  (w.start k regs s).enterGuest

/-- What the number that is returned stands for. -/
def outcome (rax : UInt64) : Except VmFail Unit :=
  if rax = 0 then .ok ()
  else if rax = 1 then VmFail.ofFlags true false
  else VmFail.ofFlags false true

def enter (w : Caller) (k : Entry) (regs : Registers) (s : Software) :
    Except VmFail Unit × Registers × Software :=
  let c := (w.call k regs s).2
  (outcome (c.gpr.slot .rax), c.words.view w.block, c.software)

/-- The registers of the guest are kept away from the words that a call uses: eight words of the
stack and, above them, the address to return to. -/
def Apart (w : Caller) : Prop :=
  ∀ i : Gpr, ∀ j : Fin 9, w.block + i.offset ≠ w.top - 64 + 8 * j.val.toUInt64

instance (w : Caller) : Decidable w.Apart := inferInstanceAs (Decidable (∀ _, _))

/-- A process with its stack high up and the registers of the guest on its heap. -/
def process : Caller where
  gpr := Registers.zero.put .rsp 0x7ffffffff000
  words _ := 0
  block := 0x555555560000

end Caller

end VmxControl.Native
