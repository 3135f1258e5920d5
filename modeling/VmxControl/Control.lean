import VmxControl.Failure

/-!
# Controls and fixed bits

The processor fixes some bits of each control group and of CR0 and CR4. A capability word reports
the bits that must be one in its low half and the bits that may be one in its high half. Adjusting
a request adds the bits that must be one, and fails if the request has a bit that must be zero.
-/

namespace VmxControl

structure Controls where
  group : ControlGroup
  mustBe0 : UInt32
  mustBe1 : UInt32
  deriving DecidableEq, Repr

namespace Controls

def ofWord (g : ControlGroup) (w : UInt64) : Controls := ⟨g, ~~~(w >>> 32).toUInt32, w.toUInt32⟩

/-- A group that the processor does not have: no bit may be one. -/
def absent (g : ControlGroup) : Controls := ⟨g, 0xffffffff, 0⟩

def allowed1 (c : Controls) : UInt32 := ~~~c.mustBe0

def allows (c : Controls) (bits : UInt32) : Bool := bits &&& c.mustBe0 == 0

/-- The request with every mandatory bit, unless it has bits that must be zero. -/
def adjust (c : Controls) (requested : UInt32) : Except Failure UInt32 :=
  if requested &&& c.mustBe0 = 0 then .ok (requested ||| c.mustBe1)
  else .error (.controlNotAllowed c.group (requested &&& c.mustBe0))

def debug (c : Controls) : String :=
  Text.record "ControlDefaults" [("group", c.group.name),
    ("must_be_0", toString c.mustBe0.toNat), ("must_be_1", toString c.mustBe1.toNat)]

end Controls

structure FixedBits where
  mustBe0 : UInt64
  mustBe1 : UInt64
  deriving DecidableEq, Repr

namespace FixedBits

/-- The first word reports the bits fixed to one, the second has a zero for each bit fixed to
zero. -/
def ofWords (fixed0 fixed1 : UInt64) : FixedBits := ⟨~~~fixed1, fixed0⟩

def admits (f : FixedBits) (v : UInt64) : Bool :=
  v &&& f.mustBe1 == f.mustBe1 && v &&& f.mustBe0 == 0

def apply (f : FixedBits) (v : UInt64) : UInt64 := (v ||| f.mustBe1) &&& ~~~f.mustBe0

def debug (f : FixedBits) : String :=
  Text.record "FixedBits"
    [("must_be_0", toString f.mustBe0.toNat), ("must_be_1", toString f.mustBe1.toNat)]

end FixedBits

end VmxControl
