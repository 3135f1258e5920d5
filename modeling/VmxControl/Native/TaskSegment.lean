import VmxControl.Trap

/-!
# The base of the task segment

A task-segment descriptor takes two words of the global descriptor table. Its base is spread over
both: bits 23:0 and 31:24 in the first word, bits 63:32 in the low half of the second.
-/

namespace VmxControl.Native

structure DescriptorTable where
  words : List UInt64
  /-- Offset of the last byte. -/
  limit : UInt16
  deriving DecidableEq, Repr

namespace DescriptorTable

def length (t : DescriptorTable) : Nat := (t.limit.toNat + 1) / 8

/-- The part of the table that the limit covers has to be there. -/
def WellFormed (t : DescriptorTable) : Prop := t.length ≤ t.words.length

instance (t : DescriptorTable) : Decidable t.WellFormed := inferInstanceAs (Decidable (_ ≤ _))

def word (t : DescriptorTable) (i : Nat) : Except Trap UInt64 :=
  if i < t.length then .ok (t.words[i]?.getD 0) else .error (.outOfBounds t.length i)

/-- The limit that covers all words. Of no words it is the largest there is. -/
def fullLimit (words : List UInt64) : UInt16 := (8 * words.length).toUInt16 - 1

end DescriptorTable

/-- Bit 47 of a descriptor says whether the segment is there. -/
def presentBit : UInt64 := (1 : UInt64) <<< 47

def baseLow (w : UInt64) : UInt64 :=
  ((w >>> 16) &&& (0xffffff : UInt64)) ||| ((w >>> 56) <<< 24)

def baseHigh (w : UInt64) : UInt64 := w &&& 0xffffffff

def taskBase (selector : UInt16) (t : DescriptorTable) : Except Trap UInt64 :=
  let index := (selector >>> 3).toNat
  match t.word index with
  | .error e => .error e
  | .ok low =>
    if low &&& presentBit = 0 then .ok 0
    else
      match t.word (index + 1) with
      | .error e => .error e
      | .ok high => .ok (baseLow low ||| baseHigh high <<< 32)

end VmxControl.Native
