import VmxControl.Frame

/-!
# Isolation tags

Tags 1, 2, 3, ... are handed out to virtual processors and never taken back. Tag 0 is the host's
own. After tag 65535 there are no more.
-/

namespace VmxControl

structure Tag where
  value : UInt16
  deriving DecidableEq, Repr

namespace Tag

def host : Tag := ⟨0⟩

def isHost (t : Tag) : Bool := t.value == 0

def debug (t : Tag) : String := "IsolationTag(" ++ toString t.value.toNat ++ ")"

end Tag

structure TagPool where
  next : UInt32 := 1
  deriving DecidableEq, Repr

namespace TagPool

/-- One step, whoever takes it. -/
def take? (p : TagPool) : Option Tag × TagPool :=
  if p.next ≤ 65535 then (some ⟨p.next.toUInt16⟩, ⟨p.next + 1⟩) else (none, p)

/-- Tags handed out so far. -/
def allocated (p : TagPool) : UInt32 := p.next - 1

def allocate (p : TagPool) (h : Host) : Except Failure Tag × TagPool × Host :=
  match p.take? with
  | (some t, p) => (.ok t, p, h)
  | (none, p) => (.error .tagsExhausted, p, h.note .tagsExhausted)

def debug (p : TagPool) : String :=
  Text.record "VpidAllocator" [("next", toString p.next.toNat)]

/-- Tags taken in a row, and whether the row ended because none was left. -/
structure Draw where
  tags : List Tag
  exhausted : Bool
  deriving DecidableEq, Repr

/-- Takes up to `n` tags, in front of those taken already. -/
def takeOnto (taken : List Tag) : Nat → TagPool → Draw × TagPool
  | 0, p => (⟨taken.reverse, false⟩, p)
  | n + 1, p =>
    match p.take? with
    | (some t, p) => takeOnto (t :: taken) n p
    | (none, p) => (⟨taken.reverse, true⟩, p)

def takeUpTo (p : TagPool) (n : Nat) : Draw × TagPool := takeOnto [] n p

/-- Several takers of up to `n` tags each. Which taker gets which tag hangs on their order; what
all of them get does not. -/
def share (p : TagPool) (takers n : Nat) : Draw × TagPool :=
  (List.replicate takers n).foldl
    (fun r n =>
      let (d, p) := r.2.takeUpTo n
      (⟨r.1.tags ++ d.tags, r.1.exhausted || d.exhausted⟩, p))
    (⟨[], false⟩, p)

namespace Draw

def values (d : Draw) : List Nat := d.tags.map fun t => t.value.toNat

/-- The tags in order, each once. -/
def distinct (d : Draw) : List Nat := (d.values.mergeSort fun a b => a ≤ b).eraseReps

def increasing : List Nat → Bool
  | a :: b :: rest => a < b && increasing (b :: rest)
  | _ => true

def isIncreasing (d : Draw) : Bool := increasing d.values

end Draw

end TagPool

end VmxControl
