import VmxControl.Region

/-!
# Named things

A bench keeps things under names, in the order of the names. A memory object is a frame, a raw
region or a stamped one.
-/

namespace VmxControl

/-- Things under distinct names, sorted. -/
abbrev Named (κ α : Type) := List (κ × α)

namespace Named

variable {κ α : Type} [DecidableEq κ]

def get? (xs : Named κ α) (k : κ) : Option α := (xs.find? fun e => e.1 = k).map (·.2)

def put [LT κ] [DecidableLT κ] (k : κ) (x : α) : Named κ α → Named κ α
  | [] => [(k, x)]
  | e :: rest =>
    if k = e.1 then (k, x) :: rest
    else if k < e.1 then (k, x) :: e :: rest
    else e :: put k x rest

def erase (k : κ) (xs : Named κ α) : Named κ α := xs.filter fun e => e.1 ≠ k

/-- What was put under a name is found there, and nothing else is disturbed. -/
theorem get?_put [LT κ] [DecidableLT κ] (xs : Named κ α) (k j : κ) (x : α) :
    get? (put k x xs) j = if k = j then some x else get? xs j := by
  induction xs with
  | nil => by_cases h : k = j <;> simp [put, get?, h]
  | cons e rest ih =>
    unfold put
    split
    · next h => by_cases hj : k = j <;> simp_all [get?]
    · split
      · by_cases hj : k = j <;> simp [get?, hj]
      · by_cases he : e.1 = j <;> by_cases hj : k = j <;> simp_all [get?]

theorem get?_erase_same (xs : Named κ α) (k : κ) : get? (erase k xs) k = none := by
  simp [get?, erase]

end Named

inductive MemoryObject where
  | frame (f : Frame)
  | raw (kind : RegionKind) (r : RawRegion kind)
  | stamped (kind : RegionKind) (r : Region kind)

namespace MemoryObject

def frame? : MemoryObject → Option Frame
  | .frame f => some f
  | _ => none

def heldFrame : MemoryObject → Frame
  | .frame f => f
  | .raw _ r => r.frame
  | .stamped _ r => r.frame

def addr (o : MemoryObject) : PhysAddr := o.heldFrame.addr

/-- The stamped region of the kind that is asked for. -/
def region? (kind : RegionKind) : MemoryObject → Option (Region kind)
  | .stamped k r => if h : k = kind then some (h ▸ r) else none
  | _ => none

end MemoryObject

end VmxControl
