import Mathlib.Algebra.BigOperators.Group.List.Basic
import Mathlib.Data.UInt
import VmxControl.Proofs.ExitQueue

/-!
# What the counters add up to

A record is made of updates, and an update adds to one counter or stamps one time. What is added
does not depend on what was there before, so the counters after any updates are the sums of what
they add, up to the size of a word. Of the stamps only the last one of each kind is left.
-/

namespace VmxControl.Telemetry

/-- What is put on record of a guest. -/
inductive Record where
  | entry (time : UInt64)
  | failedEntry
  | exit (reason : UInt16) (entered time : UInt64)
  deriving DecidableEq, Repr

/-- The counters that are added to. -/
inductive Counter where
  | entries
  | exits
  | failedEntries
  | guestCycles
  | bucket (i : Fin (trackedReasons + 1))
  deriving DecidableEq, Repr

/-- The times that are kept: each is that of the latest record of its kind. -/
inductive Stamp where
  | lastEntry
  | lastExit
  deriving DecidableEq, Repr

def count (t : Telemetry) : Counter → UInt64
  | .entries => t.counters.entries
  | .exits => t.counters.exits
  | .failedEntries => t.counters.failedEntries
  | .guestCycles => t.counters.guestCycles
  | .bucket i => t.buckets.get i

def stamp (t : Telemetry) : Stamp → UInt64
  | .lastEntry => t.counters.lastEntry
  | .lastExit => t.counters.lastExit

theorem exitsFor_eq (t : Telemetry) (reason : UInt16) :
    t.exitsFor reason = t.count (.bucket (bucketOf reason)) := rfl

/-! ## Updates -/

namespace Update

def adds : Update → Counter → Nat
  | .entry, .entries | .exit, .exits | .failedEntry, .failedEntries => 1
  | .cycles spent, .guestCycles => spent.toNat
  | .bucket i, .bucket j => if i = j then 1 else 0
  | _, _ => 0

def stamps : Update → Stamp → Option UInt64
  | .lastEntry time, .lastEntry => some time
  | .lastExit time, .lastExit => some time
  | _, _ => none

/-- The update puts an exit in its bucket. -/
def sorts : Update → Bool
  | .bucket _ => true
  | _ => false

end Update

theorem count_apply (t : Telemetry) (u : Update) (c : Counter) :
    (t.apply u).count c = t.count c + UInt64.ofNat (u.adds c) := by
  cases u with
  | bucket i =>
    cases c with
    | bucket j =>
      show (t.buckets.set i (t.buckets[i] + 1))[j] =
        t.buckets[j] + UInt64.ofNat (if i = j then 1 else 0)
      by_cases h : i = j
      · subst h
        simp
      · have hv : i.val ≠ j.val := fun he => h (Fin.ext he)
        simp [h, hv]
    | _ => simp [count, apply, Update.adds]
  | _ => cases c <;> simp [count, apply, Update.adds]

theorem stamp_apply (t : Telemetry) (u : Update) (x : Stamp) :
    (t.apply u).stamp x = (u.stamps x).getD (t.stamp x) := by
  cases u <;> cases x <;> rfl

@[simp] theorem count_reset (t : Telemetry) (c : Counter) : t.reset.count c = 0 := by
  cases c with
  | bucket i => exact Vector.getElem_replicate i.isLt
  | _ => rfl

@[simp] theorem applyAll_nil (t : Telemetry) : t.applyAll [] = t := rfl

@[simp] theorem applyAll_cons (t : Telemetry) (u : Update) (us : List Update) :
    t.applyAll (u :: us) = (t.apply u).applyAll us := rfl

theorem applyAll_append (t : Telemetry) (us vs : List Update) :
    t.applyAll (us ++ vs) = (t.applyAll us).applyAll vs := List.foldl_append

/-- A counter gains what the updates add to it, in whatever order they come. -/
theorem count_applyAll (t : Telemetry) (us : List Update) (c : Counter) :
    (t.applyAll us).count c = t.count c + UInt64.ofNat (us.map (·.adds c)).sum := by
  induction us generalizing t with
  | nil => simp
  | cons u us ih =>
    rw [applyAll_cons, ih, count_apply, List.map_cons, List.sum_cons, UInt64.ofNat_add,
      UInt64.add_assoc]

/-- The exits that are in buckets. -/
def sorted (t : Telemetry) : UInt64 := t.buckets.toList.sum

@[simp] theorem sorted_reset (t : Telemetry) : t.reset.sorted = 0 := by
  simp [reset, sorted]

theorem sorted_apply (t : Telemetry) (u : Update) :
    (t.apply u).sorted = t.sorted + UInt64.ofNat u.sorts.toNat := by
  cases u with
  | bucket i =>
    have hi : i.val < t.buckets.toList.length := by
      rw [Vector.length_toList]
      exact i.isLt
    simp only [sorted, apply, Vector.toList_set, List.sum_set', dif_pos hi]
    simp [Update.sorts]
  | _ => simp [sorted, apply, Update.sorts]

theorem sorted_applyAll (t : Telemetry) (us : List Update) :
    (t.applyAll us).sorted = t.sorted + UInt64.ofNat (us.countP Update.sorts) := by
  induction us generalizing t with
  | nil => simp
  | cons u us ih =>
    have hc : (u :: us).countP Update.sorts = u.sorts.toNat + us.countP Update.sorts := by
      rw [List.countP_cons, Nat.add_comm]
      cases u.sorts <;> rfl
    rw [applyAll_cons, ih, sorted_apply, hc, UInt64.ofNat_add, UInt64.add_assoc]

/-! ## Records -/

/-- No time passes backwards here either. -/
theorem toNat_elapsed (entered time : UInt64) :
    (elapsed entered time).toNat = time.toNat - entered.toNat := by
  unfold elapsed
  split
  · next h => exact UInt64.toNat_sub_of_le _ _ h
  · next h =>
    have hlt : time.toNat < entered.toNat := UInt64.lt_iff_toNat_lt.1 (UInt64.not_le.1 h)
    simp [Nat.sub_eq_zero_of_le hlt.le]

namespace Record

def updates : Record → List Update
  | .entry time => entryUpdates time
  | .failedEntry => [.failedEntry]
  | .exit reason entered time => exitUpdates reason entered time

/-- An exit is counted, put in the bucket of its reason, and adds the ticks since its entry. -/
def adds : Record → Counter → Nat
  | .entry _, c => if c = .entries then 1 else 0
  | .failedEntry, c => if c = .failedEntries then 1 else 0
  | .exit _ _ _, .exits => 1
  | .exit _ entered time, .guestCycles => time.toNat - entered.toNat
  | .exit reason _ _, .bucket i => if bucketOf reason = i then 1 else 0
  | .exit _ _ _, _ => 0

def stamps : Record → Stamp → Option UInt64
  | .entry time, .lastEntry => some time
  | .exit _ _ time, .lastExit => some time
  | _, _ => none

/-- An exit for the reason; those from 80 up are not told apart. -/
def isExitFor (reason : UInt16) : Record → Bool
  | .exit r _ _ => if reason.toNat < 80 then r == reason else 80 ≤ r.toNat
  | _ => false

theorem adds_updates (r : Record) (c : Counter) : (r.updates.map (·.adds c)).sum = r.adds c := by
  cases r <;> cases c <;>
    simp [updates, entryUpdates, exitUpdates, Update.adds, adds, toNat_elapsed]

theorem stamps_updates (r : Record) (x : Stamp) :
    r.updates.filterMap (·.stamps x) = (r.stamps x).toList := by
  cases r <;> cases x <;> rfl

theorem bucketOf_eq_iff_isExitFor (r reason : UInt16) (entered time : UInt64) :
    bucketOf r = bucketOf reason ↔ isExitFor reason (.exit r entered time) = true := by
  rw [bucketOf_eq_iff, isExitFor]
  split
  · rw [beq_iff_eq, ← UInt16.toNat_inj]
    omega
  · rw [decide_eq_true_eq]
    omega

theorem adds_bucketOf (r : Record) (reason : UInt16) :
    r.adds (.bucket (bucketOf reason)) = (r.isExitFor reason).toNat := by
  cases r with
  | exit r entered time =>
    simp only [adds, bucketOf_eq_iff_isExitFor r reason entered time]
    cases isExitFor reason (.exit r entered time) <;> rfl
  | _ => rfl

end Record

/-- Makes the record. -/
def record (t : Telemetry) : Record → Telemetry
  | .entry time => t.recordEntry time
  | .failedEntry => t.recordFailedEntry
  | .exit reason entered time => t.recordExit reason entered time

theorem record_eq (t : Telemetry) (r : Record) : t.record r = t.applyAll r.updates := by
  cases r <;> rfl

def recordAll (t : Telemetry) (rs : List Record) : Telemetry := rs.foldl record t

theorem recordAll_append (t : Telemetry) (rs rs' : List Record) :
    t.recordAll (rs ++ rs') = (t.recordAll rs).recordAll rs' := List.foldl_append

theorem recordAll_eq (t : Telemetry) (rs : List Record) :
    t.recordAll rs = t.applyAll (rs.flatMap Record.updates) := by
  induction rs generalizing t with
  | nil => rfl
  | cons r rs ih =>
    rw [List.flatMap_cons, applyAll_append, ← record_eq, ← ih]
    rfl

theorem adds_flatMap (rs : List Record) (c : Counter) :
    ((rs.flatMap Record.updates).map (·.adds c)).sum = (rs.map (·.adds c)).sum := by
  induction rs with
  | nil => rfl
  | cons r rs ih => simp only [List.flatMap_cons, List.map_append, List.sum_append, List.map_cons,
      List.sum_cons, r.adds_updates, ih]

theorem stamps_flatMap (rs : List Record) (x : Stamp) :
    (rs.flatMap Record.updates).filterMap (·.stamps x) = rs.filterMap (·.stamps x) := by
  induction rs with
  | nil => rfl
  | cons r rs ih =>
    rw [List.flatMap_cons, List.filterMap_append, r.stamps_updates, ih, List.filterMap_cons]
    cases r.stamps x <;> rfl

/-- A counter gains what the records add to it. -/
theorem count_recordAll (t : Telemetry) (rs : List Record) (c : Counter) :
    (t.recordAll rs).count c = t.count c + UInt64.ofNat (rs.map (·.adds c)).sum := by
  rw [recordAll_eq, count_applyAll, adds_flatMap]

/-- Every exit is put in one bucket. -/
theorem sorted_recordAll (t : Telemetry) (rs : List Record) :
    (t.recordAll rs).sorted = t.sorted + UInt64.ofNat (rs.map (·.adds .exits)).sum := by
  have hs : (rs.flatMap Record.updates).countP Update.sorts = (rs.map (·.adds .exits)).sum := by
    induction rs with
    | nil => rfl
    | cons r rs ih =>
      rw [List.flatMap_cons, List.countP_append, ih, List.map_cons, List.sum_cons]
      cases r <;> rfl
  rw [recordAll_eq, sorted_applyAll, hs]

/-- Exits are counted by their reasons. -/
theorem adds_bucketOf_sum (rs : List Record) (reason : UInt16) :
    (rs.map (·.adds (.bucket (bucketOf reason)))).sum = rs.countP (·.isExitFor reason) := by
  induction rs with
  | nil => rfl
  | cons r rs ih =>
    rw [List.map_cons, List.sum_cons, ih, r.adds_bucketOf, List.countP_cons]
    cases r.isExitFor reason <;> simp [Nat.add_comm]

end VmxControl.Telemetry
