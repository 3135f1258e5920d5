import Mathlib.Data.List.Perm.Basic
import VmxControl.Proofs.Counting

/-!
# Counting in threads

Threads share the counters. Each makes its records one after the other and a record update by
update, and between any two updates of a thread there may be updates of the others. A schedule says
which thread is next, so the schedules are all interleavings. No update is lost, for adding commutes
with adding; a stamp may be overwritten, and what is left at the end is the last one of some thread.
-/

namespace VmxControl.Telemetry

namespace Record

/-- The update that a record begins with. -/
def first : Record → Update
  | .entry _ => .entry
  | .failedEntry => .failedEntry
  | .exit _ _ _ => .exit

/-- The updates that follow. -/
def others : Record → List Update
  | .entry time => [.lastEntry time]
  | .failedEntry => []
  | .exit reason entered time =>
    [.lastExit time, .cycles (elapsed entered time), .bucket (bucketOf reason)]

theorem updates_eq (r : Record) : r.updates = r.first :: r.others := by
  cases r <;> rfl

end Record

/-! ## Threads -/

/-- A thread is between two records, or amid one that it has begun and of which it has made `k`
more updates. -/
inductive Thread where
  | between (ahead : List Record)
  | amid (r : Record) (k : Fin r.others.length) (ahead : List Record)

namespace Thread

/-- The thread that has begun a record and made `k` more updates of it. -/
def past (r : Record) (k : Nat) (ahead : List Record) : Thread :=
  if h : k < r.others.length then .amid r ⟨k, h⟩ ahead else .between ahead

/-- The next update of a thread, and the thread that has made it. -/
def next? : Thread → Option (Update × Thread)
  | .between [] => none
  | .between (r :: ahead) => some (r.first, past r 0 ahead)
  | .amid r k ahead => some (r.others[k], past r (k + 1) ahead)

/-- The updates that the thread has not made. -/
def left : Thread → List Update
  | .between ahead => ahead.flatMap Record.updates
  | .amid r k ahead => r.others.drop k ++ ahead.flatMap Record.updates

/-- The thread is amid the record of an exit. -/
def exiting : Thread → Bool
  | .amid (.exit _ _ _) _ _ => true
  | _ => false

theorem left_past (r : Record) (k : Nat) (ahead : List Record) :
    (past r k ahead).left = r.others.drop k ++ ahead.flatMap Record.updates := by
  unfold past
  split
  · rfl
  · next h => rw [List.drop_eq_nil_of_le (Nat.le_of_not_lt h), List.nil_append, left]

theorem left_of_next? {th th' : Thread} {u : Update} (h : th.next? = some (u, th')) :
    th.left = u :: th'.left := by
  cases th with
  | between ahead =>
    cases ahead with
    | nil => cases h
    | cons r ahead =>
      cases h
      rw [left_past, left, List.flatMap_cons, r.updates_eq]
      rfl
  | amid r k ahead =>
    cases h
    rw [left_past, left, ← List.cons_append, Fin.getElem_fin, List.getElem_cons_drop]

theorem left_of_next?_none {th : Thread} (h : th.next? = none) : th.left = [] := by
  cases th with
  | between ahead =>
    cases ahead with
    | nil => rfl
    | cons r ahead => cases h
  | amid r k ahead => cases h

/-- The record of an exit is begun by counting the exit, and it ends with the bucket. -/
theorem exiting_of_next? {th th' : Thread} {u : Update} (h : th.next? = some (u, th')) :
    (u == .exit).toNat + th.exiting.toNat = u.sorts.toNat + th'.exiting.toNat := by
  cases th with
  | between ahead =>
    cases ahead with
    | nil => cases h
    | cons r ahead =>
      cases h
      cases r <;> rfl
  | amid r k ahead =>
    cases h
    cases r with
    | entry time =>
      change Fin 1 at k
      match k with
      | 0 => rfl
    | failedEntry => exact k.elim0
    | exit reason entered time =>
      change Fin 3 at k
      match k with
      | 0 | 1 | 2 => rfl

end Thread

/-! ## Threads at work -/

/-- Threads at work, and the counters that they share. -/
structure Sharing where
  telemetry : Telemetry
  threads : List Thread

namespace Sharing

/-- Threads that have yet to make these records. -/
def new (t : Telemetry) (threads : List (List Record)) : Sharing := ⟨t, threads.map .between⟩

/-- The thread makes its next update, if it has one. -/
def step (s : Sharing) (i : Nat) : Option Update × Sharing :=
  match s.threads[i]?.bind Thread.next? with
  | some (u, th) => (some u, ⟨s.telemetry.apply u, s.threads.set i th⟩)
  | none => (none, s)

/-- The updates that are made under a schedule, and what they leave. -/
def run (s : Sharing) : List Nat → List Update × Sharing
  | [] => ([], s)
  | i :: schedule =>
    ((s.step i).1.toList ++ ((s.step i).2.run schedule).1, ((s.step i).2.run schedule).2)

/-- No thread has anything left to do. -/
def Complete (s : Sharing) : Prop := ∀ th ∈ s.threads, th.next? = none

instance (s : Sharing) : Decidable s.Complete :=
  inferInstanceAs (Decidable (∀ th ∈ s.threads, th.next? = none))

/-- The updates that are still to be made. -/
def left (s : Sharing) : List Update := s.threads.flatMap Thread.left

/-- The records of exits that are begun and not complete. -/
def exiting (s : Sharing) : Nat := s.threads.countP Thread.exiting

/-- In `t` the stamp is the last one that some thread of `s` has to make, or that of `s` if there is
none to make. -/
def Settles (x : Stamp) (s t : Sharing) : Prop :=
  (∃ th ∈ s.threads, (th.left.filterMap (·.stamps x)).getLast? = some (t.telemetry.stamp x)) ∨
  (∀ th ∈ s.threads, th.left.filterMap (·.stamps x) = []) ∧
    t.telemetry.stamp x = s.telemetry.stamp x

/-- One of the threads makes the update; the rest of them stay as they are. -/
structure Makes (s : Sharing) (u : Update) (s' : Sharing) : Prop where
  telemetry : s'.telemetry = s.telemetry.apply u
  threads : ∃ th th' rest, th.next? = some (u, th') ∧ s.threads.Perm (th :: rest) ∧
    s'.threads.Perm (th' :: rest)

theorem step_cases (s : Sharing) (i : Nat) :
    s.step i = (none, s) ∨ ∃ u s', s.step i = (some u, s') ∧ s.Makes u s' := by
  unfold step
  split
  · next u th' he =>
    obtain ⟨th, hi, hn⟩ := Option.bind_eq_some_iff.1 he
    obtain ⟨hlt, rfl⟩ := List.getElem?_eq_some_iff.1 hi
    exact .inr ⟨u, _, rfl, rfl, s.threads[i], th', s.threads.eraseIdx i, hn,
      (List.getElem_cons_eraseIdx_perm hlt).symm, List.set_perm_cons_eraseIdx hlt th'⟩
  · exact .inl rfl

/-- The updates lead from one state to the other. -/
inductive Leads : Sharing → List Update → Sharing → Prop
  | refl (s : Sharing) : Leads s [] s
  | step {s s' t : Sharing} {u : Update} {us : List Update} (hu : s.Makes u s')
      (hr : Leads s' us t) : Leads s (u :: us) t

theorem leads_run (s : Sharing) (schedule : List Nat) :
    s.Leads (s.run schedule).1 (s.run schedule).2 := by
  induction schedule generalizing s with
  | nil => exact .refl s
  | cons i schedule ih =>
    obtain he | ⟨u, s', he, hu⟩ := s.step_cases i
    · simp only [run, he]
      exact ih s
    · simp only [run, he]
      exact .step hu (ih s')

/-! ## What a step keeps -/

namespace Makes

variable {s s' : Sharing} {u : Update}

theorem left (h : s.Makes u s') : s.left.Perm (u :: s'.left) := by
  obtain ⟨th, th', rest, hn, hs, hs'⟩ := h.threads
  have hl := hs.flatMap_right Thread.left
  rw [List.flatMap_cons, Thread.left_of_next? hn] at hl
  exact hl.trans (.cons u (hs'.flatMap_right Thread.left).symm)

theorem exiting (h : s.Makes u s') :
    (u == .exit).toNat + s.exiting = u.sorts.toNat + s'.exiting := by
  obtain ⟨th, th', rest, hn, hs, hs'⟩ := h.threads
  have he := Thread.exiting_of_next? hn
  have hc : ∀ x : Thread, (x :: rest).countP Thread.exiting =
      rest.countP Thread.exiting + x.exiting.toNat := by
    intro x
    rw [List.countP_cons]
    cases x.exiting <;> rfl
  rw [Sharing.exiting, Sharing.exiting, hs.countP_eq, hs'.countP_eq, hc, hc]
  omega

/-- A stamp is settled by what comes later, unless nothing does. -/
theorem settles (h : s.Makes u s') {x : Stamp} {t : Sharing} (hx : s'.Settles x t) :
    s.Settles x t := by
  obtain ⟨th, th', rest, hn, hs, hs'⟩ := h.threads
  have hl : th.left.filterMap (·.stamps x) =
      (u.stamps x).toList ++ th'.left.filterMap (·.stamps x) := by
    rw [Thread.left_of_next? hn, List.filterMap_cons]
    cases u.stamps x <;> rfl
  have hth : th ∈ s.threads := hs.mem_iff.2 List.mem_cons_self
  have hrest : ∀ y ∈ rest, y ∈ s.threads := fun y hy => hs.mem_iff.2 (List.mem_cons_of_mem _ hy)
  obtain ⟨y, hy, hlast⟩ | ⟨hnone, hkeep⟩ := hx
  · obtain rfl | hy := List.mem_cons.1 (hs'.mem_iff.1 hy)
    · refine .inl ⟨th, hth, ?_⟩
      rw [hl, List.getLast?_append, hlast]
      rfl
    · exact .inl ⟨y, hrest y hy, hlast⟩
  · rw [h.telemetry, stamp_apply] at hkeep
    rw [hnone th' (hs'.mem_iff.2 List.mem_cons_self), List.append_nil] at hl
    cases hu : u.stamps x with
    | some time =>
      rw [hu] at hl hkeep
      exact .inl ⟨th, hth, by rw [hl, hkeep]; rfl⟩
    | none =>
      rw [hu] at hl hkeep
      refine .inr ⟨fun y hy => ?_, hkeep⟩
      obtain rfl | hy := List.mem_cons.1 (hs.mem_iff.1 hy)
      · exact hl
      · exact hnone y (hs'.mem_iff.2 (List.mem_cons_of_mem _ hy))

end Makes

/-! ## What a run keeps -/

namespace Leads

variable {s t : Sharing} {us : List Update}

theorem telemetry (h : s.Leads us t) : t.telemetry = s.telemetry.applyAll us := by
  induction h with
  | refl s => rfl
  | step hu _ ih => rw [ih, hu.telemetry, applyAll_cons]

/-- Every update is made or still to be made. -/
theorem left (h : s.Leads us t) : s.left.Perm (us ++ t.left) := by
  induction h with
  | refl s => exact .refl _
  | step hu _ ih => exact hu.left.trans (.cons _ ih)

/-- Exits that are counted but not yet in a bucket belong to records that are not complete. -/
theorem exiting (h : s.Leads us t) :
    us.count .exit + s.exiting = us.countP Update.sorts + t.exiting := by
  induction h with
  | refl s => rfl
  | @step s s' t u us hu _ ih =>
    have he := hu.exiting
    have hx : (u :: us).count .exit = us.count .exit + (u == .exit).toNat := by
      rw [List.count_cons]
      cases u == .exit <;> rfl
    have hb : (u :: us).countP Update.sorts = us.countP Update.sorts + u.sorts.toNat := by
      rw [List.countP_cons]
      cases u.sorts <;> rfl
    rw [hx, hb]
    omega

theorem settles (h : s.Leads us t) (ht : t.Complete) (x : Stamp) : s.Settles x t := by
  induction h with
  | refl s =>
    refine .inr ⟨fun th hth => ?_, rfl⟩
    rw [Thread.left_of_next?_none (ht th hth)]
    rfl
  | step hu _ ih => exact hu.settles (ih ht)

end Leads

theorem Complete.left {s : Sharing} (h : s.Complete) : s.left = [] :=
  List.flatMap_eq_nil_iff.2 fun th hth => Thread.left_of_next?_none (h th hth)

theorem left_new (t : Telemetry) (threads : List (List Record)) :
    (new t threads).left = threads.flatten.flatMap Record.updates := by
  induction threads with
  | nil => rfl
  | cons records threads ih =>
    rw [List.flatten_cons, List.flatMap_append, ← ih]
    rfl

theorem exiting_new (t : Telemetry) (threads : List (List Record)) :
    (new t threads).exiting = 0 := by
  rw [exiting, List.countP_eq_zero]
  intro th hth
  obtain ⟨records, -, rfl⟩ := List.mem_map.1 hth
  exact Bool.false_ne_true

/-- Threads that are not done can go on until they are. -/
theorem exists_complete (s : Sharing) : ∃ schedule, (s.run schedule).2.Complete := by
  -- Every step takes one update off those that are still to be made.
  induction hn : s.left.length generalizing s with
  | zero =>
    refine ⟨[], fun th hth => ?_⟩
    have hl : th.left = [] := List.flatMap_eq_nil_iff.1 (List.eq_nil_of_length_eq_zero hn) th hth
    cases h : th.next? with
    | none => rfl
    | some r => cases hl.symm.trans (Thread.left_of_next? h)
  | succ n ih =>
    by_cases hs : s.Complete
    · exact ⟨[], hs⟩
    · simp only [Complete, not_forall] at hs
      obtain ⟨th, hth, hne⟩ := hs
      obtain ⟨i, hi⟩ := List.mem_iff_getElem?.1 hth
      obtain he | ⟨u, s', he, hu⟩ := s.step_cases i
      · obtain ⟨r, hr⟩ := Option.ne_none_iff_exists'.1 hne
        simp [step, hi, hr] at he
      · obtain ⟨schedule, hd⟩ := ih s' (Nat.succ_injective (hu.left.length_eq.symm.trans hn))
        exact ⟨i :: schedule, by simpa only [run, he] using hd⟩

/-- Once all threads are done, a counter has gained what their records add to it. -/
theorem Leads.count {t : Telemetry} {threads : List (List Record)} {us : List Update} {s : Sharing}
    (h : (new t threads).Leads us s) (hs : s.Complete) (c : Counter) :
    s.telemetry.count c = t.count c + UInt64.ofNat (threads.flatten.map (·.adds c)).sum := by
  have hp := h.left
  rw [hs.left, List.append_nil, left_new] at hp
  rw [h.telemetry, count_applyAll, ← adds_flatMap, (hp.map _).sum_eq]
  rfl

theorem settles_new {t : Telemetry} {threads : List (List Record)} {s : Sharing} {x : Stamp}
    (h : (new t threads).Settles x s) :
    (∃ records ∈ threads, (records.filterMap (·.stamps x)).getLast? = some (s.telemetry.stamp x)) ∨
    (∀ records ∈ threads, records.filterMap (·.stamps x) = []) ∧
      s.telemetry.stamp x = t.stamp x := by
  obtain ⟨th, hth, hlast⟩ | ⟨hnone, hkeep⟩ := h
  · obtain ⟨records, hr, rfl⟩ := List.mem_map.1 hth
    exact .inl ⟨records, hr, by rw [← hlast, Thread.left, stamps_flatMap]⟩
  · refine .inr ⟨fun records hr => ?_, hkeep⟩
    rw [← stamps_flatMap]
    exact hnone (.between records) (List.mem_map_of_mem hr)

/-- Threads share the counters and make any records under any schedule. At every point the counters
are what the updates made so far give, and the exits that are counted but not yet in a bucket are as
many as there are records of exits begun and not complete; and the threads can go on until they are
done. Then every counter has gained what the records add to it, as it would in any order of the
records one after the other, exits being told apart by their reasons below 80. A stamp is then the
last one of some thread, if any thread had one to make. -/
theorem interleaved_records_all_count (t : Telemetry) (threads : List (List Record))
    (schedule : List Nat) :
    let us := ((new t threads).run schedule).1
    let s := ((new t threads).run schedule).2
    s.telemetry = t.applyAll us ∧ us.count .exit = us.countP Update.sorts + s.exiting ∧
    (∃ later, (s.run later).2.Complete) ∧
    (s.Complete →
      (∀ c, s.telemetry.count c = t.count c + UInt64.ofNat (threads.flatten.map (·.adds c)).sum) ∧
      (∀ order, order.Perm threads.flatten → ∀ c,
        s.telemetry.count c = (t.recordAll order).count c) ∧
      (∀ reason, s.telemetry.exitsFor reason =
        t.exitsFor reason + UInt64.ofNat (threads.flatten.countP (·.isExitFor reason))) ∧
      ∀ x, (∃ records ∈ threads,
          (records.filterMap (·.stamps x)).getLast? = some (s.telemetry.stamp x)) ∨
        (∀ records ∈ threads, records.filterMap (·.stamps x) = []) ∧
          s.telemetry.stamp x = t.stamp x) := by
  have h := (new t threads).leads_run schedule
  have he := h.exiting
  rw [exiting_new, Nat.add_zero] at he
  refine ⟨h.telemetry, he, exists_complete _, fun hs => ⟨h.count hs, fun order ho c => ?_,
    fun reason => ?_, fun x => settles_new (h.settles hs x)⟩⟩
  · rw [h.count hs, count_recordAll, (ho.map _).sum_eq]
  · rw [exitsFor_eq, h.count hs, adds_bucketOf_sum, exitsFor_eq]

/-- Two guests, one of which fails to be entered and seems to leave before it was entered. -/
def twoGuests : List (List Record) :=
  [[.entry 5, .exit 12 5 9], [.exit 90 7 3, .failedEntry, .entry 8]]

/-- The threads take turns until both are done. -/
def takingTurns : List Nat := [0, 1, 1, 0, 0, 1, 1, 0, 1, 1, 0, 1, 0]

/-- Their records have gone through each other and all of them count. -/
theorem two_guests_all_count :
    let s := ((new {} twoGuests).run takingTurns).2
    s.Complete ∧ s.telemetry.count .entries = 2 ∧ s.telemetry.count .exits = 2 ∧
      s.telemetry.count .failedEntries = 1 ∧ s.telemetry.count .guestCycles = 4 ∧
      s.telemetry.exitsFor 12 = 1 ∧ s.telemetry.exitsFor 80 = 1 := by
  have hs : ((new {} twoGuests).run takingTurns).2.Complete := by decide
  obtain ⟨-, -, -, h⟩ := interleaved_records_all_count {} twoGuests takingTurns
  obtain ⟨hc, -, hr, -⟩ := h hs
  exact ⟨hs, hc .entries, hc .exits, hc .failedEntries, hc .guestCycles, hr 12, hr 80⟩

end Sharing

end VmxControl.Telemetry
