import Mathlib.Data.List.Nodup
import VmxControl.Run
import VmxControl.Tag

/-!
# Sharing a pool of tags

Threads share one pool, and each of their calls takes one step on it, in whatever order they come. A
schedule says which thread is next, so the schedules are all interleavings of all threads. The pool
keeps no account but the next tag, and this is enough: after `n` tags it is `n + 1`, whoever got them.
-/

namespace VmxControl

namespace TagPool

variable {ι : Type}

/-- A call of one of the threads, and the answer it gets. -/
def serve (s : TagPool × Host) (i : ι) : (ι × Except Failure Tag) × TagPool × Host :=
  let (a, s) := s.1.allocate s.2
  ((i, a), s)

/-- The answers to the calls of a schedule, and what the last one leaves. -/
def serveAll (s : TagPool × Host) (schedule : List ι) :
    List (ι × Except Failure Tag) × TagPool × Host :=
  Run.answers serve s schedule

/-- The tags among the answers. -/
def granted (answers : List (ι × Except Failure Tag)) : List Tag :=
  answers.filterMap fun a => a.2.toOption

theorem granted_refused (schedule : List ι) (e : Failure) :
    granted (schedule.map (·, .error e)) = [] := by
  simp [granted, Except.toOption]

/-- The tags that one thread has got. -/
def grantedTo [DecidableEq ι] (i : ι) (answers : List (ι × Except Failure Tag)) : List Tag :=
  granted (answers.filter fun a => a.1 = i)

/-- The tags up to `n` are handed out, and no others. -/
structure Issued (p : TagPool) (n : Nat) : Prop where
  next : p.next.toNat = n + 1
  bound : n ≤ 65535

theorem issued_new : ({} : TagPool).Issued 0 := ⟨rfl, by decide⟩

namespace Issued

variable {p : TagPool} {n : Nat}

theorem allocated (h : p.Issued n) : p.allocated.toNat = n := by
  have hn := h.next
  have hle : (1 : UInt32) ≤ p.next := UInt32.le_iff_toNat_le.2 (by rw [hn]; simp)
  rw [TagPool.allocated, UInt32.toNat_sub_of_le _ _ hle, hn]
  rfl

/-- Below the last tag a step hands out the next one. -/
theorem take (h : p.Issued n) (hn : n < 65535) :
    ∃ t q, p.take? = (some t, q) ∧ t.value.toNat = n + 1 ∧ q.Issued (n + 1) := by
  have hp := h.next
  have hle : p.next ≤ 65535 := UInt32.le_iff_toNat_le.2 (by rw [hp]; exact hn)
  refine ⟨⟨p.next.toUInt16⟩, ⟨p.next + 1⟩, if_pos hle, ?_, ?_, hn⟩
  · rw [UInt32.toNat_toUInt16, hp]
    exact Nat.mod_eq_of_lt (by omega)
  · rw [UInt32.toNat_add, hp]
    exact Nat.mod_eq_of_lt (by simp; omega)

theorem take_last (h : p.Issued 65535) : p.take? = (none, p) := by
  refine if_neg fun hle => ?_
  have hp := UInt32.le_iff_toNat_le.1 hle
  rw [h.next] at hp
  exact absurd hp (by decide)

theorem serve (h : p.Issued n) (hn : n < 65535) (host : Host) (i : ι) :
    ∃ t q, TagPool.serve (p, host) i = ((i, .ok t), q, host) ∧ t.value.toNat = n + 1 ∧
      q.Issued (n + 1) := by
  obtain ⟨t, q, ht, hv, hq⟩ := h.take hn
  exact ⟨t, q, by simp only [TagPool.serve, allocate, ht], hv, hq⟩

theorem serve_last (h : p.Issued 65535) (host : Host) (i : ι) :
    TagPool.serve (p, host) i = ((i, .error .tagsExhausted), p, host.note .tagsExhausted) := by
  simp only [TagPool.serve, allocate, h.take_last]

/-- Once the last tag is handed out every call fails, and the pool stays as it is. -/
theorem serveAll_last (h : p.Issued 65535) (host : Host) (schedule : List ι) :
    (serveAll (p, host) schedule).1 = schedule.map (·, .error .tagsExhausted) ∧
      (serveAll (p, host) schedule).2.1 = p := by
  induction schedule generalizing host with
  | nil => exact ⟨rfl, rfl⟩
  | cons i schedule ih =>
    obtain ⟨ha, hp⟩ := ih (host.note .tagsExhausted)
    simp only [serveAll, Run.answers_cons, h.serve_last, List.map_cons] at ha hp ⊢
    exact ⟨congrArg _ ha, hp⟩

/-- A schedule hands out the next tags in their order, until there are no more. -/
theorem serveAll (h : p.Issued n) (host : Host) (schedule : List ι) :
    ((granted (TagPool.serveAll (p, host) schedule).1).map fun t => t.value.toNat) =
        List.range' (n + 1) (min schedule.length (65535 - n)) ∧
      (TagPool.serveAll (p, host) schedule).2.1.Issued
        (n + min schedule.length (65535 - n)) := by
  induction schedule generalizing p n host with
  | nil => simpa [TagPool.serveAll, granted] using h
  | cons i schedule ih =>
    -- The call finds the last tag gone, or it takes the next one and the rest starts from there.
    obtain rfl | hn := Nat.eq_or_lt_of_le h.bound
    · obtain ⟨ha, hp⟩ := h.serveAll_last host (i :: schedule)
      rw [ha, hp, granted_refused]
      simpa using h
    · obtain ⟨t, q, hs, hv, hq⟩ := h.serve hn host i
      obtain ⟨ht, hi⟩ := ih hq host
      have hm : min (i :: schedule).length (65535 - n) =
          min schedule.length (65535 - (n + 1)) + 1 := by
        rw [List.length_cons]
        omega
      have ha : TagPool.serveAll (p, host) (i :: schedule) =
          ((i, .ok t) :: (TagPool.serveAll (q, host) schedule).1,
            (TagPool.serveAll (q, host) schedule).2) := by
        rw [TagPool.serveAll, Run.answers_cons, hs]
        rfl
      rw [ha, hm, List.range'_succ, ← ht]
      refine ⟨congrArg (· :: _) hv, ?_⟩
      rw [Nat.add_comm _ 1, ← Nat.add_assoc]
      exact hi

end Issued

/-- The answers of a shared pool, and what it says of itself after them. -/
structure Shares [DecidableEq ι] (answers : List (ι × Except Failure Tag)) (p : TagPool) : Prop where
  /-- The tags come in the order of the calls that got them, none left out. -/
  tags : ((granted answers).map fun t => t.value.toNat) = List.range' 1 (granted answers).length
  distinct : (granted answers).Nodup
  guests : Tag.host ∉ granted answers
  increasing : ∀ i, ((grantedTo i answers).map fun t => t.value.toNat).Pairwise (· < ·)
  allocated : p.allocated.toNat = (granted answers).length
  next : p.next.toNat = (granted answers).length + 1

theorem Issued.shares [DecidableEq ι] {p : TagPool} {answers : List (ι × Except Failure Tag)}
    (h : p.Issued (granted answers).length)
    (ht : ((granted answers).map fun t => t.value.toNat) =
      List.range' 1 (granted answers).length) : Shares answers p where
  tags := ht
  distinct := by
    refine List.Nodup.of_map (fun t => t.value.toNat) ?_
    rw [ht]
    exact List.nodup_range'
  guests hm := by
    have h0 : Tag.host.value.toNat ∈ (granted answers).map fun t => t.value.toNat :=
      List.mem_map_of_mem hm
    rw [ht, List.mem_range'_1] at h0
    exact absurd h0.1 (by decide)
  increasing i := by
    have hs : ((grantedTo i answers).map fun t => t.value.toNat).Sublist
        ((granted answers).map fun t => t.value.toNat) :=
      (List.filter_sublist.filterMap _).map _
    rw [ht] at hs
    exact List.Pairwise.sublist hs List.pairwise_lt_range'
  allocated := h.allocated
  next := h.next

/-- A new pool, shared by any threads under any schedule, hands out each tag once and in order, and the
host's never, and it counts what it hands out. It refuses no call before the last tag is out; from then
on it refuses every call and does not change. -/
theorem shared_pool_issues_each_tag_once [DecidableEq ι] (host : Host) (schedule : List ι) :
    Shares (serveAll ({}, host) schedule).1 (serveAll ({}, host) schedule).2.1 ∧
    (granted (serveAll ({}, host) schedule).1).length = min schedule.length 65535 ∧
    ((granted (serveAll ({}, host) schedule).1).length = 65535 → ∀ later : List ι,
      (serveAll ({}, host) (schedule ++ later)).1 =
        (serveAll ({}, host) schedule).1 ++ later.map (·, .error .tagsExhausted) ∧
      (serveAll ({}, host) (schedule ++ later)).2.1 = (serveAll ({}, host) schedule).2.1) := by
  obtain ⟨ht, hi⟩ := issued_new.serveAll host schedule
  rw [Nat.zero_add] at ht hi
  rw [Nat.sub_zero] at ht hi
  have hn : (granted (serveAll ({}, host) schedule).1).length = min schedule.length 65535 := by
    simpa using congrArg List.length ht
  rw [← hn] at ht hi
  refine ⟨hi.shares ht, hn, fun hl later => ?_⟩
  rw [hl] at hi
  obtain ⟨ha, hp⟩ := hi.serveAll_last (serveAll ({}, host) schedule).2.2 later
  have hs : serveAll ({}, host) (schedule ++ later) = _ := Run.answers_append serve _ schedule later
  rw [hs]
  exact ⟨congrArg _ ha, hp⟩

end TagPool

end VmxControl
