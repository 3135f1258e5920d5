import Mathlib.Data.Nat.Bitwise
import VmxControl.Proofs.LaunchState

/-!
# A dispatcher as a queue of exits

What a dispatcher and its processor do with a structure that was just loaded is what a small machine
does: it has a queue of exits, perhaps the number of a failure to come, and one bit for the launch state.
Its tallies are what the counters and the processor count, as far as a word of 64 bits can tell.
-/

namespace VmxControl

/-! ## The queue -/

/-- What happens to a guest from outside, and the runs of it. -/
inductive GuestEvent where
  | queueExit (reason : UInt32) (qualification : UInt64)
  | failEntry (code : UInt32)
  | run
  deriving DecidableEq, Repr

/-- What a run shows of an exit. -/
structure ShownExit where
  reason : Nat
  entryFailure : Bool
  qualification : UInt64
  deriving DecidableEq, Repr

structure ExitQueue where
  exits : List (UInt32 × UInt64)
  failing : Option UInt32
  launched : Bool := false
  /-- The basic reasons of the exits after which the guest counts as entered, the latest first. -/
  entered : List Nat := []
  failed : Nat := 0
  launches : Nat := 0
  resumes : Nat := 0
  deriving DecidableEq, Repr

namespace ExitQueue

/-- A run sends VMLAUNCH until the structure is launched, and VMRESUME from then on. -/
def attempt (m : ExitQueue) : ExitQueue :=
  if m.launched then { m with resumes := m.resumes + 1 } else { m with launches := m.launches + 1 }

@[simp] theorem exits_attempt (m : ExitQueue) : m.attempt.exits = m.exits := by
  unfold attempt; split <;> rfl

@[simp] theorem failing_attempt (m : ExitQueue) : m.attempt.failing = m.failing := by
  unfold attempt; split <;> rfl

@[simp] theorem launched_attempt (m : ExitQueue) : m.attempt.launched = m.launched := by
  unfold attempt; split <;> rfl

@[simp] theorem entered_attempt (m : ExitQueue) : m.attempt.entered = m.entered := by
  unfold attempt; split <;> rfl

@[simp] theorem failed_attempt (m : ExitQueue) : m.attempt.failed = m.failed := by
  unfold attempt; split <;> rfl

def refuse (m : ExitQueue) : ExitQueue := { m with failing := none, failed := m.failed + 1 }

/-- The exit at the head of the queue; a guest for which none is queued halts. -/
def head (m : ExitQueue) : UInt32 × UInt64 := m.exits.head?.getD (12, 0)

def shown (m : ExitQueue) : ShownExit :=
  ⟨m.head.1.toNat % 2 ^ 16, m.head.1.toNat.testBit 31, m.head.2⟩

@[simp] theorem shown_attempt (m : ExitQueue) : m.attempt.shown = m.shown := by
  simp [shown, head]

/-- An exit that stands for a failed entry does not launch. -/
def leave (m : ExitQueue) : ExitQueue :=
  if m.shown.entryFailure then { m with exits := m.exits.tail, failed := m.failed + 1 }
  else { m with
    exits := m.exits.tail
    launched := true
    entered := m.shown.reason :: m.entered }

theorem launched_leave (m : ExitQueue) :
    m.leave.launched = if m.shown.entryFailure then m.launched else true := by
  unfold leave; split <;> rfl

def run (m : ExitQueue) : Except UInt32 ShownExit × ExitQueue :=
  match m.failing with
  | some code => (.error code, m.attempt.refuse)
  | none => (.ok m.shown, m.attempt.leave)

/-- The answers to the runs among the events. -/
def serve (m : ExitQueue) : List GuestEvent → List (Except UInt32 ShownExit) × ExitQueue
  | [] => ([], m)
  | .queueExit reason qualification :: es =>
    { m with exits := m.exits ++ [(reason, qualification)] }.serve es
  | .failEntry code :: es => { m with failing := some code }.serve es
  | .run :: es => (m.run.1 :: (m.run.2.serve es).1, (m.run.2.serve es).2)

theorem tally_run (m : ExitQueue) :
    m.run.2.failed + m.run.2.entered.length = m.failed + m.entered.length + 1 := by
  unfold run
  split
  · simp [refuse]
    omega
  · unfold leave
    split
    · simp
      omega
    · simp
      omega

/-- Every run counts as failed or as entered. -/
theorem tally_serve (m : ExitQueue) (es : List GuestEvent) :
    (m.serve es).2.failed + (m.serve es).2.entered.length =
      m.failed + m.entered.length + es.count .run := by
  induction es generalizing m with
  | nil => rfl
  | cons e es ih =>
    cases e with
    | queueExit reason qualification =>
      rw [serve, ih]
      simp
    | failEntry code =>
      rw [serve, ih]
      simp
    | run =>
      have ht := m.tally_run
      rw [serve, ih, List.count_cons_self]
      omega

end ExitQueue

/-- The dispatcher answers what the queue does; it says besides when the exit was taken. -/
def Shows (r : Except Trap (Except Failure ExitRecord)) : Except UInt32 ShownExit → Prop
  | .error code => r = .ok (.error (.valid ⟨code⟩))
  | .ok x => ∃ record, r = .ok (.ok record) ∧ record.reason.toNat = x.reason ∧
      record.entryFailure = x.entryFailure ∧ record.qualification = x.qualification

def Running.serve (w : Running Emulator) :
    List GuestEvent → List (Except Trap (Except Failure ExitRecord)) × Running Emulator
  | [] => ([], w)
  | .queueExit reason qualification :: es =>
    { w with machine.processor := w.machine.processor.queueExit reason qualification }.serve es
  | .failEntry code :: es =>
    { w with machine.processor := w.machine.processor.failEntry code }.serve es
  | .run :: es => (w.run.1 :: (w.run.2.serve es).1, (w.run.2.serve es).2)

/-! ## The word of an exit -/

namespace RawExit

theorem toNat_basic (r : RawExit) : r.basic.toNat = r.word.toNat % 2 ^ 16 :=
  UInt32.toNat_toUInt16 r.word

theorem entryFailure_eq (r : RawExit) : r.entryFailure = r.word.toNat.testBit 31 := by
  have h : (r.word &&& entryFailureBit).toNat = (r.word.toNat.testBit 31).toNat * 2 ^ 31 := by
    rw [UInt32.toNat_and]
    exact Nat.and_two_pow _ 31
  cases hb : r.word.toNat.testBit 31 with
  | false =>
    have h0 : r.word &&& entryFailureBit = 0 := UInt32.toNat_inj.1 (h.trans (by rw [hb]; rfl))
    rw [entryFailure, h0]
    rfl
  | true =>
    rw [entryFailure, bne_iff_ne]
    intro h0
    rw [h0, hb] at h
    cases h

end RawExit

/-! ## Entries -/

namespace Emulator

theorem vmread_ok {e : Emulator} {a : PhysAddr} {field : UInt32} (hc : e.current = some a)
    (hp : e.pending (.vmread field) = false) : e.vmread field = (.ok (e.fields.get (a, field)), e) := by
  obtain ⟨hx, -⟩ | ⟨-, he⟩ := vmread_cases hc field
  · cases hp.symm.trans hx
  · exact he

@[simp] theorem current_count (e : Emulator) (k : Entry) : (e.count k).current = e.current := by
  cases k <;> rfl

@[simp] theorem failingEntry_count (e : Emulator) (k : Entry) :
    (e.count k).failingEntry = e.failingEntry := by
  cases k <;> rfl

@[simp] theorem launched_count (e : Emulator) (k : Entry) : (e.count k).launched = e.launched := by
  cases k <;> rfl

@[simp] theorem exits_count (e : Emulator) (k : Entry) : (e.count k).exits = e.exits := by
  cases k <;> rfl

@[simp] theorem entries_count (e : Emulator) (k : Entry) : (e.count k).entries = e.entries := by
  cases k <;> rfl

@[simp] theorem nextExit_count (e : Emulator) (k : Entry) : (e.count k).nextExit = e.nextExit := by
  cases k <;> rfl

@[simp] theorem misplaced?_count (e : Emulator) (k j : Entry) (a : PhysAddr) :
    (e.count k).misplaced? j a = e.misplaced? j a := by
  cases k <;> rfl

/-- The failure that was asked for happens and leaves its number in the current structure. -/
def refuse (e : Emulator) (vmcs : PhysAddr) (code : UInt32) : Emulator :=
  { e with
    failingEntry := none
    fields := e.fields.put (vmcs, Field.instructionError) code.toUInt64 }

theorem tryEnter_refused {e : Emulator} {a : PhysAddr} {k : Entry} {code : UInt32}
    (hc : e.current = some a) (hm : e.misplaced? k a = none) (hf : e.failingEntry = some code)
    (regs : Registers) : e.tryEnter k regs = (.error .valid, e.refuse a code) := by
  simp only [tryEnter, hc, hm, hf, fail, refuse]

theorem tryEnter_taken {e : Emulator} {a : PhysAddr} {k : Entry} (hc : e.current = some a)
    (hm : e.misplaced? k a = none) (hf : e.failingEntry = none) (regs : Registers) :
    e.tryEnter k regs = (.ok (), e.runGuest k a regs) := by
  simp only [tryEnter, hc, hm, hf]

/-- What is left by a guest that ran up to an exit. -/
structure Ran (e e' : Emulator) (a : PhysAddr) : Prop where
  current : e'.current = e.current
  injected : e'.injected = e.injected
  failingEntry : e'.failingEntry = e.failingEntry
  exits : e'.exits = e.exits.tail
  launches : e'.launches = e.launches
  resumes : e'.resumes = e.resumes
  reason : e'.fields.get (a, Field.exitReason) = e.nextExit.1.toUInt64
  qualification : e'.fields.get (a, Field.exitQualification) = e.nextExit.2
  launched : e'.launched.get a =
    if RawExit.entryFailure ⟨e.nextExit.1⟩ then e.launched.get a else true
  entries : e'.entries =
    if RawExit.entryFailure ⟨e.nextExit.1⟩ then e.entries else e.entries + 1

theorem ran_runGuest (e : Emulator) (k : Entry) (a : PhysAddr) (regs : Registers) :
    e.Ran (e.runGuest k a regs) a := by
  have hne : (a, Field.exitReason) ≠ (a, Field.exitQualification) := by
    simp [Field.exitReason, Field.exitQualification]
  by_cases hr : RawExit.entryFailure ⟨e.nextExit.1⟩ = true
  · constructor <;> simp [runGuest, hr, hne, entries]
  · cases k <;> constructor <;> simp [runGuest, hr, record, hne, entries]

end Emulator

namespace Machine

variable {s : Machine Emulator} {a : PhysAddr} {field : UInt32}

theorem attempt_vmread (ha : s.processor.current = some a)
    (hp : s.processor.pending (.vmread field) = false) :
    s.attempt (Processor.vmread field) = (.ok (s.processor.fields.get (a, field)), s) :=
  attempt_ok (i := Processor.vmread field) (Emulator.vmread_ok ha hp)

theorem diagnose_valid (ha : s.processor.current = some a)
    (hp : s.processor.pending (.vmread Field.instructionError) = false) :
    s.diagnose .valid =
      (.valid ⟨(s.processor.fields.get (a, Field.instructionError)).toUInt32⟩, s) := by
  have hv : Processor.vmread Field.instructionError s.processor =
      (.ok (s.processor.fields.get (a, Field.instructionError)), s.processor) :=
    Emulator.vmread_ok ha hp
  simp only [diagnose, exec, hv]

end Machine

namespace Core.Root

variable {c : Root} {cur : Current} {k : Entry} {a : PhysAddr} {s : Machine Emulator}

/-- The number of the failure is read back as it was left. -/
theorem enter_refused {code : UInt32} (hc : c.current = some cur) (hk : forbidden k cur = none)
    (ha : s.processor.current = some a) (hm : s.processor.misplaced? k a = none)
    (hf : s.processor.failingEntry = some code)
    (hp : s.processor.pending (.vmread Field.instructionError) = false) (regs : Registers) :
    c.enter k regs s = (.ok (.error (.valid ⟨code⟩)), c, regs,
      ⟨(s.processor.count k).refuse a code, s.host⟩) := by
  have ht : (s.processor.count k).tryEnter k regs =
      (.error .valid, (s.processor.count k).refuse a code) :=
    Emulator.tryEnter_refused (by simpa using ha) (by simpa using hm) (by simpa using hf) regs
  have he : Processor.enter k regs s.processor =
      (.ok (.error .valid), regs, (s.processor.count k).refuse a code) := by
    show s.processor.enter k regs = _
    simp only [Emulator.enter, ht]
  have hd : Machine.diagnose ⟨(s.processor.count k).refuse a code, s.host⟩ .valid =
      (.valid ⟨code⟩, ⟨(s.processor.count k).refuse a code, s.host⟩) := by
    have ha' : ((s.processor.count k).refuse a code).current = some a := by
      simpa [Emulator.refuse] using ha
    have hp' : ((s.processor.count k).refuse a code).pending (.vmread Field.instructionError) =
        false := (s.processor.pending_count k _).trans hp
    rw [Machine.diagnose_valid ha' hp']
    simp [Emulator.refuse]
  simp only [enter, hc, hk, he, hd]

theorem enter_taken (hc : c.current = some cur) (hk : forbidden k cur = none)
    (ha : s.processor.current = some a) (hm : s.processor.misplaced? k a = none)
    (hf : s.processor.failingEntry = none)
    (hp : s.processor.pending (.vmread Field.exitReason) = false) (regs : Registers) :
    c.enter k regs s =
      (.ok (.ok ⟨s.processor.nextExit.1⟩),
        if RawExit.entryFailure ⟨s.processor.nextExit.1⟩ then c else c.setLaunched, regs,
        ⟨(s.processor.count k).runGuest k a regs, s.host⟩) := by
  have ht : (s.processor.count k).tryEnter k regs =
      (.ok (), (s.processor.count k).runGuest k a regs) :=
    Emulator.tryEnter_taken (by simpa using ha) (by simpa using hm) (by simpa using hf) regs
  have he : Processor.enter k regs s.processor =
      (.ok (.ok ()), regs, (s.processor.count k).runGuest k a regs) := by
    show s.processor.enter k regs = _
    simp only [Emulator.enter, ht]
  have hran := (s.processor.count k).ran_runGuest k a regs
  have hp' : ((s.processor.count k).runGuest k a regs).pending (.vmread Field.exitReason) =
      false := by
    rw [Emulator.pending, hran.injected, ← Emulator.pending, Emulator.pending_count, hp]
  have ha' : ((s.processor.count k).runGuest k a regs).current = some a := by
    rw [hran.current, Emulator.current_count, ha]
  have hr : ((s.processor.count k).runGuest k a regs).fields.get (a, Field.exitReason) =
      (RawExit.mk s.processor.nextExit.1).word.toUInt64 := by
    rw [hran.reason, Emulator.nextExit_count]
  obtain ⟨hx, -⟩ | ⟨-, hx⟩ := c.afterExit_cases
    (s := ⟨(s.processor.count k).runGuest k a regs, s.host⟩) ha' hr
  · cases hp'.symm.trans hx
  · simp only [enter, hc, hk, he, hx]

end Core.Root

/-! ## Counters -/

namespace Telemetry

theorem bucketOf_eq_iff (b r : UInt16) :
    bucketOf b = bucketOf r ↔ min b.toNat 80 = min r.toNat 80 := by
  simp [bucketOf, trackedReasons]

/-- An exit is counted in one bucket; reasons from 80 up have one together. -/
theorem exitsFor_recordExit (t : Telemetry) (b r : UInt16) (entered time : UInt64) :
    (t.recordExit b entered time).exitsFor r =
      if min b.toNat 80 = min r.toNat 80 then t.exitsFor r + 1 else t.exitsFor r := by
  by_cases h : min b.toNat 80 = min r.toNat 80
  · have hb := (bucketOf_eq_iff b r).2 h
    simp [recordExit, exitUpdates, applyAll, apply, exitsFor, h, hb]
  · have hb : (bucketOf b).val ≠ (bucketOf r).val :=
      fun he => h ((bucketOf_eq_iff b r).1 (Fin.ext he))
    simp [recordExit, exitUpdates, applyAll, apply, exitsFor, h, hb]

end Telemetry

namespace Running

/-- An exit that counts adds to one bucket and to both counters. -/
theorem telemetry_count {P : Type} [Processor P] (w : Running P) (raw : RawExit)
    (entered time : UInt64) :
    (w.count raw entered time).telemetry =
      if raw.entryFailure then w.telemetry.recordFailedEntry
      else (w.telemetry.recordEntry entered).recordExit raw.basic entered time := by
  unfold count
  split <;> rfl

theorem processor_count (w : Running Emulator) (raw : RawExit) (entered time : UInt64) :
    (w.count raw entered time).machine.processor = w.machine.processor := by
  unfold count
  split <;> rfl

theorem report_ok {w : Running Emulator} {a : PhysAddr} (ha : w.machine.processor.current = some a)
    (hp : w.machine.processor.pending (.vmread Field.exitQualification) = false) (raw : RawExit)
    (time : UInt64) :
    w.report raw time =
      (.ok ⟨raw.basic, raw.entryFailure,
        w.machine.processor.fields.get (a, Field.exitQualification), time⟩,
        w.note (.exited raw.basic)) := by
  simp only [report, Machine.attempt_vmread ha hp]

/-- The entry that the dispatcher chooses for the current structure. -/
def choice (w : Running Emulator) : Entry := if w.core.launched then .resume else .launch

theorem forbidden_choice {w : Running Emulator} {cur : Current} (hc : w.core.current = some cur) :
    Core.Root.forbidden w.choice cur = none := by
  rw [choice, Core.Root.launched_eq hc]
  cases hl : cur.launched <;> simp [Core.Root.forbidden, hl]

/-- It fits the launch state if core and processor agree on that. -/
theorem misplaced?_choice {w : Running Emulator} {cur : Current} {e : Emulator} {a : PhysAddr}
    (hc : w.core.current = some cur) (hl : e.launched.get a = cur.launched) :
    e.misplaced? w.choice a = none := by
  by_contra hne
  have hm := (e.misplaced?_ne_none w.choice a).1 hne
  rw [hl, choice, Core.Root.launched_eq hc] at hm
  cases hx : cur.launched <;> simp [hx] at hm

variable {w : Running Emulator} {cur : Current} {a : PhysAddr}

theorem run_refused {code : UInt32} (hc : w.core.current = some cur)
    (ha : w.machine.processor.current = some a)
    (hl : w.machine.processor.launched.get a = cur.launched)
    (hf : w.machine.processor.failingEntry = some code)
    (hp : w.machine.processor.pending (.vmread Field.instructionError) = false) :
    ∃ v, w.run = (.ok (.error (.valid ⟨code⟩)), v) ∧ v.core = w.core ∧
      v.telemetry = w.telemetry.recordFailedEntry ∧
      v.machine.processor = (w.machine.processor.timestamp.2.count w.choice).refuse a code := by
  have he : w.now.2.core.enter w.choice w.now.2.regs w.now.2.machine = _ :=
    Core.Root.enter_refused (s := w.now.2.machine) hc (forbidden_choice hc) ha
      (misplaced?_choice hc hl) hf hp w.now.2.regs
  have hr : w.run = w.enter w.choice := rfl
  let v : Running Emulator := { w.now.2 with
    machine := ⟨(w.now.2.machine.processor.count w.choice).refuse a code, w.machine.host⟩ }
  refine ⟨v.failEntry (.entryFailed (.valid ⟨code⟩)), ?_, rfl, rfl, rfl⟩
  simp only [hr, enter, he]
  rfl

theorem run_taken (hc : w.core.current = some cur)
    (ha : w.machine.processor.current = some a)
    (hl : w.machine.processor.launched.get a = cur.launched)
    (hf : w.machine.processor.failingEntry = none)
    (hp : ∀ f, w.machine.processor.pending (.vmread f) = false) {raw : RawExit} {q : UInt64}
    (hx : w.machine.processor.nextExit = (raw.word, q)) :
    ∃ v p entered time, w.run = (.ok (.ok ⟨raw.basic, raw.entryFailure, q, time⟩), v) ∧
      v.core = (if raw.entryFailure then w.core else w.core.setLaunched) ∧
      v.telemetry = (if raw.entryFailure then w.telemetry.recordFailedEntry
        else (w.telemetry.recordEntry entered).recordExit raw.basic entered time) ∧
      (w.machine.processor.timestamp.2.count w.choice).Ran p a ∧
      v.machine.processor = p.timestamp.2 := by
  have he : w.now.2.core.enter w.choice w.now.2.regs w.now.2.machine = _ :=
    Core.Root.enter_taken (s := w.now.2.machine) hc (forbidden_choice hc) ha
      (misplaced?_choice hc hl) hf (hp _) w.now.2.regs
  have hr : w.run = w.enter w.choice := rfl
  have hn : w.now.2.machine.processor.nextExit = (raw.word, q) := hx
  rw [hn] at he
  let p := (w.now.2.machine.processor.count w.choice).runGuest w.choice a w.now.2.regs
  have hran : (w.now.2.machine.processor.count w.choice).Ran p a := Emulator.ran_runGuest _ _ _ _
  have hcur : p.current = some a := by
    rw [hran.current, Emulator.current_count]
    exact ha
  have hq : p.pending (.vmread Field.exitQualification) = false := by
    rw [Emulator.pending, hran.injected, ← Emulator.pending, Emulator.pending_count]
    exact hp _
  have hval : p.fields.get (a, Field.exitQualification) = q := by
    rw [hran.qualification, Emulator.nextExit_count, hn]
  let u : Running Emulator := { w.now.2 with
    core := if raw.entryFailure then w.core else w.core.setLaunched
    machine := ⟨p, w.machine.host⟩ }
  let v := u.now.2.count raw w.now.1 u.now.1
  have hv : v.machine.processor = p.timestamp.2 := processor_count _ _ _ _
  have hrep := report_ok (w := v) (a := a) (by rw [hv]; exact hcur) (by rw [hv]; exact hq) raw
    u.now.1
  rw [hv, show p.timestamp.2.fields.get (a, Field.exitQualification) = q from hval] at hrep
  refine ⟨v.note (.exited raw.basic), p, w.now.1, u.now.1, ?_, core_count _ _ _ _,
    telemetry_count _ _ _ _, hran, hv⟩
  simp only [hr, enter, he]
  exact congrArg (fun x => (Except.ok x.1, x.2)) hrep

end Running

/-! ## The refinement -/

/-- The processor has the exits and the failure to come of the queue machine, and the launch state of
the structure at `a`. It reads all fields, and since `e₀` it has counted what the queue machine has. -/
structure Emulator.Serves (e₀ : Emulator) (a : PhysAddr) (e : Emulator) (m : ExitQueue) : Prop where
  loaded : e.current = some a
  launched : e.launched.get a = m.launched
  exits : e.exits = m.exits
  failing : e.failingEntry = m.failing
  legible : ∀ f, e.pending (.vmread f) = false
  launches : e.launches = e₀.launches + m.launches
  resumes : e.resumes = e₀.resumes + m.resumes
  entered : e.entries = e₀.entries + m.entered.length

/-- The counters hold the tallies of the queue machine; the reasons from 80 up share a bucket. -/
structure Telemetry.Tallies (t : Telemetry) (m : ExitQueue) : Prop where
  entries : t.counters.entries = UInt64.ofNat m.entered.length
  exits : t.counters.exits = UInt64.ofNat m.entered.length
  failed : t.counters.failedEntries = UInt64.ofNat m.failed
  reasons : ∀ r : UInt16, t.exitsFor r =
    UInt64.ofNat (m.entered.countP fun n => min n 80 = min r.toNat 80)

/-- The dispatcher and its processor do what the queue machine does with the current structure. -/
structure Represents (e₀ : Emulator) (region : Region .vmcs) (w : Running Emulator)
    (m : ExitQueue) : Prop where
  current : w.core.current = some ⟨region, m.launched⟩
  processor : Emulator.Serves e₀ region.addr w.machine.processor m
  counters : w.telemetry.Tallies m

namespace Emulator.Serves

variable {e₀ e p : Emulator} {a : PhysAddr} {m : ExitQueue}

theorem timestamp (h : Serves e₀ a e m) : Serves e₀ a e.timestamp.2 m :=
  ⟨h.loaded, h.launched, h.exits, h.failing, h.legible, h.launches, h.resumes, h.entered⟩

/-- The processor counts the attempts that the queue machine counts. -/
theorem attempt (h : Serves e₀ a e m) :
    Serves e₀ a (e.count (if m.launched then .resume else .launch)) m.attempt := by
  cases hl : m.launched with
  | false =>
    have hm : m.attempt = { m with launches := m.launches + 1 } := by simp [ExitQueue.attempt, hl]
    rw [hm]
    exact ⟨h.loaded, h.launched, h.exits, h.failing, h.legible, congrArg (· + 1) h.launches,
      h.resumes, h.entered⟩
  | true =>
    have hm : m.attempt = { m with resumes := m.resumes + 1 } := by simp [ExitQueue.attempt, hl]
    rw [hm]
    exact ⟨h.loaded, h.launched, h.exits, h.failing, h.legible, h.launches,
      congrArg (· + 1) h.resumes, h.entered⟩

theorem refuse (h : Serves e₀ a e m) (code : UInt32) : Serves e₀ a (e.refuse a code) m.refuse :=
  ⟨h.loaded, h.launched, h.exits, rfl, h.legible, h.launches, h.resumes, h.entered⟩

theorem nextExit (h : Serves e₀ a e m) : e.nextExit = m.head :=
  congrArg (fun xs : List (UInt32 × UInt64) => xs.head?.getD (12, 0)) h.exits

theorem leave (h : Serves e₀ a e m) (hr : e.Ran p a) : Serves e₀ a p m.leave := by
  have hbit : RawExit.entryFailure ⟨m.head.1⟩ = m.shown.entryFailure := RawExit.entryFailure_eq _
  have hlaunched := hr.launched
  have hentries := hr.entries
  rw [h.nextExit, hbit] at hlaunched hentries
  have hexits : p.exits = m.exits.tail := by rw [hr.exits, h.exits]
  have hlegible : ∀ f, p.pending (.vmread f) = false := by
    intro f
    rw [Emulator.pending, hr.injected, ← Emulator.pending]
    exact h.legible f
  unfold ExitQueue.leave
  cases hb : m.shown.entryFailure with
  | true =>
    simp only [hb, ↓reduceIte] at hlaunched hentries ⊢
    exact ⟨hr.current.trans h.loaded, hlaunched.trans h.launched, hexits,
      hr.failingEntry.trans h.failing, hlegible, hr.launches.trans h.launches,
      hr.resumes.trans h.resumes, hentries.trans h.entered⟩
  | false =>
    simp only [hb, Bool.false_eq_true, ↓reduceIte] at hlaunched hentries ⊢
    exact ⟨hr.current.trans h.loaded, hlaunched, hexits, hr.failingEntry.trans h.failing, hlegible,
      hr.launches.trans h.launches, hr.resumes.trans h.resumes,
      hentries.trans (congrArg (· + 1) h.entered)⟩

end Emulator.Serves

namespace Telemetry.Tallies

variable {t : Telemetry} {m : ExitQueue}

theorem attempt (h : t.Tallies m) : t.Tallies m.attempt := by
  constructor
  · rw [m.entered_attempt]
    exact h.entries
  · rw [m.entered_attempt]
    exact h.exits
  · rw [m.failed_attempt]
    exact h.failed
  · intro r
    rw [m.entered_attempt]
    exact h.reasons r

theorem refuse (h : t.Tallies m) : t.recordFailedEntry.Tallies m.refuse := by
  refine ⟨h.entries, h.exits, ?_, h.reasons⟩
  rw [ExitQueue.refuse, UInt64.ofNat_add]
  exact congrArg (· + 1) h.failed

theorem leave (h : t.Tallies m) {b : UInt16} (hb : b.toNat = m.shown.reason)
    (entered time : UInt64) :
    (if m.shown.entryFailure then t.recordFailedEntry
      else (t.recordEntry entered).recordExit b entered time).Tallies m.leave := by
  unfold ExitQueue.leave
  cases m.shown.entryFailure with
  | true =>
    refine ⟨h.entries, h.exits, ?_, h.reasons⟩
    rw [if_pos rfl, if_pos rfl, UInt64.ofNat_add]
    exact congrArg (· + 1) h.failed
  | false =>
    simp only [Bool.false_eq_true, ↓reduceIte]
    refine ⟨?_, ?_, h.failed, fun r => ?_⟩
    · rw [List.length_cons, UInt64.ofNat_add]
      exact congrArg (· + 1) h.entries
    · rw [List.length_cons, UInt64.ofNat_add]
      exact congrArg (· + 1) h.exits
    · rw [exitsFor_recordExit, List.countP_cons, hb]
      by_cases hr : min m.shown.reason 80 = min r.toNat 80
      · simp only [hr, ↓reduceIte, decide_true, UInt64.ofNat_add]
        exact congrArg (· + 1) (h.reasons r)
      · simp only [hr, ↓reduceIte, decide_false, Bool.false_eq_true, Nat.add_zero]
        exact h.reasons r

/-- A reason with a bucket of its own is counted alone. -/
theorem exitsFor_tracked (h : t.Tallies m) {r : UInt16} (hr : r.toNat < 80) :
    t.exitsFor r = UInt64.ofNat (m.entered.count r.toNat) := by
  have hc : m.entered.countP (fun n => min n 80 = min r.toNat 80) = m.entered.count r.toNat := by
    refine List.countP_congr fun n _ => ?_
    simp only [decide_eq_true_eq, beq_iff_eq]
    omega
  rw [h.reasons, hc]

end Telemetry.Tallies

namespace Represents

variable {e₀ : Emulator} {region : Region .vmcs} {w v : Running Emulator} {m : ExitQueue}

/-- The dispatcher attempts what the queue machine attempts. -/
theorem attempt (h : Represents e₀ region w m) :
    Emulator.Serves e₀ region.addr (w.machine.processor.timestamp.2.count w.choice) m.attempt := by
  have hk : w.choice = if m.launched then .resume else .launch := by
    rw [Running.choice, Core.Root.launched_eq h.current]
  rw [hk]
  exact h.processor.timestamp.attempt

theorem refused (h : Represents e₀ region w m) {code : UInt32} (hf : m.failing = some code) :
    ∃ v, w.run = (.ok (.error (.valid ⟨code⟩)), v) ∧ Represents e₀ region v m.attempt.refuse := by
  obtain ⟨v, hr, hc, ht, hp⟩ := Running.run_refused h.current h.processor.loaded
    h.processor.launched (h.processor.failing.trans hf) (h.processor.legible _)
  refine ⟨v, hr, ?_, ?_, ?_⟩
  · rw [hc, ExitQueue.refuse, m.launched_attempt]
    exact h.current
  · rw [hp]
    exact h.attempt.refuse code
  · rw [ht]
    exact h.counters.attempt.refuse

theorem taken (h : Represents e₀ region w m) (hf : m.failing = none) :
    ∃ r v, w.run = (r, v) ∧ Shows r (.ok m.shown) ∧ Represents e₀ region v m.attempt.leave := by
  have hbit : RawExit.entryFailure ⟨m.head.1⟩ = m.shown.entryFailure := RawExit.entryFailure_eq _
  have hbasic : (RawExit.basic ⟨m.head.1⟩).toNat = m.shown.reason := RawExit.toNat_basic _
  have hx : w.machine.processor.nextExit = ((RawExit.mk m.head.1).word, m.head.2) :=
    h.processor.nextExit
  obtain ⟨v, p, entered, time, hr, hc, ht, hran, hp⟩ := Running.run_taken h.current
    h.processor.loaded h.processor.launched (h.processor.failing.trans hf) h.processor.legible hx
  rw [hbit] at hc ht
  refine ⟨_, v, hr, ⟨_, rfl, hbasic, hbit, rfl⟩, ?_, ?_, ?_⟩
  · rw [hc, ExitQueue.launched_leave, m.shown_attempt, m.launched_attempt]
    cases hb : m.shown.entryFailure with
    | true => exact h.current
    | false => exact Core.Root.current_setLaunched h.current
  · rw [hp]
    exact (h.attempt.leave hran).timestamp
  · rw [ht, ← m.shown_attempt]
    exact h.counters.attempt.leave (hbasic.trans (by rw [m.shown_attempt])) entered time

theorem run (h : Represents e₀ region w m) :
    Shows w.run.1 m.run.1 ∧ Represents e₀ region w.run.2 m.run.2 := by
  cases hf : m.failing with
  | some code =>
    obtain ⟨v, hr, hv⟩ := h.refused hf
    rw [hr]
    simp only [ExitQueue.run, hf]
    exact ⟨rfl, hv⟩
  | none =>
    obtain ⟨r, v, hr, hx, hv⟩ := h.taken hf
    rw [hr]
    simp only [ExitQueue.run, hf]
    exact ⟨hx, hv⟩

theorem queueExit (h : Represents e₀ region w m) (reason : UInt32) (qualification : UInt64) :
    Represents e₀ region
      { w with machine.processor := w.machine.processor.queueExit reason qualification }
      { m with exits := m.exits ++ [(reason, qualification)] } := by
  have hx := congrArg (· ++ [(reason, qualification)]) h.processor.exits
  exact ⟨h.current, { h.processor with exits := hx }, ⟨h.counters.entries, h.counters.exits,
    h.counters.failed, h.counters.reasons⟩⟩

theorem failEntry (h : Represents e₀ region w m) (code : UInt32) :
    Represents e₀ region { w with machine.processor := w.machine.processor.failEntry code }
      { m with failing := some code } :=
  ⟨h.current, { h.processor with failing := rfl }, ⟨h.counters.entries, h.counters.exits,
    h.counters.failed, h.counters.reasons⟩⟩

theorem serve (h : Represents e₀ region w m) (es : List GuestEvent) :
    List.Forall₂ Shows (w.serve es).1 (m.serve es).1 ∧
      Represents e₀ region (w.serve es).2 (m.serve es).2 := by
  induction es generalizing w m with
  | nil => exact ⟨.nil, h⟩
  | cons e es ih =>
    cases e with
    | queueExit reason qualification => exact ih (h.queueExit reason qualification)
    | failEntry code => exact ih (h.failEntry code)
    | run =>
      obtain ⟨hx, hv⟩ := h.run
      obtain ⟨hs, hr⟩ := ih hv
      exact ⟨.cons hx hs, hr⟩

/-- Nothing is counted yet, and the structure is not launched. -/
theorem initial {c : Core.Root} {e : Emulator} {h : Host} (regs : Registers)
    (hc : c.current = some ⟨region, false⟩) (hl : e.current = some region.addr)
    (hm : e.launched.get region.addr = false) (hp : ∀ f, e.pending (.vmread f) = false) :
    Represents e region ⟨c, regs, {}, ⟨e, h⟩⟩ ⟨e.exits, e.failingEntry, false, [], 0, 0, 0⟩ := by
  refine ⟨hc, ⟨hl, hm, rfl, rfl, hp, rfl, rfl, rfl⟩, ⟨rfl, rfl, rfl, fun r => ?_⟩⟩
  simp [Telemetry.exitsFor]

end Represents

namespace Station

variable {s : Station}

/-- A structure that was loaded is current, and the processor has not launched it. -/
theorem load_unlaunched {c d : Core.Root} {region : Region .vmcs} {t : Machine Emulator}
    (hm : (Core.root c).Marks s.standing.launched)
    (h : c.load region s.machine = (.ok (), d, t)) :
    d.current = some ⟨region, false⟩ ∧ t.processor.current = some region.addr ∧
      t.processor.launched.get region.addr = false := by
  obtain ⟨f, u, he, -⟩ | ⟨hc, ⟨-, u, he, hs⟩ | ⟨-, f, u, he, -⟩ | ⟨-, -, f, u, he, -⟩⟩ :=
    c.load_cases region s.machine
  · cases he.symm.trans h
  · cases he.symm.trans h
    refine ⟨rfl, congrArg Standing.current hs, ?_⟩
    have hl : t.processor.launched = s.standing.launched := congrArg Standing.launched hs
    rw [hl]
    exact Core.Root.launched_none hm hc _
  · cases he.symm.trans h
  · cases he.symm.trans h

/-- After any run, a dispatcher with fresh counters works on a structure that was just loaded, and
no failure of VMREAD is pending. Then it answers as the queue of exits does, whatever is queued and
made to fail between its runs. The counters of entries and of exits are both the number of entries
that the processor has seen since then, every reason below 80 is counted alone, and all other runs are
counted as failed. -/
theorem dispatcher_serves_exit_queue {c₀ : Core.Disabled} (h₀ : s.core = some (.disabled c₀))
    (hn : s.standing.current = none) (hl : ∀ a, s.standing.launched.get a = false)
    (es : List Event) {c d : Core.Root} {region : Region .vmcs} {t : Machine Emulator}
    (hc : (s.run es).core = some (.root c))
    (hload : c.load region (s.run es).machine = (.ok (), d, t))
    (hp : ∀ f, t.processor.pending (.vmread f) = false) (regs : Registers)
    (gs : List GuestEvent) :
    let w := (Running.mk d regs {} t).serve gs
    let m := (ExitQueue.mk t.processor.exits t.processor.failingEntry false [] 0 0 0).serve gs
    List.Forall₂ Shows w.1 m.1 ∧ Represents t.processor region w.2 m.2 ∧
      w.2.telemetry.counters.entries =
        UInt64.ofNat (w.2.machine.processor.entries - t.processor.entries) ∧
      w.2.telemetry.counters.exits = w.2.telemetry.counters.entries ∧
      (∀ r : UInt16, r.toNat < 80 →
        w.2.telemetry.exitsFor r = UInt64.ofNat (m.2.entered.count r.toNat)) ∧
      m.2.failed + m.2.entered.length = gs.count .run := by
  have h0 : s.Tracks ∧ s.Marks := by
    refine ⟨fun x hx => ?_, fun x hx => ?_⟩
    all_goals cases h₀.symm.trans hx
    · exact hn
    · exact hl
  obtain ⟨-, hm⟩ := run_keeps (I := fun s => s.Tracks ∧ s.Marks)
    (fun s e h => ⟨tracks_step e h.1, marks_step e h.1 h.2⟩) h0 es
  obtain ⟨hd, hcur, hx⟩ := load_unlaunched (hm _ hc) hload
  obtain ⟨hs, hr⟩ := (Represents.initial (h := t.host) regs hd hcur hx hp).serve gs
  refine ⟨hs, hr, ?_, hr.counters.exits.trans hr.counters.entries.symm,
    fun r => hr.counters.exitsFor_tracked, ?_⟩
  · rw [hr.processor.entered, Nat.add_sub_cancel_left]
    exact hr.counters.entries
  · rw [ExitQueue.tally_serve]
    simp

/-- A structure that is loaded in root operation on a new processor. -/
def firstLoad : Except Refused Unit × Core.Root × Machine Emulator :=
  Core.Root.load ⟨⟨0, Core.announced⟩, stamped .vmxon 0x100000, none⟩ (stamped .vmcs 0x101000)
    (fresh.run toRoot).machine

/-- An exit, a failed entry, a refused one, and an exit that counts again. -/
def mixedRuns : List GuestEvent :=
  [.run, .queueExit 0x80000021 0, .run, .failEntry 7, .run, .run]

/-- The first run launches, and the others resume. Two of the four count as failed. -/
theorem first_load_serves_mixed_runs :
    let w := (Running.mk firstLoad.2.1 .zero {} firstLoad.2.2).serve mixedRuns
    w.2.machine.processor.launches = 1 ∧ w.2.machine.processor.resumes = 3 ∧
      w.2.telemetry.counters.entries = 2 ∧ w.2.telemetry.counters.failedEntries = 2 ∧
      w.2.telemetry.exitsFor 12 = 2 := by
  have hload : firstLoad = (.ok (), firstLoad.2.1, firstLoad.2.2) := rfl
  obtain ⟨-, hr, -⟩ := dispatcher_serves_exit_queue (s := fresh) rfl rfl (fun _ => rfl) toRoot rfl
    hload (fun _ => rfl) .zero mixedRuns
  exact ⟨hr.processor.launches, hr.processor.resumes, hr.counters.entries, hr.counters.failed,
    hr.counters.reasons 12⟩

end Station

end VmxControl
