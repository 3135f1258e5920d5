import Mathlib.Logic.Function.Basic
import VmxControl.Proofs.Counting

/-!
# Attempts to enter a guest

Cores in root operation, each on a machine of its own, share the counters of their dispatchers.
Every call to a dispatcher is one attempt to enter a guest, and it is counted once: as failed, or as
an entry with its exit. An exit that was counted stays counted, also where the call goes on to fail.
Whatever else is done to the cores, to their machines and to the memory never reaches the counters.
-/

namespace VmxControl

/-- What comes of an attempt: it fails, or the guest leaves again for this reason. The times are
those before the entry and after the exit. -/
inductive Attempt where
  | failed
  | left (reason : UInt16) (entered time : UInt64)
  deriving DecidableEq, Repr

namespace Attempt

/-- How the attempt is put on record. -/
def records : Attempt → List Telemetry.Record
  | .failed => [.failedEntry]
  | .left reason entered time => [.entry entered, .exit reason entered time]

/-- The ticks between entry and exit; an exit that seems earlier than its entry has none. -/
def ticks : Attempt → Nat
  | .failed => 0
  | .left _ entered time => time.toNat - entered.toNat

/-- An attempt counts once, and if it is an entry then with an exit and with its ticks. -/
theorem adds_record (a : Attempt) :
    let sum := fun c => (a.records.map (Telemetry.Record.adds · c)).sum
    sum .entries + sum .failedEntries = 1 ∧ sum .exits = sum .entries ∧
      sum .guestCycles = a.ticks := by
  cases a with
  | failed => exact ⟨rfl, rfl, rfl⟩
  | left reason entered time => exact ⟨rfl, rfl, Nat.zero_add _⟩

/-- What a list of attempts adds to each counter. -/
theorem adds_records (as : List Attempt) :
    let sum := fun c => ((as.flatMap records).map (Telemetry.Record.adds · c)).sum
    sum .entries + sum .failedEntries = as.length ∧ sum .exits = sum .entries ∧
      sum .guestCycles = (as.map ticks).sum := by
  induction as with
  | nil => exact ⟨rfl, rfl, rfl⟩
  | cons a as ih =>
    obtain ⟨hn, he, ht⟩ := a.adds_record
    obtain ⟨hns, hes, hts⟩ := ih
    simp only [List.flatMap_cons, List.map_append, List.sum_append, List.map_cons, List.sum_cons,
      List.length_cons] at hn he ht hns hes hts ⊢
    omega

end Attempt

/-- Every entry comes back, if only with a failure. -/
def Processor.Returns (P : Type) [Processor P] : Prop :=
  ∀ k regs (p : P), ∃ r, (Processor.enter k regs p).1 = .ok r

theorem Emulator.returns : Processor.Returns Emulator := fun _ _ _ => ⟨_, rfl⟩

/-! ## One attempt -/

variable {P : Type} [Processor P]

namespace Core.Root

/-- The core has no current structure for the entry, or one whose launch state is the wrong one. -/
def Unfit (c : Root) (k : Entry) : Prop :=
  c.current = none ∨ ∃ cur, c.current = some cur ∧ (cur.launched = true ↔ k = .launch)

theorem enter_unfit {c : Root} {k : Entry} (h : c.Unfit k) (regs : Registers) (s : Machine P) :
    ∃ e, c.enter k regs s = (.ok (.error e), c, regs, s) := by
  obtain hc | ⟨cur, hc, hk⟩ := h
  · exact ⟨.invalid, by simp only [enter, hc]⟩
  · obtain ⟨e, he⟩ : ∃ e, forbidden k cur = some e := by
      cases k with
      | launch =>
        have hl : cur.launched = true := hk.2 rfl
        exact ⟨.valid .vmlaunchNonClear, by simp only [forbidden, hl]⟩
      | resume =>
        have hl : cur.launched = false := by simpa using hk
        exact ⟨.valid .vmresumeNonLaunched, by simp only [forbidden, hl]⟩
    exact ⟨e, by simp only [enter, hc, he]⟩

theorem enter_returns (hP : Processor.Returns P) (c : Root) (k : Entry) (regs : Registers)
    (s : Machine P) : ∃ r, (c.enter k regs s).1 = .ok r := by
  unfold enter
  split
  · exact ⟨_, rfl⟩
  · split
    · exact ⟨_, rfl⟩
    · obtain ⟨r, hr⟩ := hP k regs s.processor
      rcases he : Processor.enter k regs s.processor with ⟨trap | failure | _, left, p⟩
      · rw [he] at hr
        cases hr
      · exact ⟨_, rfl⟩
      · exact ⟨_, rfl⟩

end Core.Root

namespace Running

/-- What comes of an attempt with this entry. -/
def attempt (w : Running P) (k : Entry) : Attempt :=
  match w.core.enter k w.regs w.now.2.machine with
  | (.ok (.ok raw), _, _, machine) =>
    if raw.entryFailure then .failed
    else .left raw.basic w.now.1 (Processor.timestamp machine.processor).1
  | _ => .failed

theorem telemetry_report (w : Running P) (raw : RawExit) (time : UInt64) :
    (w.report raw time).2.telemetry = w.telemetry := by
  unfold report
  split <;> rfl

/-- An attempt is put on record, whether the call that made it then returns or fails. -/
theorem telemetry_enter (hP : Processor.Returns P) (w : Running P) (k : Entry) :
    (w.enter k).2.telemetry = w.telemetry.recordAll (w.attempt k).records := by
  obtain ⟨r, hr⟩ := w.core.enter_returns hP k w.regs w.now.2.machine
  rcases he : w.core.enter k w.regs w.now.2.machine with ⟨t | e | raw, core, regs, m⟩
  · cases hr.symm.trans (congrArg Prod.fst he)
  · have hw : w.now.2.core.enter k w.now.2.regs w.now.2.machine = _ := he
    simp only [enter, attempt, he, hw]
    rfl
  · have hw : w.now.2.core.enter k w.now.2.regs w.now.2.machine = _ := he
    simp only [enter, attempt, he, hw, telemetry_report, telemetry_count]
    cases raw.entryFailure <;> rfl

/-- A record of an exit that counts is that of the attempt. -/
theorem attempt_of_record {w : Running P} {k : Entry} {record : ExitRecord}
    (h : (w.enter k).1 = .ok (.ok record)) (hf : record.entryFailure = false) :
    w.attempt k = .left record.reason w.now.1 record.timestamp := by
  rcases he : w.core.enter k w.regs w.now.2.machine with ⟨t | e | raw, core, regs, m⟩
  all_goals
    have hw : w.now.2.core.enter k w.now.2.regs w.now.2.machine = _ := he
    simp only [enter, hw] at h
  · cases h
  · cases h
  · simp only [attempt, he]
    unfold report at h
    split at h
    · cases h
      rw [if_neg (by simpa using hf)]
      rfl
    · cases h

theorem attempt_unfit {w : Running P} {k : Entry} (h : w.core.Unfit k) : w.attempt k = .failed := by
  obtain ⟨e, he⟩ := Core.Root.enter_unfit h w.regs w.now.2.machine
  simp only [attempt, he]

end Running

/-! ## Calls -/

/-- The entry that the call has a dispatcher attempt. -/
def RootCall.entry? (c : Core.Root) : RootCall → Option Entry
  | .enterCounted k => some k
  | .run | .dispatch _ => some (if c.launched then .resume else .launch)
  | _ => none

/-- The call is one to a dispatcher. -/
def RootCall.counted : RootCall → Bool
  | .enterCounted _ | .run | .dispatch _ => true
  | _ => false

namespace Running

/-- The exit as a call to a dispatcher shows it, to its caller or to the handler. -/
def shown (w : Running P) : RootCall → Option (Except Trap (Except Failure ExitRecord))
  | .enterCounted k => some (w.enter k).1
  | .run | .dispatch _ => some w.run.1
  | _ => none

theorem shown_eq (w : Running P) (call : RootCall) :
    w.shown call = (call.entry? w.core).map fun k => (w.enter k).1 := by
  cases call <;> rfl

theorem telemetry_dispatch {β : Type} (w : Running P) (h : Handler β) :
    (w.dispatch h).2.telemetry = w.run.2.telemetry := by
  unfold dispatch
  split
  · next he => rw [he]
  · next he => rw [he]
  · next he =>
    rw [he]
    split <;> rfl

/-- A call to a dispatcher counts what its attempt comes to. -/
theorem telemetry_call_counted {w : Running P} {call : RootCall} {k : Entry}
    (h : call.entry? w.core = some k) : (w.call call).2.telemetry = (w.enter k).2.telemetry := by
  cases call with
  | enterCounted j =>
    cases h
    rfl
  | run =>
    cases h
    rfl
  | dispatch handler =>
    cases h
    exact w.telemetry_dispatch handler
  | _ => cases h

/-- No other call reaches the counters. -/
theorem telemetry_call_uncounted {w : Running P} {call : RootCall}
    (h : call.entry? w.core = none) : (w.call call).2.telemetry = w.telemetry := by
  cases call with
  | enterCounted | run | dispatch => cases h
  | load region =>
    simp only [call]
    split
    · rfl
    · split <;> rfl
  | clear region =>
    simp only [call]
    split <;> rfl
  | clearCurrent =>
    simp only [call]
    split <;> rfl
  | _ => rfl

end Running

/-! ## Cores that share their counters -/

/-- A core in root operation with its registers and its machine. -/
structure Member (P : Type) where
  core : Core.Root
  regs : Registers
  machine : Machine P

/-- Cores at work and the counters that they share. -/
structure Fleet (ι P : Type) where
  members : ι → Member P
  telemetry : Telemetry

/-- A core is called, or anything else happens to it: its mode changes, an exit is queued, a failure
is injected, its memory is written to. -/
inductive FleetEvent (ι P : Type) where
  | call (i : ι) (c : RootCall)
  | change (i : ι) (m : Member P)

/-- The event is a call to a dispatcher. -/
def FleetEvent.counted {ι : Type} : FleetEvent ι P → Bool
  | .call _ c => c.counted
  | .change _ _ => false

namespace Fleet

variable {ι : Type} [DecidableEq ι]

def running (f : Fleet ι P) (i : ι) : Running P :=
  ⟨(f.members i).core, (f.members i).regs, f.telemetry, (f.members i).machine⟩

def settle (f : Fleet ι P) (i : ι) (w : Running P) : Fleet ι P :=
  ⟨Function.update f.members i ⟨w.core, w.regs, w.machine⟩, w.telemetry⟩

def step (f : Fleet ι P) : FleetEvent ι P → Fleet ι P
  | .call i c => f.settle i ((f.running i).call c).2
  | .change i m => { f with members := Function.update f.members i m }

def run (f : Fleet ι P) (es : List (FleetEvent ι P)) : Fleet ι P := es.foldl step f

/-- What comes of the attempt that the event makes, if it makes one. -/
def attempt? (f : Fleet ι P) : FleetEvent ι P → Option Attempt
  | .call i c => (c.entry? (f.members i).core).map (f.running i).attempt
  | .change _ _ => none

/-- The attempts along a run. -/
def attempts (f : Fleet ι P) : List (FleetEvent ι P) → List Attempt
  | [] => []
  | e :: es => (f.attempt? e).toList ++ (f.step e).attempts es

theorem telemetry_step (hP : Processor.Returns P) (f : Fleet ι P) (e : FleetEvent ι P) :
    (f.step e).telemetry =
      f.telemetry.recordAll ((f.attempt? e).toList.flatMap Attempt.records) := by
  cases e with
  | change i m => rfl
  | call i c =>
    cases hk : c.entry? (f.members i).core with
    | none =>
      simp only [attempt?, hk]
      exact Running.telemetry_call_uncounted (w := f.running i) hk
    | some k =>
      have ht := (f.running i).telemetry_enter hP k
      rw [← Running.telemetry_call_counted (w := f.running i) hk] at ht
      simp only [attempt?, hk, Option.map_some, Option.toList_some, List.flatMap_cons,
        List.flatMap_nil, List.append_nil]
      exact ht

/-- The counters record all attempts of a run and nothing else. -/
theorem telemetry_run (hP : Processor.Returns P) (f : Fleet ι P) (es : List (FleetEvent ι P)) :
    (f.run es).telemetry = f.telemetry.recordAll ((f.attempts es).flatMap Attempt.records) := by
  induction es generalizing f with
  | nil => rfl
  | cons e es ih =>
    rw [attempts, List.flatMap_append, Telemetry.recordAll_append, ← telemetry_step hP f e]
    exact ih (f.step e)

/-- Every call to a dispatcher makes one attempt. -/
theorem length_attempts (f : Fleet ι P) (es : List (FleetEvent ι P)) :
    (f.attempts es).length = es.countP FleetEvent.counted := by
  induction es generalizing f with
  | nil => rfl
  | cons e es ih =>
    have he : (f.attempt? e).toList.length = e.counted.toNat := by
      cases e with
      | change i m => rfl
      | call i c => cases c <;> rfl
    rw [attempts, List.length_append, ih, he, List.countP_cons, Nat.add_comm]
    cases e.counted <;> rfl

/-- From a reset on, and along any run of any number of cores, every call to a dispatcher is counted
once, as a failed entry or as an entry; each entry has its exit, each exit is in one bucket, and the
ticks are those between the entries and their exits, all up to the size of a word. Nothing else that
happens to the cores reaches the counters. At any point of the run, a call that finds no current
structure, or one with the wrong launch state, counts as failed and does nothing else to the
counters; and a record that a call shows of an exit that counts has the time stored last. -/
theorem shared_counters_conserve_attempts (hP : Processor.Returns P) (members : ι → Member P)
    (t : Telemetry) (es : List (FleetEvent ι P)) :
    let f₀ : Fleet ι P := ⟨members, t.reset⟩
    let f := f₀.run es
    let n := f.telemetry.counters
    n.entries + n.failedEntries = UInt64.ofNat (es.countP FleetEvent.counted) ∧
    n.entries = n.exits ∧ f.telemetry.sorted = n.exits ∧
    n.guestCycles = UInt64.ofNat ((f₀.attempts es).map Attempt.ticks).sum ∧
    (∀ i call k, call.entry? (f.members i).core = some k → (f.members i).core.Unfit k →
      ((f.running i).call call).2.telemetry = f.telemetry.recordFailedEntry) ∧
    ∀ i call record, (f.running i).shown call = some (.ok (.ok record)) →
      record.entryFailure = false →
      f.attempt? (.call i call) =
        some (.left record.reason (f.running i).now.1 record.timestamp) ∧
      ((f.running i).call call).2.telemetry.counters.lastExit = record.timestamp := by
  intro f₀ f n
  have ht : f.telemetry = t.reset.recordAll ((f₀.attempts es).flatMap Attempt.records) :=
    telemetry_run hP f₀ es
  have hc (c : Telemetry.Counter) : f.telemetry.count c = UInt64.ofNat
      (((f₀.attempts es).flatMap Attempt.records).map (·.adds c)).sum := by
    rw [ht, Telemetry.count_recordAll, Telemetry.count_reset, UInt64.zero_add]
  have hs : f.telemetry.sorted = UInt64.ofNat
      (((f₀.attempts es).flatMap Attempt.records).map (·.adds .exits)).sum := by
    rw [ht, Telemetry.sorted_recordAll, Telemetry.sorted_reset, UInt64.zero_add]
  obtain ⟨hn, he, hx⟩ := Attempt.adds_records (f₀.attempts es)
  rw [length_attempts] at hn
  refine ⟨?_, ?_, ?_, ?_, fun i call k hk hu => ?_, fun i call record hr hf => ?_⟩
  · exact ((congrArg₂ (· + ·) (hc .entries) (hc .failedEntries)).trans
      (UInt64.ofNat_add _ _).symm).trans (congrArg UInt64.ofNat hn)
  · exact ((hc .entries).trans (congrArg UInt64.ofNat he.symm)).trans (hc .exits).symm
  · exact hs.trans (hc .exits).symm
  · exact (hc .guestCycles).trans (congrArg UInt64.ofNat hx)
  · rw [Running.telemetry_call_counted (w := f.running i) hk, Running.telemetry_enter hP,
      Running.attempt_unfit (w := f.running i) hu]
    rfl
  · rw [Running.shown_eq] at hr
    obtain ⟨k, hk, hr⟩ := Option.map_eq_some_iff.1 hr
    have hk' : call.entry? (f.members i).core = some k := hk
    have ha := Running.attempt_of_record hr hf
    refine ⟨by rw [attempt?, hk', Option.map_some, ha], ?_⟩
    rw [Running.telemetry_call_counted hk, Running.telemetry_enter hP, ha]
    rfl

/-- A core that has just loaded a structure, with failures to come. -/
def loadedMember (injected : List (Injection × UInt32)) : Member Emulator :=
  ⟨Station.firstLoad.2.1, .zero,
    { Station.firstLoad.2.2 with
      processor := { Station.firstLoad.2.2.processor with injected } }⟩

/-- One core runs its guest and then has the entry refused; the exits of the other one cannot be
read, first in their qualification and then in their reason. -/
def twoCores : List (FleetEvent Bool Emulator) :=
  [.call true .run,
   .change false (loadedMember [(.vmread Field.exitQualification, 12)]),
   .call false .run,
   .call true (.enterCounted .launch),
   .change false (loadedMember [(.vmread Field.exitReason, 12)]),
   .call false (.dispatch fun _ regs => .ok ((), regs))]

/-- The two cores after that, from a reset on. -/
def twoCoresLater : Fleet Bool Emulator :=
  run ⟨fun _ => loadedMember [], Telemetry.reset {}⟩ twoCores

/-- Two of the four calls count as entries, and both of these have their exits. -/
theorem two_cores_conserve_attempts :
    let f := twoCoresLater
    f.telemetry.counters.entries + f.telemetry.counters.failedEntries = 4 ∧
      f.telemetry.counters.entries = f.telemetry.counters.exits ∧
      f.telemetry.sorted = f.telemetry.counters.exits ∧
      f.telemetry.counters.guestCycles = 200 ∧
      ((f.running true).call (.enterCounted .launch)).2.telemetry =
        f.telemetry.recordFailedEntry ∧
      (f.running true).shown .run = some (.ok (.ok ⟨12, false, 0, 500⟩)) ∧
      ((f.running true).call .run).2.telemetry.counters.lastExit = 500 := by
  have hrun : (twoCoresLater.running true).shown .run = some (.ok (.ok ⟨12, false, 0, 500⟩)) := by
    with_unfolding_all rfl
  obtain ⟨hn, he, hs, hx, hu, hl⟩ :=
    shared_counters_conserve_attempts Emulator.returns (fun _ : Bool => loadedMember []) {} twoCores
  exact ⟨hn, he, hs, hx, hu true (.enterCounted .launch) .launch rfl (.inr ⟨_, rfl, by decide⟩),
    hrun, (hl true .run _ hrun rfl).2⟩

end Fleet

end VmxControl
