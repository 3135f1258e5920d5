import VmxControl.Emulator
import VmxControl.Proofs.Decoding
import VmxControl.Proofs.Reading

/-!
# What detection reads

Detection asks CPUID once and then reads what the words announce that it has read before. What it
reads, and what it makes of it, is given here by the words of the registers alone.
-/

namespace VmxControl

namespace Words

def bit (w : Words) (r : Msr) (i : Nat) : Bool := (w r).toNat.testBit i

/-- The control groups have exact words besides the older ones. -/
def trueControls (w : Words) : Bool := w.bit .vmxBasic 55

def pin (w : Words) : Msr := if w.trueControls then .vmxTruePinbasedCtls else .vmxPinbasedCtls

def primary (w : Words) : Msr := if w.trueControls then .vmxTrueProcbasedCtls else .vmxProcbasedCtls

def exit (w : Words) : Msr := if w.trueControls then .vmxTrueExitCtls else .vmxExitCtls

def entry (w : Words) : Msr := if w.trueControls then .vmxTrueEntryCtls else .vmxEntryCtls

/-- The primary group allows that there is a secondary one. -/
def secondary (w : Words) : Bool := w.bit w.primary 63

/-- The secondary group allows extended page tables or tags. -/
def eptVpid (w : Words) : Bool :=
  w.secondary && (w.bit .vmxProcbasedCtls2 33 || w.bit .vmxProcbasedCtls2 37)

def vmFunctions (w : Words) : Bool := w.secondary && w.bit .vmxProcbasedCtls2 45

/-- The registers that detection reads, in this order. -/
def announced (w : Words) : List Msr :=
  [.vmxBasic, w.pin, w.primary, w.exit, w.entry,
    .vmxCr0Fixed0, .vmxCr0Fixed1, .vmxCr4Fixed0, .vmxCr4Fixed1] ++
  (if w.secondary then [.vmxProcbasedCtls2] else []) ++
  (if w.eptVpid then [.vmxEptVpidCap] else []) ++
  (if w.vmFunctions then [.vmxVmfunc] else [])

/-- Whether the register is one of these. -/
def announces (w : Words) : Msr → Bool
  | .vmxBasic | .vmxCr0Fixed0 | .vmxCr0Fixed1 | .vmxCr4Fixed0 | .vmxCr4Fixed1 => true
  | .vmxPinbasedCtls | .vmxProcbasedCtls | .vmxExitCtls | .vmxEntryCtls => !w.trueControls
  | .vmxTruePinbasedCtls | .vmxTrueProcbasedCtls | .vmxTrueExitCtls | .vmxTrueEntryCtls =>
    w.trueControls
  | .vmxProcbasedCtls2 => w.secondary
  | .vmxEptVpidCap => w.eptVpid
  | .vmxVmfunc => w.vmFunctions
  | .featureControl | .pat | .vmxMisc | .efer | .fsBase | .gsBase => false

theorem nodup_announced (w : Words) : w.announced.Nodup := by
  unfold announced pin primary exit entry
  generalize w.trueControls = t
  generalize w.secondary = x
  generalize w.eptVpid = y
  generalize w.vmFunctions = z
  revert t x y z
  decide

theorem mem_announced (w : Words) (r : Msr) : r ∈ w.announced ↔ w.announces r = true := by
  unfold announced pin primary exit entry
  cases r <;> simp only [announces] <;>
    generalize w.trueControls = t <;> generalize w.secondary = x <;>
    generalize w.eptVpid = y <;> generalize w.vmFunctions = z <;>
    revert t x y z <;> decide

/-- The words as they are announced. -/
def announcement (w : Words) : Announcement where
  basic := w .vmxBasic
  pin := w w.pin
  primary := w w.primary
  exit := w w.exit
  entry := w w.entry
  cr0Fixed0 := w .vmxCr0Fixed0
  cr0Fixed1 := w .vmxCr0Fixed1
  cr4Fixed0 := w .vmxCr4Fixed0
  cr4Fixed1 := w .vmxCr4Fixed1
  secondary := if w.secondary then some (w .vmxProcbasedCtls2) else none
  eptVpid := if w.eptVpid then some (w .vmxEptVpidCap) else none
  vmFunctions := if w.vmFunctions then some (w .vmxVmfunc) else none

end Words

/-! ## Detection as a reading -/

namespace Announcement

def reading : Reading Announcement :=
  .read .vmxBasic fun basic =>
  let exact := (BasicInfo.ofWord basic).trueControls
  .read (if exact then .vmxTruePinbasedCtls else .vmxPinbasedCtls) fun pin =>
  .read (if exact then .vmxTrueProcbasedCtls else .vmxProcbasedCtls) fun primary =>
  .read (if exact then .vmxTrueExitCtls else .vmxExitCtls) fun exit =>
  .read (if exact then .vmxTrueEntryCtls else .vmxEntryCtls) fun entry =>
  .read .vmxCr0Fixed0 fun cr0Fixed0 =>
  .read .vmxCr0Fixed1 fun cr0Fixed1 =>
  .read .vmxCr4Fixed0 fun cr4Fixed0 =>
  .read .vmxCr4Fixed1 fun cr4Fixed1 =>
  .readIf ((Controls.ofWord .primary primary).allows secondaryControlsBit) .vmxProcbasedCtls2
    fun secondary =>
  let controls := Capabilities.secondaryControls secondary
  .readIf (controls.allows eptControl || controls.allows vpidControl) .vmxEptVpidCap fun eptVpid =>
  .readIf (controls.allows vmFunctionsControl) .vmxVmfunc fun vmFunctions =>
  .done { basic, pin, primary, exit, entry, cr0Fixed0, cr0Fixed1, cr4Fixed0, cr4Fixed1, secondary,
          eptVpid, vmFunctions }

theorem read_eq {P : Type} [Processor P] (p : P) : read p = reading.run p := by
  simp only [reading, Reading.run, Reading.run_readIf]
  rfl

/-- The primary group has the control for the secondary one in the topmost bit. -/
theorem allows_secondaryControls (x : UInt64) :
    (Controls.ofWord .primary x).allows secondaryControlsBit = x.toNat.testBit 63 :=
  Controls.allows_ofWord .primary x (i := 31) rfl

variable (c : Bool) (x : UInt64)

/-- The secondary group allows nothing unless it is there. -/
theorem secondary_allows {bits : UInt32} {i : Nat} (hb : bits.toNat = 2 ^ i) :
    (Capabilities.secondaryControls (if c then some x else none)).allows bits =
      (c && x.toNat.testBit (32 + i)) := by
  cases c with
  | false => exact Controls.allows_absent .secondary hb
  | true => exact Controls.allows_ofWord .secondary x hb

theorem allows_ept :
    (Capabilities.secondaryControls (if c then some x else none)).allows eptControl =
      (c && x.toNat.testBit 33) :=
  secondary_allows c x (i := 1) rfl

theorem allows_vpid :
    (Capabilities.secondaryControls (if c then some x else none)).allows vpidControl =
      (c && x.toNat.testBit 37) :=
  secondary_allows c x (i := 5) rfl

theorem allows_unrestrictedGuest :
    (Capabilities.secondaryControls (if c then some x else none)).allows unrestrictedGuestControl =
      (c && x.toNat.testBit 39) :=
  secondary_allows c x (i := 7) rfl

theorem allows_vmFunctions :
    (Capabilities.secondaryControls (if c then some x else none)).allows vmFunctionsControl =
      (c && x.toNat.testBit 45) :=
  secondary_allows c x (i := 13) rfl

/-- The reading asks for what is announced and has the announcement for its answer. -/
theorem reading_on (w : Words) :
    reading.asked w = w.announced ∧ reading.answer w = w.announcement := by
  simp only [reading, Reading.asked, Reading.asked_readIf, Reading.answer, Reading.answer_readIf,
    BasicInfo.trueControls_eq, allows_secondaryControls, allows_ept, allows_vpid,
    allows_vmFunctions, ← Bool.and_or_distrib_left]
  refine ⟨?_, rfl⟩
  simp only [Words.announced, List.append_assoc, List.append_nil]
  rfl

end Announcement

/-! ## What the fields are decoded from -/

/-- Every field is decoded from the words that are announced. -/
structure Capabilities.Decodes (c : Capabilities) (w : Words) : Prop where
  supported : c.supported = true
  basic : c.basic.Decodes (w .vmxBasic)
  pin : c.pin.Decodes .pinBased (w w.pin)
  primary : c.primary.Decodes .primary (w w.primary)
  exit : c.exit.Decodes .exit (w w.exit)
  entry : c.entry.Decodes .entry (w w.entry)
  cr0 : c.cr0.Decodes (w .vmxCr0Fixed0) (w .vmxCr0Fixed1)
  cr4 : c.cr4.Decodes (w .vmxCr4Fixed0) (w .vmxCr4Fixed1)
  secondary : if w.secondary then c.secondary.Decodes .secondary (w .vmxProcbasedCtls2)
    else c.secondary = ⟨.secondary, 0xffffffff, 0⟩
  ept : c.isolation.ept = (w.secondary && w.bit .vmxProcbasedCtls2 33)
  vpid : c.isolation.vpid = (w.secondary && w.bit .vmxProcbasedCtls2 37)
  flags : ∀ i, c.isolation.flags.bits.toNat.testBit i =
    (w.eptVpid && (w.bit .vmxEptVpidCap i && decide (i ∈ IsolationFlags.positions)))
  unrestrictedGuest : c.unrestrictedGuest = (w.secondary && w.bit .vmxProcbasedCtls2 39)
  vmFunctions : c.vmFunctions = if w.vmFunctions then some (w .vmxVmfunc) else none

theorem Capabilities.decodes_announcement (w : Words) :
    (ofAnnouncement w.announcement).Decodes w where
  supported := rfl
  basic := BasicInfo.decodes_ofWord _
  pin := Controls.decodes_ofWord _ _
  primary := Controls.decodes_ofWord _ _
  exit := Controls.decodes_ofWord _ _
  entry := Controls.decodes_ofWord _ _
  cr0 := FixedBits.decodes_ofWords _ _
  cr4 := FixedBits.decodes_ofWords _ _
  secondary := by
    simp only [ofAnnouncement, Words.announcement]
    cases w.secondary with
    | false => rfl
    | true => exact Controls.decodes_ofWord _ _
  ept := Announcement.allows_ept _ _
  vpid := Announcement.allows_vpid _ _
  flags i := by
    simp only [ofAnnouncement, Words.announcement]
    cases w.eptVpid with
    | false => exact Nat.zero_testBit i
    | true => exact IsolationFlags.testBit_ofWord _ i
  unrestrictedGuest := Announcement.allows_unrestrictedGuest _ _
  vmFunctions := rfl

/-! ## Detection under observation -/

theorem Emulator.steady : Processor.Steady fun e : Emulator => e.msrs.get where
  word _ _ := rfl
  readMsr _ _ := rfl
  present _ := rfl

variable {P Q : Type} [Processor P] [Processor Q]

theorem Machine.present_observed {s : Machine P} {b : Bool}
    (h : (Processor.present s.processor).1 = b) :
    Processor.present s.observed.processor =
      (b, ⟨(Processor.present s.processor).2, [.asked b]⟩) := by
  subst h
  rfl

namespace Capabilities

/-- What detection leaves behind: the answer of CPUID and the words that it has read. -/
theorem detect_observed {s : Machine P} (h : (Processor.present s.processor).1 = true) :
    ∃ a p n, Announcement.reading.run (Processor.present s.processor).2 = (a, p) ∧
      detect s = (.ok (ofAnnouncement a), ⟨p, n⟩) ∧
      detect s.observed = (.ok (ofAnnouncement a), ⟨⟨p,
        ((Announcement.reading.seen (Processor.present s.processor).2).map
          fun x => Sight.read x.1 x.2).reverse ++ [.asked true]⟩, n⟩) := by
  obtain ⟨a, p, ha⟩ : ∃ a p, Announcement.reading.run (Processor.present s.processor).2 = (a, p) :=
    ⟨_, _, rfl⟩
  let c := ofAnnouncement a
  refine ⟨a, p, s.host.note (.detected c.basic.revision c.basic.trueControls c.isolation.ept
    c.isolation.vpid), ha, ?_, ?_⟩
  · simp only [detect, h, if_true, Announcement.read_eq, ha]
    rfl
  · simp only [detect, Machine.present_observed h, if_true, Announcement.read_eq,
      Reading.run_observer, ha]
    rfl

/-- Without VMX, detection asks CPUID and gives up. With VMX, it reads the registers that are
announced by the words it reads, each of them once and nothing else, and decodes every field from
the words that it got. So it is for every processor, also for one whose registers change under its
eyes, and with an observer or without one. -/
theorem detect_reads_what_is_announced (s : Machine P) :
    let o := detect s.observed
    detect s = (o.1, ⟨o.2.processor.processor, o.2.host⟩) ∧
    ((Processor.present s.processor).1 = false →
      o.1 = .error (.unsupported "VMX") ∧ o.2.processor.seen = [.asked false]) ∧
    ((Processor.present s.processor).1 = true →
      ∃ (w : Words) (c : Capabilities), o.1 = .ok c ∧ c.Decodes w ∧ w.announced.Nodup ∧
        o.2.processor.seen.reverse =
          .asked true :: w.announced.map fun r => .read r (w r)) := by
  cases h : (Processor.present s.processor).1 with
  | false =>
    simp only [detect, h, Machine.present_observed h]
    exact ⟨rfl, fun _ => ⟨rfl, rfl⟩, fun hn => (nomatch hn)⟩
  | true =>
    obtain ⟨a, p, n, ha, hd, ho⟩ := detect_observed h
    refine ⟨by rw [hd, ho], fun hn => (nomatch hn), fun _ => ?_⟩
    have hnodup (w : Words) : (Announcement.reading.asked w).Nodup := by
      rw [(Announcement.reading_on w).1]
      exact w.nodup_announced
    obtain ⟨w, hs, hw⟩ := Reading.exists_words hnodup (Processor.present s.processor).2
    rw [(Announcement.reading_on w).1] at hs
    rw [ha, (Announcement.reading_on w).2] at hw
    refine ⟨w, ofAnnouncement a, by rw [ho], ?_, w.nodup_announced, ?_⟩
    · rw [show a = w.announcement from hw]
      exact decodes_announcement w
    · rw [ho, hs]
      simp

/-- Where everything is announced, twelve registers are read. -/
example : (detect (⟨.new, {}⟩ : Machine Emulator).observed).2.processor.registers =
    [.vmxBasic, .vmxTruePinbasedCtls, .vmxTrueProcbasedCtls, .vmxTrueExitCtls, .vmxTrueEntryCtls,
      .vmxCr0Fixed0, .vmxCr0Fixed1, .vmxCr4Fixed0, .vmxCr4Fixed1, .vmxProcbasedCtls2,
      .vmxEptVpidCap, .vmxVmfunc] := by
  decide

/-- Of a processor whose registers keep their words, detection sees those that they announce. -/
theorem detect_steady {v : P → Words} (hv : Processor.Steady v) {s : Machine P}
    (h : (Processor.present s.processor).1 = true) :
    (detect s).1 = .ok (ofAnnouncement (v s.processor).announcement) ∧
      (detect s.observed).2.processor.seen.reverse =
        .asked true :: (v s.processor).announced.map fun r => .read r (v s.processor r) := by
  obtain ⟨a, p, n, ha, hd, ho⟩ := detect_observed h
  obtain ⟨hq, hx⟩ := Announcement.reading_on (v s.processor)
  have hr := Reading.run_steady hv Announcement.reading (Processor.present s.processor).2
  have hs := Reading.seen_steady hv Announcement.reading (Processor.present s.processor).2
  rw [ha, hv.present, hx] at hr
  rw [hv.present, hq] at hs
  refine ⟨by rw [hd, ← hr], ?_⟩
  rw [ho, hs]
  simp

theorem registers_steady {v : P → Words} (hv : Processor.Steady v) {s : Machine P}
    (h : (Processor.present s.processor).1 = true) :
    (detect s.observed).2.processor.registers = (v s.processor).announced := by
  rw [Observer.registers, (detect_steady hv h).2]
  simp [List.filterMap_map]

/-- If two processors agree on every register that detection reads on the first, however they differ
in anything else, then it asks the same of both in the same order, and finds the same. What it reads
on the first is what is announced there: no older control word where there are exact ones, no exact
one where there are none, and no word of a group or an ability that the processor does not have. -/
theorem detect_depends_on_what_it_reads {v : P → Words} {w : Q → Words}
    (hv : Processor.Steady v) (hw : Processor.Steady w) (s : Machine P) (t : Machine Q)
    (hs : (Processor.present s.processor).1 = true) (ht : (Processor.present t.processor).1 = true)
    (hr : ∀ r ∈ (detect s.observed).2.processor.registers, v s.processor r = w t.processor r) :
    (detect t.observed).2.processor.seen = (detect s.observed).2.processor.seen ∧
    (∃ c, (detect s).1 = .ok c ∧ (detect t).1 = .ok c) ∧
    ∀ r, r ∈ (detect s.observed).2.processor.registers ↔ (v s.processor).announces r = true := by
  rw [registers_steady hv hs] at hr ⊢
  obtain ⟨hq, hx⟩ := Announcement.reading_on (v s.processor)
  obtain ⟨hq', hx'⟩ := Announcement.reading_on (w t.processor)
  have hagree : ∀ r ∈ Announcement.reading.asked (v s.processor),
      w t.processor r = v s.processor r := fun r h => (hr r (hq ▸ h)).symm
  obtain ⟨ha, hc⟩ := Reading.replay hagree
  rw [hq, hq'] at ha
  rw [hx, hx'] at hc
  obtain ⟨hds, hos⟩ := detect_steady hv hs
  obtain ⟨hdt, hot⟩ := detect_steady hw ht
  refine ⟨?_, ⟨_, hds, hc ▸ hdt⟩, fun r => Words.mem_announced _ r⟩
  rw [← List.reverse_inj, hos, hot, ha]
  exact congrArg _ (List.map_congr_left fun r h => congrArg _ (hr r h).symm)

/-- A processor that differs from a new one in its control registers, its clock, and in words that
it does not announce. -/
def unlike : Emulator :=
  { ((Emulator.new.setMsr .vmxPinbasedCtls 0).setMsr .vmxEntryCtls 0).setMsr .featureControl 0 with
    cr0 := 0
    cr4 := 0
    clock := 7 }

/-- The older words are not read there. -/
theorem detection_sees_no_older_words :
    let s : Machine Emulator := ⟨.new, {}⟩
    let t : Machine Emulator := ⟨unlike, { notes := [.notPresent] }⟩
    let read := (detect s.observed).2.processor.registers
    (∀ r ∈ read, s.processor.msrs.get r = t.processor.msrs.get r) ∧
      Msr.vmxTruePinbasedCtls ∈ read ∧ Msr.vmxPinbasedCtls ∉ read ∧
      s.processor.msrs.get .vmxPinbasedCtls ≠ t.processor.msrs.get .vmxPinbasedCtls ∧
      (detect t.observed).2.processor.seen = (detect s.observed).2.processor.seen ∧
      ∃ c, (detect s).1 = .ok c ∧ (detect t).1 = .ok c := by
  intro s t read
  have hagree : ∀ r ∈ read, s.processor.msrs.get r = t.processor.msrs.get r := by decide
  obtain ⟨hs, hc, hr⟩ :=
    detect_depends_on_what_it_reads Emulator.steady Emulator.steady s t rfl rfl hagree
  have hnew : Words.announces s.processor.msrs.get .vmxTruePinbasedCtls = true := by decide
  have hold : Words.announces s.processor.msrs.get .vmxPinbasedCtls = false := by decide
  exact ⟨hagree, (hr _).2 hnew, fun h => Bool.false_ne_true (hold.symm.trans ((hr _).1 h)),
    by decide, hs, hc⟩

end Capabilities

end VmxControl
