import VmxControl.Proofs.Detection

/-!
# Features that are announced

A feature is announced by a bit of the secondary control group, which is there only if the primary
group allows it. So what detection announces is what adjusting the two groups grants. How finely
translations can be dropped is announced by a register of its own, and counts only where page tables
or tags are announced themselves.
-/

namespace VmxControl

/-- What the secondary controls can enable, as far as detection looks for it. -/
inductive Feature where
  | pageTables
  | tags
  | unrestrictedGuest
  | vmFunctions
  deriving DecidableEq, Repr

namespace Feature

/-- The request for the one control that enables the feature. -/
def control : Feature → UInt32
  | .pageTables => eptControl
  | .tags => vpidControl
  | .unrestrictedGuest => unrestrictedGuestControl
  | .vmFunctions => vmFunctionsControl

theorem control_ne_zero (f : Feature) : f.control ≠ 0 := by
  cases f <;> decide

end Feature

def Capabilities.announces (c : Capabilities) : Feature → Bool
  | .pageTables => c.isolation.ept
  | .tags => c.isolation.vpid
  | .unrestrictedGuest => c.unrestrictedGuest
  | .vmFunctions => c.extendedFunctions

/-! ## Requests -/

namespace Controls

/-- The request can be adjusted to a word that the processor accepts. -/
def Grants (c : Controls) (request : UInt32) : Prop := ∃ word, c.adjust request = .ok word

theorem grants_iff (c : Controls) (request : UInt32) :
    c.Grants request ↔ c.allows request = true := by
  unfold Grants adjust allows
  split <;> simp_all

/-- A group that is not there grants the empty request only. -/
theorem grants_absent (g : ControlGroup) (request : UInt32) :
    (absent g).Grants request ↔ request = 0 := by
  have hm : request &&& (absent g).mustBe0 = request := UInt32.and_neg_one
  rw [grants_iff, allows, hm, beq_iff_eq]

end Controls

namespace IsolationFlags

theorem contains_iff (f : IsolationFlags) (mask : UInt64) :
    f.contains mask = true ↔
      ∀ i, mask.toNat.testBit i = true → f.bits.toNat.testBit i = true := by
  rw [contains, beq_iff_eq, ← UInt64.toNat_inj, UInt64.toNat_and]
  constructor
  · intro h i hi
    rw [← h, Nat.testBit_and, Bool.and_eq_true] at hi
    exact hi.1
  · intro h
    refine Nat.eq_of_testBit_eq fun i => ?_
    rw [Nat.testBit_and]
    cases hi : mask.toNat.testBit i with
    | false => exact Bool.and_false _
    | true => rw [h i hi, Bool.and_true]

/-- A mask of two bits is contained if both are. -/
theorem contains_or (f : IsolationFlags) {a b : UInt64} {i j : Nat} (ha : a.toNat = 2 ^ i)
    (hb : b.toNat = 2 ^ j) :
    f.contains (a ||| b) = true ↔
      f.bits.toNat.testBit i = true ∧ f.bits.toNat.testBit j = true := by
  simp only [contains_iff, UInt64.toNat_or, ha, hb, Nat.testBit_or, Nat.testBit_two_pow,
    Bool.or_eq_true, decide_eq_true_eq]
  exact ⟨fun h => ⟨h i (.inl rfl), h j (.inr rfl)⟩, fun h k hk => by
    obtain rfl | rfl := hk
    · exact h.1
    · exact h.2⟩

def eptPosition : EptScope → Nat
  | .singleContext => 25
  | .allContexts => 26

def vpidPosition : VpidScope → Nat
  | .individualAddress => 40
  | .singleContext => 41
  | .allContexts => 42
  | .singleContextRetainingGlobals => 43

theorem toNat_eptBit (k : EptScope) : (eptBit k).toNat = 2 ^ eptPosition k := by
  cases k <;> rfl

theorem toNat_vpidBit (k : VpidScope) : (vpidBit k).toNat = 2 ^ vpidPosition k := by
  cases k <;> rfl

/-- Every scope has its bit among those that are kept, and so has the instruction. -/
theorem ept_mem_positions (k : EptScope) : 20 ∈ positions ∧ eptPosition k ∈ positions := by
  cases k <;> decide

theorem vpid_mem_positions (k : VpidScope) : 32 ∈ positions ∧ vpidPosition k ∈ positions := by
  cases k <;> decide

/-- Of the bits that are kept, two are contained exactly if the word has them. -/
theorem ofWord_contains_or (w : UInt64) {a b : UInt64} {i j : Nat} (ha : a.toNat = 2 ^ i)
    (hb : b.toNat = 2 ^ j) (hm : i ∈ positions ∧ j ∈ positions) :
    (ofWord w).contains (a ||| b) = true ↔
      w.toNat.testBit i = true ∧ w.toNat.testBit j = true := by
  rw [contains_or _ ha hb, testBit_ofWord, testBit_ofWord, decide_eq_true hm.1,
    decide_eq_true hm.2, Bool.and_true, Bool.and_true]

end IsolationFlags

/-! ## Announcements -/

namespace Capabilities

variable {w : Words}

theorem primary_grants (w : Words) :
    (ofAnnouncement w.announcement).primary.Grants secondaryControlsBit ↔ w.secondary = true := by
  rw [Controls.grants_iff]
  exact Bool.eq_iff_iff.1 (Announcement.allows_secondaryControls (w w.primary))

/-- Without secondary controls only the empty request is granted. -/
theorem eq_zero_of_grants (h : ¬ w.secondary = true) {request : UInt32}
    (hg : (ofAnnouncement w.announcement).secondary.Grants request) : request = 0 := by
  have hs : (ofAnnouncement w.announcement).secondary = .absent .secondary := by
    simp only [ofAnnouncement, Words.announcement, if_neg h]
    rfl
  exact (Controls.grants_absent _ request).1 (hs ▸ hg)

/-- What is announced is what the secondary group allows. -/
theorem announces_iff (w : Words) (f : Feature) :
    (ofAnnouncement w.announcement).announces f = true ↔
      (ofAnnouncement w.announcement).secondary.Grants f.control := by
  rw [Controls.grants_iff]
  cases f with
  | pageTables | tags | unrestrictedGuest => exact Iff.rfl
  | vmFunctions =>
    have ha := Announcement.allows_vmFunctions w.secondary (w .vmxProcbasedCtls2)
    refine Bool.eq_iff_iff.1 (Eq.trans ?_ ha.symm)
    simp only [announces, extendedFunctions, ofAnnouncement, Words.announcement]
    show _ = w.vmFunctions
    cases w.vmFunctions <;> rfl

theorem isolation_flags (w : Words) :
    (ofAnnouncement w.announcement).isolation.flags =
      if w.eptVpid then .ofWord (w .vmxEptVpidCap) else .empty := by
  simp only [ofAnnouncement, Words.announcement]
  cases w.eptVpid <;> rfl

/-- The register of abilities is read exactly if one of the two features is announced. -/
theorem eptVpid_eq (w : Words) :
    w.eptVpid = ((ofAnnouncement w.announcement).isolation.ept ||
      (ofAnnouncement w.announcement).isolation.vpid) := by
  have he : (ofAnnouncement w.announcement).isolation.ept = _ := Announcement.allows_ept _ _
  have hv : (ofAnnouncement w.announcement).isolation.vpid = _ := Announcement.allows_vpid _ _
  rw [he, hv, ← Bool.and_or_distrib_left]
  rfl

/-- A scope is supported if its feature is announced and the register has the bits of the
instruction and of the scope. -/
theorem supportsInvept_iff (w : Words) (k : EptScope) :
    (ofAnnouncement w.announcement).isolation.supportsInvept k = true ↔
      (ofAnnouncement w.announcement).isolation.ept = true ∧
        w.bit .vmxEptVpidCap 20 = true ∧
        w.bit .vmxEptVpidCap (IsolationFlags.eptPosition k) = true := by
  rw [Isolation.supportsInvept, Bool.and_eq_true]
  refine and_congr_right fun he => ?_
  rw [isolation_flags, eptVpid_eq, he, Bool.true_or, if_pos rfl]
  exact IsolationFlags.ofWord_contains_or _ rfl (IsolationFlags.toNat_eptBit k)
    (IsolationFlags.ept_mem_positions k)

theorem supportsInvvpid_iff (w : Words) (k : VpidScope) :
    (ofAnnouncement w.announcement).isolation.supportsInvvpid k = true ↔
      (ofAnnouncement w.announcement).isolation.vpid = true ∧
        w.bit .vmxEptVpidCap 32 = true ∧
        w.bit .vmxEptVpidCap (IsolationFlags.vpidPosition k) = true := by
  rw [Isolation.supportsInvvpid, Bool.and_eq_true]
  refine and_congr_right fun hv => ?_
  rw [isolation_flags, eptVpid_eq, hv, Bool.or_true, if_pos rfl]
  exact IsolationFlags.ofWord_contains_or _ rfl (IsolationFlags.toNat_vpidBit k)
    (IsolationFlags.vpid_mem_positions k)

end Capabilities

/-! ## Detection -/

variable {P : Type} [Processor P]

/-- Where a register was read, these are the words that it gave. -/
def Observer.Shows (o : Observer P) (w : Words) : Prop := ∀ r x, Sight.read r x ∈ o.seen → w r = x

namespace Capabilities

theorem present_of_detect {s : Machine P} {c : Capabilities} (h : (detect s).1 = .ok c) :
    (Processor.present s.processor).1 = true := by
  cases hp : (Processor.present s.processor).1 with
  | true => rfl
  | false => simp [detect, hp] at h

/-- Detection that succeeds decodes words, and has seen these in the registers that they announce and
in no others. -/
theorem detect_ok {s : Machine P} {c : Capabilities} (h : (detect s).1 = .ok c) :
    ∃ w : Words, c = ofAnnouncement w.announcement ∧
      ∀ r x, Sight.read r x ∈ (detect s.observed).2.processor.seen ↔ r ∈ w.announced ∧ x = w r := by
  obtain ⟨a, p, n, ha, hd, ho⟩ := detect_observed (present_of_detect h)
  have hnodup (w : Words) : (Announcement.reading.asked w).Nodup := by
    rw [(Announcement.reading_on w).1]
    exact w.nodup_announced
  obtain ⟨w, hs, hw⟩ := Reading.exists_words hnodup (Processor.present s.processor).2
  rw [(Announcement.reading_on w).1] at hs
  rw [ha, (Announcement.reading_on w).2] at hw
  obtain rfl : a = w.announcement := hw
  rw [hd] at h
  cases h
  refine ⟨w, rfl, fun r x => ?_⟩
  rw [ho, hs]
  simp [eq_comm]

/-- If the registers keep their words, these are the words that detection gets. -/
theorem shows_steady {v : P → Words} (hv : Processor.Steady v) {s : Machine P}
    {c : Capabilities} (h : (detect s).1 = .ok c) :
    (detect s.observed).2.processor.Shows (v s.processor) := by
  intro r x hx
  have hs := (detect_steady hv (present_of_detect h)).2
  rw [← List.mem_reverse, hs] at hx
  simp only [List.mem_cons, reduceCtorEq, List.mem_map, false_or] at hx
  obtain ⟨y, -, hy⟩ := hx
  injection hy with hr hw
  exact hr ▸ hw

/-- On every processor on which detection succeeds, a feature is announced exactly if the primary
group grants the secondary controls and the secondary group grants the control of the feature.
Without secondary controls the secondary group grants nothing, and no feature is announced. There are
no abilities unless page tables or tags are announced. A scope is supported exactly if its feature is
announced and the register of abilities, as detection has read it, has the bits of the instruction
and of the scope. -/
theorem announced_features_can_be_enabled {s : Machine P} {c : Capabilities}
    (h : (detect s).1 = .ok c) :
    (∀ f, c.announces f = true ↔
      c.primary.Grants secondaryControlsBit ∧ c.secondary.Grants f.control) ∧
    (¬ c.primary.Grants secondaryControlsBit →
      (∀ request, request ≠ 0 → ¬ c.secondary.Grants request) ∧
        ∀ f, c.announces f = false) ∧
    (c.isolation.ept = false → c.isolation.vpid = false → c.isolation.flags = .empty) ∧
    (∃ w, (detect s.observed).2.processor.Shows w) ∧
    ∀ w : Words, (detect s.observed).2.processor.Shows w →
      (∀ k, c.isolation.supportsInvept k = true ↔ c.isolation.ept = true ∧
        w.bit .vmxEptVpidCap 20 = true ∧
        w.bit .vmxEptVpidCap (IsolationFlags.eptPosition k) = true) ∧
      ∀ k, c.isolation.supportsInvvpid k = true ↔ c.isolation.vpid = true ∧
        w.bit .vmxEptVpidCap 32 = true ∧
        w.bit .vmxEptVpidCap (IsolationFlags.vpidPosition k) = true := by
  obtain ⟨w, rfl, hw⟩ := detect_ok h
  have hnone : ¬ (ofAnnouncement w.announcement).primary.Grants secondaryControlsBit →
      ∀ request, request ≠ 0 → ¬ (ofAnnouncement w.announcement).secondary.Grants request :=
    fun hn request hr hg => hr (eq_zero_of_grants (mt (primary_grants w).2 hn) hg)
  refine ⟨fun f => ?_, fun hn => ⟨hnone hn, fun f => ?_⟩, fun he hv => ?_, ?_, fun x hx => ?_⟩
  · rw [announces_iff]
    exact ⟨fun hg => ⟨not_not.1 fun hn => hnone hn _ (f.control_ne_zero) hg, hg⟩, And.right⟩
  · rw [← Bool.not_eq_true, announces_iff]
    exact hnone hn _ (f.control_ne_zero)
  · rw [isolation_flags, eptVpid_eq, he, hv]
    rfl
  · exact ⟨w, fun r x hx => ((hw r x).1 hx).2.symm⟩
  · -- Where a feature is announced, the register of abilities has been read.
    have hread (ha : w.eptVpid = true) : x .vmxEptVpidCap = w .vmxEptVpidCap :=
      hx _ _ ((hw _ _).2 ⟨(w.mem_announced _).2 ha, rfl⟩)
    refine ⟨fun k => (supportsInvept_iff w k).trans (and_congr_right fun he => ?_),
      fun k => (supportsInvvpid_iff w k).trans (and_congr_right fun hv => ?_)⟩
    · have ha : w.eptVpid = true := by rw [eptVpid_eq, he, Bool.true_or]
      rw [Words.bit, Words.bit, Words.bit, Words.bit, hread ha]
    · have ha : w.eptVpid = true := by rw [eptVpid_eq, hv, Bool.or_true]
      rw [Words.bit, Words.bit, Words.bit, Words.bit, hread ha]

/-- A processor with tags and without page tables, though the abilities of both have their bits. -/
def tagged : Emulator := Emulator.new.setMsr .vmxProcbasedCtls2 0x2000000000

def taggedOnly : Capabilities := .ofAnnouncement (Announcement.read tagged).1

/-- Of its two abilities to drop everything, the one for page tables does not count. -/
theorem tags_without_page_tables :
    (detect (⟨tagged, {}⟩ : Machine Emulator)).1 = .ok taggedOnly ∧
      taggedOnly.primary.Grants secondaryControlsBit ∧
      taggedOnly.secondary.Grants Feature.tags.control ∧
      ¬ taggedOnly.secondary.Grants Feature.pageTables.control ∧
      taggedOnly.isolation.supportsInvvpid .allContexts = true ∧
      taggedOnly.isolation.supportsInvept .allContexts = false := by
  have hc : (detect (⟨tagged, {}⟩ : Machine Emulator)).1 = .ok taggedOnly := rfl
  obtain ⟨hf, -, -, -, hk⟩ := announced_features_can_be_enabled hc
  obtain ⟨he, hv⟩ := hk _ (shows_steady Emulator.steady hc)
  have ha : taggedOnly.announces .tags = true := by decide
  have hn : taggedOnly.announces .pageTables = false := by decide
  obtain ⟨hp, ht⟩ := (hf .tags).1 ha
  refine ⟨hc, hp, ht, fun hg => ?_, (hv .allContexts).2 ⟨ha, by decide⟩,
    Bool.eq_false_iff.2 fun hi => ?_⟩
  · exact Bool.eq_false_iff.1 hn ((hf .pageTables).2 ⟨hp, hg⟩)
  · exact Bool.eq_false_iff.1 hn ((he .allContexts).1 hi).1

end Capabilities

end VmxControl
