import Mathlib.Tactic.Abel
import VmxControl.Bench.CoreStep
import VmxControl.Proofs.Ledger

/-!
# The accounts of a bench

A bench has frames in its memory objects and in the cores of its slots. Its accounts are in order if
the ledger says that those are out, together with others that somebody else has: a region on its way
between an object and a core, or one that nobody will give back.
-/

namespace VmxControl

namespace Named

variable {κ α : Type} [DecidableEq κ]

/-- All frames of all the things, where `f` gives those of one thing. -/
def total (f : α → Multiset PhysAddr) (xs : Named κ α) : Multiset PhysAddr :=
  (xs.map fun e => f e.2).sum

omit [DecidableEq κ] in
@[simp] theorem total_cons (f : α → Multiset PhysAddr) (e : κ × α) (xs : Named κ α) :
    total f (e :: xs) = f e.2 + total f xs := by
  simp [total]

theorem erase_of_get?_eq_none {xs : Named κ α} {k : κ} (h : get? xs k = none) :
    erase k xs = xs := by
  simp only [get?, Option.map_eq_none_iff, List.find?_eq_none, decide_eq_true_eq] at h
  exact List.filter_eq_self.2 fun e he => by simpa using h e he

theorem erase_cons (e : κ × α) (xs : Named κ α) (k : κ) :
    erase k (e :: xs) = if k = e.1 then erase k xs else e :: erase k xs := by
  by_cases h : k = e.1
  · simp [Named.erase, h]
  · simp [Named.erase, h, Ne.symm h]

variable [LT κ]

/-- The names are in order, so they are distinct. -/
def Sorted (xs : Named κ α) : Prop := xs.Pairwise fun a b => a.1 < b.1

theorem Sorted.erase {xs : Named κ α} (h : Sorted xs) (k : κ) : Sorted (erase k xs) :=
  List.Pairwise.filter _ h

variable [LE κ] [Std.LawfulOrderLT κ]

theorem erase_of_lt {xs : Named κ α} {k : κ} (h : ∀ e ∈ xs, k < e.1) : erase k xs = xs :=
  List.filter_eq_self.2 fun e he => decide_eq_true (Std.ne_of_lt (h e he)).symm

/-- What is under a name, and what is under the others. -/
theorem total_eq (f : α → Multiset PhysAddr) {xs : Named κ α} (hs : Sorted xs) (k : κ) :
    total f xs = (get? xs k).elim 0 f + total f (erase k xs) := by
  cases h : get? xs k with
  | none => rw [erase_of_get?_eq_none h, Option.elim_none, zero_add]
  | some x =>
    rw [Option.elim_some]
    induction xs with
    | nil => simp [get?] at h
    | cons e rest ih =>
      obtain ⟨hlt, hrest⟩ := List.pairwise_cons.1 hs
      by_cases hk : k = e.1
      · obtain rfl : e.2 = x := by simpa [get?, hk] using h
        have he : erase k rest = rest := erase_of_lt (hk ▸ hlt)
        rw [erase_cons, if_pos hk, he, total_cons]
      · have hg : get? rest k = some x := by simpa [get?, Ne.symm hk] using h
        rw [erase_cons, if_neg hk, total_cons, total_cons, ih hrest hg]
        abel

variable [DecidableLT κ]

omit [LE κ] [Std.LawfulOrderLT κ] in
theorem mem_put {xs : Named κ α} {k : κ} {x : α} {e : κ × α} (h : e ∈ put k x xs) :
    e = (k, x) ∨ e ∈ xs := by
  induction xs with
  | nil => exact .inl (List.mem_singleton.1 h)
  | cons d rest ih =>
    unfold Named.put at h
    split at h
    · obtain h | h := List.mem_cons.1 h
      · exact .inl h
      · exact .inr (List.mem_cons_of_mem d h)
    · split at h
      · exact List.mem_cons.1 h
      · obtain h | h := List.mem_cons.1 h
        · exact .inr (h ▸ List.mem_cons_self)
        · exact (ih h).imp_right (List.mem_cons_of_mem d)

variable [Std.IsLinearOrder κ]

theorem Sorted.put {xs : Named κ α} (h : Sorted xs) (k : κ) (x : α) : Sorted (put k x xs) := by
  induction xs with
  | nil => exact List.pairwise_singleton _ _
  | cons d rest ih =>
    obtain ⟨hlt, hrest⟩ := List.pairwise_cons.1 h
    unfold Named.put
    split
    · next hk => exact List.pairwise_cons.2 ⟨fun e he => hk ▸ hlt e he, hrest⟩
    · next hk =>
      split
      · next hl =>
        refine List.pairwise_cons.2 ⟨fun e he => ?_, h⟩
        obtain rfl | he := List.mem_cons.1 he
        · exact hl
        · exact Std.lt_trans hl (hlt e he)
      · next hl =>
        refine List.pairwise_cons.2 ⟨fun e he => ?_, ih hrest⟩
        obtain rfl | he := mem_put he
        · exact Std.lt_of_le_of_ne (Std.not_lt.1 hl) (Ne.symm hk)
        · exact hlt e he

/-- Putting a thing under a name leaves what is under the others. -/
theorem total_put (f : α → Multiset PhysAddr) {xs : Named κ α} (hs : Sorted xs) (k : κ) (x : α) :
    total f (put k x xs) = f x + total f (erase k xs) := by
  induction xs with
  | nil => simp [Named.put, Named.erase]
  | cons d rest ih =>
    obtain ⟨hlt, hrest⟩ := List.pairwise_cons.1 hs
    unfold Named.put
    split
    · next hk =>
      have he : erase k rest = rest := erase_of_lt (hk ▸ hlt)
      rw [erase_cons, if_pos hk, he, total_cons]
    · next hk =>
      split
      · next hl =>
        have he : erase k (d :: rest) = d :: rest := by
          refine erase_of_lt fun e hm => ?_
          obtain rfl | hm := List.mem_cons.1 hm
          · exact hl
          · exact Std.lt_trans hl (hlt e hm)
        rw [he, total_cons]
      · rw [erase_cons, if_neg hk, total_cons, total_cons, ih hrest]
        abel

end Named

/-! ## Who has the frames -/

def MemoryObject.frames (o : MemoryObject) : Multiset PhysAddr := {o.addr}

namespace Occupant

def frames (o : Occupant) : Multiset PhysAddr := o.root?.elim 0 Core.Root.frames

def abandons (o : Occupant) (s : Machine Rig) : Multiset PhysAddr :=
  match o with
  | .core c => c.abandons s
  | .holder h => h.abandons s

theorem frames_of_root {o : Occupant} {c : Core.Root} (h : o.root? = some c) :
    o.frames = c.frames := by
  rw [frames, h, Option.elim_some]

theorem frames_enabled (c : Core.Enabled) : (Occupant.core (.enabled c)).frames = 0 := rfl

theorem frames_holder (h : Holder) : (Occupant.holder h).frames = h.frames := by
  cases hc : h.core <;> simp [frames, root?, Holder.root?, Holder.frames, Core.frames, hc]

@[simp] theorem frames_withRoot (o : Occupant) (c : Core.Root) : (o.withRoot c).frames = c.frames := by
  cases o <;> rfl

theorem drop_trades (o : Occupant) (s : Machine Rig) :
    s.Trades (o.drop s) o.frames (o.abandons s) := by
  cases o with
  | core c => exact c.drop_trades s
  | holder h =>
    rw [frames_holder]
    exact h.drop_trades s

end Occupant

namespace Slot

def frames (s : Slot) : Multiset PhysAddr := s.occupant.elim 0 Occupant.frames

/-- How many frames the core of a slot has: one for VMX operation, and one if there is a current
structure. -/
def regions (s : Slot) : Nat :=
  (s.occupant.bind Occupant.root?).elim 0 fun c => 1 + if c.current.isSome then 1 else 0

theorem card_frames (s : Slot) : s.frames.card = s.regions := by
  cases ho : s.occupant with
  | none => simp [frames, regions, ho]
  | some o =>
    cases hr : o.root? with
    | none => simp [frames, regions, Occupant.frames, ho, hr]
    | some c =>
      have hf : s.frames = c.frames := by
        rw [frames, ho, Option.elim_some, Occupant.frames_of_root hr]
      have hn : s.regions = 1 + if c.current.isSome then 1 else 0 := by simp [regions, ho, hr]
      rw [hf, hn]
      cases hc : c.current <;> simp [Core.Root.frames, Core.Root.region?, hc]

/-- What is abandoned when the slot loses its core. -/
def abandons (s : Slot) (b : Bench) : Multiset PhysAddr :=
  s.occupant.elim 0 (·.abandons (b.machine s))

end Slot

namespace Bench

/-- The frames of the objects and of the cores. -/
def held (b : Bench) : Multiset PhysAddr :=
  Named.total MemoryObject.frames b.objects + Named.total Slot.frames b.slots

theorem card_held (b : Bench) :
    b.held.card = b.objects.length + (b.slots.map fun e => e.2.regions).sum := by
  have ho (xs : Named String MemoryObject) :
      (Named.total MemoryObject.frames xs).card = xs.length := by
    induction xs with
    | nil => rfl
    | cons e rest ih => simp [MemoryObject.frames, ih]
  have hs (xs : Named Nat Slot) :
      (Named.total Slot.frames xs).card = (xs.map fun e => e.2.regions).sum := by
    induction xs with
    | nil => rfl
    | cons e rest ih => simp [Slot.card_frames, ih]
  rw [held, Multiset.card_add, ho, hs]

/-- The frames that are out are those that the bench has, and these others. -/
structure Accounted (b : Bench) (others : Multiset PhysAddr) : Prop where
  slots : Named.Sorted b.slots
  objects : Named.Sorted b.objects
  owes : b.host.memory.Owes (b.held + others)

theorem accounted_empty : ({} : Bench).Accounted 0 :=
  ⟨List.Pairwise.nil, List.Pairwise.nil, Memory.owes_empty⟩

/-- The slots, the objects and the memory are the same. -/
structure Alike (b b' : Bench) : Prop where
  slots : b'.slots = b.slots
  objects : b'.objects = b.objects
  memory : b'.host.memory = b.host.memory

theorem Alike.trans {b b' b'' : Bench} (h : b.Alike b') (h' : b'.Alike b'') : b.Alike b'' :=
  ⟨h'.slots.trans h.slots, h'.objects.trans h.objects, h'.memory.trans h.memory⟩

/-- The slot with this number has this occupant. -/
structure Seats (b : Bench) (n : Nat) (s : Slot) (o : Occupant) : Prop where
  slot : b.slots.get? n = some s
  occupant : s.occupant = some o

theorem Seats.frames {b : Bench} {n : Nat} {s : Slot} {o : Occupant} (h : b.Seats n s o) :
    s.frames = o.frames := by
  rw [Slot.frames, h.occupant, Option.elim_some]

namespace Accounted

variable {b b' : Bench} {n : Nat} {s : Slot} {o o' : Occupant} {name : String}
  {x x' : MemoryObject} {xs ys zs : Multiset PhysAddr}

theorem of_alike (h : b.Accounted zs) (ha : b.Alike b') : b'.Accounted zs := by
  refine ⟨ha.slots ▸ h.slots, ha.objects ▸ h.objects, ?_⟩
  rw [ha.memory, held, ha.slots, ha.objects]
  exact h.owes

/-- An exchange with the host that leaves the things of the bench alone. -/
theorem trade (h : b.Accounted (xs + zs)) (hs : b'.slots = b.slots) (ho : b'.objects = b.objects)
    (ht : b.host.memory.Trades b'.host.memory xs ys) : b'.Accounted (ys + zs) := by
  refine ⟨hs ▸ h.slots, ho ▸ h.objects, ?_⟩
  refine ht.owes h.owes (add_left_comm _ _ _) ?_
  rw [held, hs, ho, ← held]
  exact add_left_comm _ _ _

/-- The thing in a slot is another, and frames were exchanged meanwhile. -/
theorem put_slot (h : b.Accounted (xs + zs)) (hs : b'.slots = b.slots.put n s)
    (ho : b'.objects = b.objects)
    (ht : b.host.memory.Trades b'.host.memory ((b.slots.get? n).elim 0 Slot.frames + xs)
      (s.frames + ys)) : b'.Accounted (ys + zs) := by
  refine ⟨hs ▸ h.slots.put n s, ho ▸ h.objects, ?_⟩
  let rest := Named.total MemoryObject.frames b.objects +
    Named.total Slot.frames (Named.erase n b.slots) + zs
  have hb : b.held + (xs + zs) = (b.slots.get? n).elim 0 Slot.frames + xs + rest := by
    rw [held, Named.total_eq Slot.frames h.slots n]
    simp only [rest]
    abel
  have hb' : b'.held + (ys + zs) = s.frames + ys + rest := by
    rw [held, hs, ho, Named.total_put Slot.frames h.slots]
    simp only [rest]
    abel
  exact ht.owes h.owes hb hb'

theorem put_object (h : b.Accounted (xs + zs)) (hs : b'.slots = b.slots)
    (ho : b'.objects = b.objects.put name x)
    (ht : b.host.memory.Trades b'.host.memory
      ((b.objects.get? name).elim 0 MemoryObject.frames + xs) (x.frames + ys)) :
    b'.Accounted (ys + zs) := by
  refine ⟨hs ▸ h.slots, ho ▸ h.objects.put name x, ?_⟩
  let rest := Named.total MemoryObject.frames (Named.erase name b.objects) +
    Named.total Slot.frames b.slots + zs
  have hb : b.held + (xs + zs) =
      (b.objects.get? name).elim 0 MemoryObject.frames + xs + rest := by
    rw [held, Named.total_eq MemoryObject.frames h.objects name]
    simp only [rest]
    abel
  have hb' : b'.held + (ys + zs) = x.frames + ys + rest := by
    rw [held, hs, ho, Named.total_put MemoryObject.frames h.objects]
    simp only [rest]
    abel
  exact ht.owes h.owes hb hb'

/-! ### Slots -/

theorem reoccupy {occupant : Option Occupant} {m : Machine Rig} (h : b.Accounted (xs + zs))
    (hs : b.Seats n s o) (ht : (b.machine s).Trades m (o.frames + xs)
      (occupant.elim 0 Occupant.frames + ys)) :
    ((b.restore s m).occupy n s occupant).Accounted (ys + zs) := by
  refine h.put_slot rfl rfl ?_
  rw [hs.slot, Option.elim_some, hs.frames]
  exact ht

theorem settle {m : Machine Rig} (h : b.Accounted zs) (hs : b.Seats n s o)
    (ht : (b.machine s).Trades m o.frames o'.frames) : (b.settle n s o' m).Accounted zs := by
  rw [← zero_add zs] at h ⊢
  exact h.reoccupy hs (by simpa only [add_zero, Option.elim_some] using ht)

theorem restore {m : Machine Rig} (h : b.Accounted zs)
    (hm : m.host.memory = b.host.memory) : (b.restore s m).Accounted zs :=
  h.of_alike ⟨rfl, rfl, hm⟩

theorem dropOccupant (h : b.Accounted zs) (hs : b.slots.get? n = some s) :
    (b.dropOccupant n s).Accounted (s.abandons b + zs) := by
  cases ho : s.occupant with
  | none =>
    have hz : s.abandons b = 0 := by rw [Slot.abandons, ho, Option.elim_none]
    rw [Bench.dropOccupant, ho, hz, zero_add]
    exact h
  | some o =>
    have hz : s.abandons b = o.abandons (b.machine s) := by rw [Slot.abandons, ho, Option.elim_some]
    rw [Bench.dropOccupant, ho, hz]
    rw [← zero_add zs] at h
    refine h.reoccupy ⟨hs, ho⟩ ?_
    rw [add_zero, Option.elim_none, zero_add]
    exact o.drop_trades (b.machine s)

/-! ### Objects -/

theorem forget (h : b.Accounted zs) (hg : b.objects.get? name = some x) :
    (b.forget name).Accounted (x.frames + zs) := by
  refine ⟨h.slots, h.objects.erase name, ?_⟩
  have hb : b.held + zs = (b.forget name).held + (x.frames + zs) := by
    rw [held, held, Named.total_eq MemoryObject.frames h.objects name, hg, Option.elim_some]
    simp only [Bench.forget]
    abel
  rw [← hb]
  exact h.owes

theorem release (h : b.Accounted (x.frames + zs)) : (b.release x).Accounted zs := by
  have ht : (b.release x).Accounted (0 + zs) :=
    h.trade rfl rfl (b.host.release_trades x.heldFrame)
  rwa [zero_add] at ht

/-- What a new object displaces is given back. -/
theorem keep (h : b.Accounted (x.frames + zs)) : (b.keep name x).Accounted zs := by
  rw [← zero_add zs]
  cases hg : b.objects.get? name with
  | none =>
    rw [Bench.keep, hg]
    refine h.put_object rfl rfl ?_
    rw [hg, Option.elim_none, zero_add, add_zero]
    exact .refl _ _
  | some old =>
    rw [Bench.keep, hg]
    refine h.put_object rfl rfl ?_
    rw [hg, Option.elim_some, add_zero]
    have ht := (b.host.release_trades old.heldFrame).frame x.frames
    rwa [zero_add] at ht

/-- An object that is made of the frame that had its name before. -/
theorem replace (h : b.Accounted zs) (hg : b.objects.get? name = some x)
    (ha : x'.addr = x.addr) : (b.takeBack name x').Accounted zs := by
  rw [← zero_add zs] at h ⊢
  refine h.put_object rfl rfl ?_
  have hf : x'.frames = x.frames := by rw [MemoryObject.frames, ha, MemoryObject.frames]
  rw [hg, Option.elim_some, hf]
  exact .refl _ _

/-! ### Between slots and objects -/

/-- The slot has taken the frame of an object. -/
theorem hand_over {occupant : Option Occupant} {m : Machine Rig} (h : b.Accounted zs)
    (hs : b.Seats n s o) (hg : b.objects.get? name = some x)
    (ht : (b.machine s).Trades m (o.frames + x.frames) (occupant.elim 0 Occupant.frames)) :
    (((b.restore s m).occupy n s occupant).forget name).Accounted zs := by
  have hf : (b.forget name).Seats n s o := ⟨hs.slot, hs.occupant⟩
  rw [← add_zero (occupant.elim 0 Occupant.frames)] at ht
  have hr : (((b.forget name).restore s m).occupy n s occupant).Accounted (0 + zs) :=
    (h.forget hg).reoccupy hf ht
  rw [zero_add] at hr
  exact hr

/-- The slot has given a frame away, which is now an object. -/
theorem take_out {m : Machine Rig} (h : b.Accounted zs) (hs : b.Seats n s o)
    (ht : (b.machine s).Trades m o.frames (o'.frames + x.frames)) :
    ((b.settle n s o' m).keep name x).Accounted zs := by
  rw [← zero_add zs] at h
  have hr : (b.settle n s o' m).Accounted (x.frames + zs) :=
    h.reoccupy hs (by simpa only [add_zero, Option.elim_some] using ht)
  exact hr.keep

end Accounted

/-! ## What a step has found -/

section Found

variable {b : Bench} {n : Nat} {s : Slot} {o : Occupant} {c : Core.Root} {name : String}

/-- A computation that answers has answered at each of its steps. -/
theorem bind_ok {α β : Type} {x : Except Denial α} {f : α → Except Denial β} {y : β}
    (h : x >>= f = .ok y) : ∃ a, x = .ok a ∧ f a = .ok y := by
  cases x with
  | error d => cases h
  | ok a => exact ⟨a, rfl, h⟩

theorem slot_ok (h : b.slot n = .ok s) : b.slots.get? n = some s := by
  unfold slot at h
  split at h
  · next hs => cases h; exact hs
  · cases h

theorem occupied_ok (h : b.occupied n = .ok (s, o)) : b.Seats n s o := by
  unfold occupied at h
  split at h
  · next hs =>
    split at h
    · next ho => cases h; exact ⟨hs, ho⟩
    · cases h
  · cases h

theorem core_ok {c : Core} (h : b.core n = .ok (s, c)) : b.Seats n s (.core c) := by
  unfold core at h
  split at h
  · next ho => cases h; exact occupied_ok ho
  · cases h
  · cases h

theorem holder_ok {c : Holder} (h : b.holder n = .ok (s, c)) : b.Seats n s (.holder c) := by
  unfold holder at h
  split at h
  · next ho => cases h; exact occupied_ok ho
  · cases h
  · cases h

theorem root_ok (h : b.root n = .ok (s, o, c)) : b.Seats n s o ∧ o.frames = c.frames := by
  unfold root at h
  split at h
  · next ho =>
    split at h
    · next hc => cases h; exact ⟨occupied_ok ho, Occupant.frames_of_root hc⟩
    · cases h
  · cases h

theorem region_ok {kind : RegionKind} {r : Region kind} (h : b.region kind name = .ok r) :
    ∃ x, b.objects.get? name = some x ∧ x.addr = r.addr := by
  unfold region at h
  split at h
  · next hr =>
    cases h
    obtain ⟨x, hx, hr⟩ := Option.bind_eq_some_iff.1 hr
    refine ⟨x, hx, ?_⟩
    cases x with
    | frame | raw => cases hr
    | stamped k r' =>
      simp only [MemoryObject.region?] at hr
      split at hr
      · next hk => subst hk; cases hr; rfl
      · cases hr
  · cases h

theorem memory_detect {P : Type} [Processor P] (m : Machine P) :
    (Capabilities.detect m).2.host.memory = m.host.memory := by
  unfold Capabilities.detect
  dsimp only
  split <;> rfl

theorem snapshot_ok {b' : Bench} {caps : Capabilities} (h : b.snapshot name = .ok (caps, b')) :
    b.Alike b' := by
  unfold snapshot at h
  split at h
  · cases h
    exact ⟨rfl, rfl, rfl⟩
  · split at h
    · split at h
      · next hd =>
        have hm := memory_detect (⟨Emulator.new, b.host⟩ : Machine Emulator)
        rw [hd] at hm
        cases h
        exact ⟨rfl, rfl, hm⟩
      · cases h
    · cases h

theorem provide_ok {b' : Bench} {source : ProcessorSource} (h : b.provide source = .ok (s, b')) :
    b.Alike b' := by
  cases source with
  | model m => cases h; exact ⟨rfl, rfl, rfl⟩
  | shared k =>
    obtain ⟨s', hs, h⟩ := bind_ok h
    cases h
    exact ⟨rfl, rfl, rfl⟩

end Found

end Bench

end VmxControl
