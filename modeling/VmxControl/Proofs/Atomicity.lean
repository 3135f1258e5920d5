import VmxControl.Proofs.LaunchState
import VmxControl.Proofs.Recording

/-!
# Failed operations

An operation that fails leaves the core as it was and hands back what it was given. It leaves the
processor as it was too, up to the number of the failure, except in two cases: a guest has run and
the reason of its exit cannot be read, or a structure was taken and VMCLEAR does not undo that.
-/

namespace VmxControl

/-- The two differ in no register, pointer or launch state, and in no field besides the number of
the last failure. -/
structure Emulator.Intact (e e' : Emulator) : Prop where
  settings : e'.settings = e.settings
  vmxonPtr : e'.vmxonPtr = e.vmxonPtr
  current : e'.current = e.current
  launched : ∀ a, e'.launched.get a = e.launched.get a
  fields : ∀ a f, f ≠ Field.instructionError → e'.fields.get (a, f) = e.fields.get (a, f)

theorem Emulator.Spares.intact {e e' : Emulator} (h : e.Spares e') : e.Intact e' :=
  ⟨h.settings, h.vmxonPtr, h.current, fun a => congrArg (·.get a) h.launched, h.fields⟩

/-- VMPTRLD and VMCLEAR of a structure that was not launched, with no other current. -/
theorem Emulator.Spares.intact_of_undone {e e' : Emulator} {a : PhysAddr} {m : Memory}
    (h : (e.next (.vmptrld a m)).Spares e') (hc : e.current = none)
    (hl : e.launched.get a = false) : e.Intact (e'.next (.vmclear a)) := by
  have hcur : e'.current = some a := h.current
  have hlaunched : e'.launched = e.launched := h.launched
  refine ⟨h.settings, h.vmxonPtr, ?_, fun b => ?_, h.fields⟩
  · exact (if_pos hcur).trans hc.symm
  · show (e'.launched.put a false).get b = e.launched.get b
    rw [Store.get_put, hlaunched]
    split
    · next hb => exact (hb ▸ hl).symm
    · rfl

/-- The operation cannot undo what came before this command. -/
def Operation.Commits : Operation → Command → Prop
  | .load _, .vmclear _ => True
  | .enter _ _, .vmread f => f = Field.exitReason
  | _, _ => False

namespace Core

namespace Performs

variable {c : Core} {o : Operation} {s : Machine Recorder} {r : Outcome Recorder} {why : Failure}

theorem returned (h : c.Performs s o r) (hf : r.failure = some why) :
    r.core = some c ∧ r.back = o.given ∧ r.machine.host.memory = s.host.memory := by
  cases h with
  | carriedOut hn => cases hn.symm.trans hf
  | withheld _ hm => exact ⟨rfl, rfl, hm⟩
  | failed h | undone _ _ h | unseen h => exact ⟨rfl, rfl, h.memory⟩
  | stranded h hu => exact ⟨rfl, rfl, hu.memory.trans h.memory⟩

/-- Only a load can have changed launch states before it failed, and there is none to lose while the
core holds no structure. -/
theorem intact {d : Root} (h : (root d).Performs s o r) (hf : r.failure = some why)
    (hidle : d.current = none →
      s.processor.emulator.current = none ∧ ∀ a, s.processor.emulator.launched.get a = false)
    (hc : ∀ x ∈ r.machine.processor.failures, ¬ o.Commits x.1) :
    s.processor.emulator.Intact r.machine.processor.emulator := by
  cases h with
  | carriedOut hn => cases hn.symm.trans hf
  | withheld hp => exact hp ▸ (Emulator.Spares.refl _).intact
  | failed h => exact h.spares.intact
  | @undone x region _ _ he hd h =>
    cases he
    obtain ⟨hcur, hl⟩ := hidle hd
    have hs : (s.processor.emulator.next (.vmptrld region.addr s.host.memory)).Spares _ := h.spares
    exact hs.intact_of_undone hcur (hl region.addr)
  | stranded _ hu => exact absurd trivial (hc _ (hu.noted.subset List.mem_cons_self))
  | unseen h => exact absurd rfl (hc _ (h.noted.subset List.mem_cons_self))

end Performs

end Core

namespace Station

variable {s : Station}

/-- An operation that fails in root operation, whatever happened to the core before: the core stays
as it was, a structure that it refuses is handed back with its stamp, and the memory is untouched.
If core and processor agreed on the current structure, the processor is intact too, unless one of
the commands that failed is one behind which there is no way back. -/
theorem failed_operations_atomic {c : Core.Disabled} (hc : s.core = some (.disabled c))
    (hn : s.standing.current = none) (hl : ∀ a, s.standing.launched.get a = false)
    (es : List Event) {d : Core.Root} (hd : (s.run es).core = some (.root d)) (o : Operation)
    {why : Failure} (hf : ((Core.root d).perform o (s.run es).machine).failure = some why) :
    (Core.root d).perform o (s.run es).machine =
      ((Core.root d).perform o (s.run es).machine.recorded).map Recorder.emulator ∧
    ((Core.root d).perform o (s.run es).machine).core = some (.root d) ∧
    ((Core.root d).perform o (s.run es).machine).back = o.given ∧
    ((Core.root d).perform o (s.run es).machine).machine.host.memory =
      (s.run es).machine.host.memory ∧
    (d.Agrees (s.run es).standing →
      (∀ x ∈ ((Core.root d).perform o (s.run es).machine.recorded).machine.processor.failures,
        ¬ o.Commits x.1) →
      (s.run es).machine.processor.Intact
        ((Core.root d).perform o (s.run es).machine).machine.processor) := by
  have hmarks := marks_run hc hn hl es
  have hrec := (Core.root d).perform_recorded o (s.run es).machine
  rw [hrec] at hf
  have hp := (Core.root d).performs o (s.run es).machine.recorded
  obtain ⟨hcore, hback, hmem⟩ := hp.returned hf
  refine ⟨hrec, ?_⟩
  rw [hrec]
  refine ⟨hcore, hback, hmem, fun ha hcommits => ?_⟩
  exact hp.intact hf (fun h => ⟨ha.of_none h, Core.Root.launched_none (hmarks _ hd) h⟩) hcommits

/-- In root operation, where a load is to fail at the host state. -/
def unhosted : List Event := toRoot ++ [.influence (.inject .hostState 26)]

/-- A load that fails at the host state leaves the processor without a current structure, as it was
before. The structure that it was given comes back. -/
theorem unhosted_load_intact :
    ∃ d, (fresh.run unhosted).core = some (.root d) ∧
      ((Core.root d).perform (.load (stamped .vmcs 0x101000))
        (fresh.run unhosted).machine).failure = some (.valid ⟨26⟩) ∧
      ((Core.root d).perform (.load (stamped .vmcs 0x101000)) (fresh.run unhosted).machine).back =
        some (stamped .vmcs 0x101000) ∧
      (fresh.run unhosted).machine.processor.Intact ((Core.root d).perform
        (.load (stamped .vmcs 0x101000)) (fresh.run unhosted).machine).machine.processor := by
  let d : Core.Root := ⟨⟨0, Core.announced⟩, stamped .vmxon 0x100000, none⟩
  have hf : ((Core.root d).perform (.load (stamped .vmcs 0x101000))
      (fresh.run unhosted).machine).failure = some (.valid ⟨26⟩) := rfl
  obtain ⟨-, -, hback, -, hintact⟩ :=
    failed_operations_atomic (s := fresh) rfl rfl (fun _ => rfl) unhosted (d := d) rfl _ hf
  refine ⟨d, rfl, hf, hback, hintact rfl fun x hx => ?_⟩
  -- the one command that failed is the writing of the host state
  obtain rfl := List.mem_singleton.1 hx
  exact id

end Station

end VmxControl
