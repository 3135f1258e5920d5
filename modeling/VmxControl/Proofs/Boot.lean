import VmxControl.Proofs.Detection
import VmxControl.Run

/-!
# The snapshot of a boot

What was detected first is kept in a cell that is filled once. Of the cell no more is assumed than that
it looks for a value only while it is empty, and keeps the first one that is found. Processors of any
kinds ask for the snapshot, one after the other, and an observer in front of each sees what that costs
the processor.
-/

namespace VmxControl

/-- Cells that are filled once. A cell is asked for its value along with a way to find one. If that
way fails the cell stays empty, and the next one who asks can try again. -/
class Once (κ : Type) (α : outParam Type) where
  empty : κ
  value? : κ → Option α
  get {ε σ : Type} : (σ → Except ε α × σ) → κ → σ → Except ε α × κ × σ
  value?_empty : value? empty = none
  get_full {ε σ : Type} (find : σ → Except ε α × σ) {k : κ} {a : α} (s : σ) :
    value? k = some a → get find k s = (.ok a, k, s)
  get_found {ε σ : Type} {find : σ → Except ε α × σ} {k : κ} {a : α} {s t : σ} :
    value? k = none → find s = (.ok a, t) → ∃ l, get find k s = (.ok a, l, t) ∧ value? l = some a
  get_failed {ε σ : Type} {find : σ → Except ε α × σ} {k : κ} {e : ε} {s t : σ} :
    value? k = none → find s = (.error e, t) → ∃ l, get find k s = (.error e, l, t) ∧ value? l = none

namespace BootSnapshot

instance : Once BootSnapshot Capabilities where
  empty := {}
  value? := found
  get find b s :=
    match b.found with
    | some c => (.ok c, b, s)
    | none =>
      match find s with
      | (.ok c, s) => (.ok c, ⟨some c⟩, s)
      | (.error e, s) => (.error e, b, s)
  value?_empty := rfl
  get_full _ _ _ _ h := by simp only [h]
  get_found h hf := by simp [h, hf]
  get_failed h hf := by simp [h, hf]

/-- The snapshot is asked for with detection as the way to find it. -/
theorem get_eq_once {P : Type} [Processor P] (b : BootSnapshot) (s : Machine P) :
    b.get s = Once.get Capabilities.detect b s := by
  cases hb : b.found with
  | some c => simp only [get, Once.get, hb]
  | none =>
    rcases hd : Capabilities.detect s with ⟨e | c, t⟩
    all_goals simp only [get, Once.get, hb, hd]

end BootSnapshot

namespace Boot

variable {ι κ : Type} {P : ι → Type} [∀ i, Processor (P i)] [Once κ Capabilities]

/-- One of several kinds of processors, about to ask for the snapshot. -/
abbrev Asker (P : ι → Type) : Type := (i : ι) × Machine (P i)

/-- Whether CPUID reports VMX. -/
def Asker.reports (a : Asker P) : Bool := (Processor.present a.2.processor).1

structure Answer where
  result : Except Failure Capabilities
  /-- What is seen of the processor meanwhile. -/
  seen : List Sight

/-- CPUID was asked once, and no register was read. -/
def Answer.absent : Answer := ⟨.error (.unsupported "VMX"), [.asked false]⟩

def ask (k : κ) (a : Asker P) : Answer × κ :=
  let (result, k, s) := Once.get Capabilities.detect k a.2.observed
  (⟨result, s.processor.seen⟩, k)

/-- The answers of a new cell. -/
def answers (κ : Type) [Once κ Capabilities] (askers : List (Asker P)) : List Answer :=
  (Run.answers ask (Once.empty : κ) askers).1

/-! ## One who asks -/

theorem ask_full {k : κ} {c : Capabilities} (h : Once.value? k = some c) (a : Asker P) :
    ask k a = (⟨.ok c, []⟩, k) := by
  simp only [ask, Once.get_full _ _ h]
  rfl

theorem ask_absent {k : κ} {a : Asker P} (h : Once.value? k = none) (ha : a.reports = false) :
    ∃ l, ask k a = (.absent, l) ∧ Once.value? l = none := by
  have hd : Capabilities.detect a.2.observed = (.error (.unsupported "VMX"),
      ⟨⟨(Processor.present a.2.processor).2, [.asked false]⟩, a.2.host.note .notPresent⟩) := by
    simp only [Capabilities.detect, Machine.present_observed ha]
    rfl
  obtain ⟨l, hl, hn⟩ := Once.get_failed h hd
  exact ⟨l, by simp only [ask, hl, Answer.absent], hn⟩

theorem ask_found {k : κ} {a : Asker P} (h : Once.value? k = none) (ha : a.reports = true) :
    ∃ c l, (Capabilities.detect a.2).1 = .ok c ∧
      ask k a = (⟨.ok c, (Capabilities.detect a.2.observed).2.processor.seen⟩, l) ∧
      Once.value? l = some c := by
  obtain ⟨w, p, n, -, hd, ho⟩ := Capabilities.detect_observed ha
  obtain ⟨l, hl, hs⟩ := Once.get_found h ho
  exact ⟨_, l, congrArg Prod.fst hd, by simp only [ask, hl, ho], hs⟩

/-! ## Many who ask -/

/-- Once the cell is full it answers all alike. -/
theorem answers_full {k : κ} {c : Capabilities} (h : Once.value? k = some c)
    (askers : List (Asker P)) :
    (Run.answers ask k askers).1 = askers.map fun _ => ⟨.ok c, []⟩ := by
  induction askers with
  | nil => rfl
  | cons a askers ih => rw [Run.answers_cons, ask_full h, ih, List.map_cons]

/-- As long as no processor reports VMX the cell stays empty. -/
theorem answers_absent {k : κ} (h : Once.value? k = none) {askers : List (Asker P)}
    (ha : ∀ a ∈ askers, a.reports = false) :
    (Run.answers ask k askers).1 = askers.map (fun _ => .absent) ∧
      Once.value? (Run.answers ask k askers).2 = none := by
  induction askers generalizing k with
  | nil => exact ⟨rfl, h⟩
  | cons a askers ih =>
    obtain ⟨l, hl, hn⟩ := ask_absent h (ha a List.mem_cons_self)
    obtain ⟨hr, hv⟩ := ih hn fun b hb => ha b (List.mem_cons_of_mem a hb)
    rw [Run.answers_cons, hl, hr, List.map_cons]
    exact ⟨rfl, hv⟩

/-- Whoever asks before a processor reports VMX is refused, and CPUID is asked once and no register is
read. The first processor that reports VMX is told what detection finds on it. Everyone who asks later
is told the same, and nothing at all is asked of their processors, whatever these would have
announced. -/
theorem first_detection_is_kept {before : List (Asker P)} (hb : ∀ a ∈ before, a.reports = false) :
    answers κ before = before.map (fun _ => .absent) ∧
    ∀ (first : Asker P) (later : List (Asker P)), first.reports = true →
      ∃ c, (Capabilities.detect first.2).1 = .ok c ∧
        answers κ (before ++ first :: later) = before.map (fun _ => .absent) ++
          ⟨.ok c, (Capabilities.detect first.2.observed).2.processor.seen⟩ ::
          later.map fun _ => ⟨.ok c, []⟩ := by
  obtain ⟨hr, hn⟩ := answers_absent (κ := κ) Once.value?_empty hb
  refine ⟨hr, fun first later hf => ?_⟩
  obtain ⟨c, l, hc, ha, hl⟩ := ask_found hn hf
  refine ⟨c, hc, ?_⟩
  rw [answers, Run.answers_append, hr, Run.answers_cons, ha, answers_full hl]

def without : Emulator := { Emulator.new with vmx := false }

/-- A processor whose regions have another revision. -/
def revised : Emulator := Emulator.new.setMsr .vmxBasic 0x00da040000000013

/-- The second of these processors is the first that reports VMX, and the third one is told of its
revision too. -/
theorem later_revision_is_not_seen :
    let asker (e : Emulator) : Asker fun _ : Unit => Emulator := ⟨(), e, {}⟩
    ∃ c, answers BootSnapshot [asker without, asker .new, asker revised, asker without] =
        [.absent, ⟨.ok c, (Capabilities.detect (asker .new).2.observed).2.processor.seen⟩,
          ⟨.ok c, []⟩, ⟨.ok c, []⟩] ∧
      c.basic.revision = 0x12 ∧
      (Capabilities.detect (asker revised).2).1.toOption.map (·.basic.revision) = some 0x13 := by
  intro asker
  have hb : ∀ a ∈ [asker without], a.reports = false := by simp; rfl
  obtain ⟨-, h⟩ := first_detection_is_kept (κ := BootSnapshot) hb
  obtain ⟨c, hc, ha⟩ := h (asker .new) [asker revised, asker without] rfl
  refine ⟨c, ha, ?_, by decide⟩
  cases hc
  decide

end Boot

end VmxControl
