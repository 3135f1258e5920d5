import Mathlib.Data.List.Nodup
import Mathlib.Logic.Function.Basic
import VmxControl.Detection
import VmxControl.Observer

/-!
# Readings

A reading asks a processor for registers, one after the other, and each word that it gets may decide
what it asks for next. It sees no more of a processor than the words that it asks for, so processors
that agree on these are the same to it. A reading that asks for no register twice cannot even tell
whether the registers change under its eyes.
-/

namespace VmxControl

/-- The words of all registers. -/
abbrev Words := Msr → UInt64

inductive Reading (α : Type) where
  | done (a : α)
  | read (r : Msr) (next : UInt64 → Reading α)

variable {P Q α : Type}

/-- The registers keep their words: CPUID and reads change none, and a read gives the word. -/
structure Processor.Steady [Processor P] (words : P → Words) : Prop where
  word : ∀ r p, (Processor.readMsr r p).1 = words p r
  readMsr : ∀ r p, words (Processor.readMsr r p).2 = words p
  present : ∀ p, words (Processor.present p).2 = words p

namespace Reading

/-- Reads the register only if it is announced. -/
def readIf (announced : Bool) (r : Msr) (next : Option UInt64 → Reading α) : Reading α :=
  if announced then .read r fun w => next (some w) else next none

/-! ## On words -/

/-- What comes of the reading if the registers hold these words. -/
def answer : Reading α → Words → α
  | .done a, _ => a
  | .read r next, w => (next (w r)).answer w

/-- The registers that are asked for, in this order. -/
def asked : Reading α → Words → List Msr
  | .done _, _ => []
  | .read r next, w => r :: (next (w r)).asked w

theorem answer_readIf (c : Bool) (r : Msr) (next : Option UInt64 → Reading α) (w : Words) :
    (readIf c r next).answer w = (next (if c then some (w r) else none)).answer w := by
  cases c <;> rfl

theorem asked_readIf (c : Bool) (r : Msr) (next : Option UInt64 → Reading α) (w : Words) :
    (readIf c r next).asked w =
      (if c then [r] else []) ++ (next (if c then some (w r) else none)).asked w := by
  cases c <;> rfl

/-- Words that agree wherever they are asked for lead to the same questions and the same answer. -/
theorem replay {t : Reading α} {w w' : Words} (h : ∀ r ∈ t.asked w, w' r = w r) :
    t.asked w' = t.asked w ∧ t.answer w' = t.answer w := by
  induction t with
  | done a => exact ⟨rfl, rfl⟩
  | read r next ih =>
    have hr : w' r = w r := h r List.mem_cons_self
    obtain ⟨ha, hx⟩ := ih (w r) fun x hx => h x (List.mem_cons_of_mem r hx)
    rw [asked, asked, answer, answer, hr, ha, hx]
    exact ⟨rfl, rfl⟩

/-! ## On a processor -/

variable [Processor P] [Processor Q]

def run : Reading α → P → α × P
  | .done a, p => (a, p)
  | .read r next, p => (next (Processor.readMsr r p).1).run (Processor.readMsr r p).2

/-- The registers that the run asks for, with the words that it gets. -/
def seen : Reading α → P → List (Msr × UInt64)
  | .done _, _ => []
  | .read r next, p =>
    (r, (Processor.readMsr r p).1) ::
      (next (Processor.readMsr r p).1).seen (Processor.readMsr r p).2

theorem run_readIf (c : Bool) (r : Msr) (next : Option UInt64 → Reading α) (p : P) :
    (readIf c r next).run p =
      (next (VmxControl.readIf c r p).1).run (VmxControl.readIf c r p).2 := by
  cases c <;> rfl

/-- An observer sees the words and makes no difference. -/
theorem run_observer (t : Reading α) (o : Observer P) :
    t.run o = ((t.run o.processor).1, ⟨(t.run o.processor).2,
      ((t.seen o.processor).map fun x => Sight.read x.1 x.2).reverse ++ o.seen⟩) := by
  induction t generalizing o with
  | done a => rfl
  | read r next ih =>
    rw [run, ih]
    simp only [run, seen, List.map_cons, List.reverse_cons, List.append_assoc,
      List.singleton_append]
    rfl

theorem run_steady {words : P → Words} (h : Processor.Steady words) (t : Reading α) (p : P) :
    (t.run p).1 = t.answer (words p) := by
  induction t generalizing p with
  | done a => rfl
  | read r next ih => rw [run, answer, ih, h.word, h.readMsr]

theorem seen_steady {words : P → Words} (h : Processor.Steady words) (t : Reading α) (p : P) :
    t.seen p = (t.asked (words p)).map fun r => (r, words p r) := by
  induction t generalizing p with
  | done a => rfl
  | read r next ih => rw [seen, asked, ih, h.word, h.readMsr, List.map_cons]

/-- A reading that asks for no register twice goes on in the same way whatever becomes of a register
that it has read. -/
theorem replay_update {r : Msr} {next : UInt64 → Reading α}
    (h : ∀ w, ((read r next).asked w).Nodup) (x : UInt64) (w : Words) :
    r ∉ (next x).asked w ∧ ((next x).asked w).Nodup ∧
      (next x).asked (Function.update w r x) = (next x).asked w ∧
      (next x).answer (Function.update w r x) = (next x).answer w := by
  have hn := h (Function.update w r x)
  rw [asked, Function.update_self, List.nodup_cons] at hn
  have hsame : ∀ y ∈ (next x).asked (Function.update w r x),
      w y = Function.update w r x y := fun y hy =>
    (Function.update_of_ne (fun he : y = r => hn.1 (he ▸ hy)) x w).symm
  obtain ⟨hq, ha⟩ := replay hsame
  rw [hq]
  exact ⟨hn.1, hn.2, rfl, ha.symm⟩

/-- Whatever the processor, a reading that asks for no register twice sees what it would see of
words that stay as they are. -/
theorem exists_words {t : Reading α} (h : ∀ w, (t.asked w).Nodup) (p : P) :
    ∃ w, t.seen p = (t.asked w).map (fun r => (r, w r)) ∧ (t.run p).1 = t.answer w := by
  induction t generalizing p with
  | done a => exact ⟨fun _ => 0, rfl, rfl⟩
  | read r next ih =>
    obtain ⟨x, q, hx⟩ : ∃ x q, Processor.readMsr r p = (x, q) := ⟨_, _, rfl⟩
    obtain ⟨w, hs, ha⟩ := ih x (fun w => (replay_update h x w).2.1) q
    obtain ⟨hr, -, hq', ha'⟩ := replay_update h x w
    -- The words of the rest, with the first one put in its place.
    refine ⟨Function.update w r x, ?_, ?_⟩
    · rw [seen, asked, hx, Function.update_self, List.map_cons, Function.update_self, hs, hq']
      refine congrArg _ (List.map_congr_left fun y hy => congrArg _ ?_)
      exact (Function.update_of_ne (fun he : y = r => hr (he ▸ hy)) x w).symm
    · rw [run, answer, hx, Function.update_self, ha, ha']

end Reading

end VmxControl
