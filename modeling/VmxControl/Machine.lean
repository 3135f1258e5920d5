import VmxControl.Field
import VmxControl.Frame
import VmxControl.Processor

/-!
# Machines

A processor together with the host it runs on. An instruction runs on the processor; when it
fails, the cause is read from the current control structure, which is an instruction too and may
fail as well.
-/

namespace VmxControl

structure Machine (P : Type) where
  processor : P
  host : Host

namespace Machine

variable {P α : Type} [Processor P]

def note (s : Machine P) (id : UInt64) (n : CoreNote) : Machine P :=
  { s with host := s.host.note (.core id n) }

def release (s : Machine P) (f : Frame) : Machine P := { s with host := s.host.release f }

def exec (s : Machine P) (i : P → Except VmFail α × P) : Except VmFail α × Machine P :=
  let (r, p) := i s.processor
  (r, { s with processor := p })

/-- The cause of a failure. An unreadable number counts as zero. -/
def diagnose (s : Machine P) (f : VmFail) : Failure × Machine P :=
  match f with
  | .invalid => (.invalid, s)
  | .valid =>
    match s.exec (Processor.vmread Field.instructionError) with
    | (.ok v, s) => (.valid ⟨v.toUInt32⟩, s)
    | (.error _, s) => (.valid ⟨0⟩, s)

/-- Runs one instruction and finds the cause if it fails. -/
def attempt (s : Machine P) (i : P → Except VmFail α × P) : Except Failure α × Machine P :=
  match s.exec i with
  | (.ok a, s) => (.ok a, s)
  | (.error f, s) =>
    let (why, s) := s.diagnose f
    (.error why, s)

theorem of_attempt_ok {s t : Machine P} {i : P → Except VmFail α × P} {a : α}
    (h : s.attempt i = (.ok a, t)) : i s.processor = (.ok a, t.processor) ∧ t.host = s.host := by
  rcases hi : i s.processor with ⟨f | b, p⟩
  · simp [attempt, exec, hi] at h
  · simp only [attempt, exec, hi, Prod.mk.injEq] at h
    obtain ⟨he, rfl⟩ := h
    cases he
    exact ⟨rfl, rfl⟩

def writeCr4 (s : Machine P) (v : UInt64) : Machine P :=
  { s with processor := Processor.writeCr4 v s.processor }

def clearVmxe (s : Machine P) : Machine P :=
  s.writeCr4 (Processor.readCr4 s.processor &&& ~~~vmxe)

end Machine

end VmxControl
