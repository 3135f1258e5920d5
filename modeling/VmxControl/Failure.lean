import VmxControl.ControlGroup
import VmxControl.InstructionError

/-!
# Failures

A failed instruction sets CF when there is no current control structure to hold a reason, and ZF
when there is one; CF is looked at first. An operation of the control plane fails for one of the
causes below. `Failure.message` is its wording, `Failure.debug` its written form.
-/

namespace VmxControl

inductive VmFail where
  | invalid
  | valid
  deriving DecidableEq, Repr

namespace VmFail

/-- The outcome that the two flags stand for. -/
def ofFlags (cf zf : Bool) : Except VmFail Unit :=
  if cf then .error .invalid else if zf then .error .valid else .ok ()

end VmFail

inductive Failure where
  /-- The processor or its firmware does not offer the feature. -/
  | unsupported (feature : String)
  /-- An instruction failed without a current control structure. -/
  | invalid
  | valid (why : InstructionError)
  | controlNotAllowed (group : ControlGroup) (bits : UInt32)
  | fixedBitsViolated (register : String)
  /-- A control structure is current already. -/
  | regionBusy
  | tagsExhausted
  | noMemory
  deriving DecidableEq, Repr

/-- The classes of error that a kernel knows. -/
inductive ErrorClass where
  | unsupported
  | badState
  | invalidInput
  | resourceBusy
  | noMemory
  deriving DecidableEq, Repr

namespace Failure

def kind : Failure → String
  | .unsupported _ => "Unsupported"
  | .invalid => "InvalidFailure"
  | .valid _ => "ValidFailure"
  | .controlNotAllowed _ _ => "ControlNotAllowed"
  | .fixedBitsViolated _ => "FixedBitsViolated"
  | .regionBusy => "RegionBusy"
  | .tagsExhausted => "TagsExhausted"
  | .noMemory => "NoMemory"

def message : Failure → String
  | .unsupported feature => "unsupported: " ++ feature
  | .invalid => "VMX instruction failed without a current VMCS"
  | .valid why => "VMX instruction failed: " ++ why.text
  | .controlNotAllowed group bits =>
    group.name ++ " controls " ++ Text.hex bits.toNat ++ " are not allowed to be 1"
  | .fixedBitsViolated register => register ++ " violates the VMX fixed-bit constraints"
  | .regionBusy => "a VMCS is already current on this CPU"
  | .tagsExhausted => "isolation tags exhausted"
  | .noMemory => "physical frame allocation failed"

def debug (e : Failure) : String :=
  match e with
  | .unsupported feature => e.kind ++ "(" ++ Text.quoted feature ++ ")"
  | .valid why => e.kind ++ "(" ++ why.debug ++ ")"
  | .controlNotAllowed group bits =>
    Text.record e.kind [("group", group.name), ("bits", toString bits.toNat)]
  | .fixedBitsViolated register => e.kind ++ "(" ++ Text.quoted register ++ ")"
  | _ => e.kind

def errorClass : Failure → ErrorClass
  | .unsupported _ => .unsupported
  | .invalid => .badState
  | .valid _ => .badState
  | .controlNotAllowed _ _ => .invalidInput
  | .fixedBitsViolated _ => .invalidInput
  | .regionBusy => .resourceBusy
  | .tagsExhausted => .noMemory
  | .noMemory => .noMemory

/-- A transition that did not happen. -/
def rejection (e : Failure) : String := "transition rejected: " ++ e.message

def rejectionDebug (e : Failure) : String := Text.recordOpen "Rejected" "error" e.debug

/-- A region that was not taken. -/
def refusal (e : Failure) : String := "region refused: " ++ e.message

def refusalDebug (e : Failure) : String := Text.recordOpen "Refused" "error" e.debug

end Failure

end VmxControl
