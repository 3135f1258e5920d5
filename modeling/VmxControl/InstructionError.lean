import VmxControl.Text

/-!
# VM-instruction errors

The number that a failed instruction leaves in the current control structure, and its wording.
-/

namespace VmxControl

structure InstructionError where
  code : UInt32
  deriving DecidableEq, Repr

namespace InstructionError

def vmclearVmxonPointer : InstructionError := ⟨3⟩
def vmlaunchNonClear : InstructionError := ⟨4⟩
def vmresumeNonLaunched : InstructionError := ⟨5⟩
def vmptrldVmxonPointer : InstructionError := ⟨10⟩
def vmptrldIncorrectRevision : InstructionError := ⟨11⟩
def vmwriteReadOnly : InstructionError := ⟨13⟩
def vmxonInRoot : InstructionError := ⟨15⟩
def invalidInvalidationOperand : InstructionError := ⟨28⟩

def text (e : InstructionError) : String :=
  match e.code.toNat with
  | 0 => "OK"
  | 1 => "VMCALL executed in VMX root operation"
  | 2 => "VMCLEAR with invalid physical address"
  | 3 => "VMCLEAR with VMXON pointer"
  | 4 => "VMLAUNCH with non-clear VMCS"
  | 5 => "VMRESUME with non-launched VMCS"
  | 6 => "VMRESUME after VMXOFF (VMXOFF and VMXON between VMLAUNCH and VMRESUME)"
  | 7 => "VM entry with invalid control field(s)"
  | 8 => "VM entry with invalid host-state field(s)"
  | 9 => "VMPTRLD with invalid physical address"
  | 10 => "VMPTRLD with VMXON pointer"
  | 11 => "VMPTRLD with incorrect VMCS revision identifier"
  | 12 => "VMREAD/VMWRITE from/to unsupported VMCS component"
  | 13 => "VMWRITE to read-only VMCS component"
  | 15 => "VMXON executed in VMX root operation"
  | 16 => "VM entry with invalid executive-VMCS pointer"
  | 17 => "VM entry with non-launched executive VMCS"
  | 18 => "VM entry with executive-VMCS pointer not VMXON pointer"
  | 19 => "VMCALL with non-clear VMCS"
  | 20 => "VMCALL with invalid VM-exit control fields"
  | 22 => "VMCALL with incorrect MSEG revision identifier"
  | 23 => "VMXOFF under dual-monitor treatment of SMIs and SMM"
  | 24 => "VMCALL with invalid SMM-monitor features"
  | 25 => "VM entry with invalid VM-execution control fields in executive VMCS"
  | 26 => "VM entry with events blocked by MOV SS"
  | 28 => "Invalid operand to INVEPT/INVVPID"
  | _ => "[INVALID]"

def debug (e : InstructionError) : String :=
  "VmxInstructionError(" ++ toString e.code.toNat ++ ", " ++ Text.quoted e.text ++ ")"

end InstructionError

end VmxControl
