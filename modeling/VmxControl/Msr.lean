/-!
# Model-specific registers

The registers that control of VMX operation touches. They are ordered by number, and the list `all`
is in that order.
-/

namespace VmxControl

inductive Msr where
  | featureControl
  | pat
  | vmxBasic
  | vmxPinbasedCtls
  | vmxProcbasedCtls
  | vmxExitCtls
  | vmxEntryCtls
  | vmxMisc
  | vmxCr0Fixed0
  | vmxCr0Fixed1
  | vmxCr4Fixed0
  | vmxCr4Fixed1
  | vmxProcbasedCtls2
  | vmxEptVpidCap
  | vmxTruePinbasedCtls
  | vmxTrueProcbasedCtls
  | vmxTrueExitCtls
  | vmxTrueEntryCtls
  | vmxVmfunc
  | efer
  | fsBase
  | gsBase
  deriving DecidableEq, Repr

namespace Msr

def all : List Msr :=
  [.featureControl, .pat, .vmxBasic, .vmxPinbasedCtls, .vmxProcbasedCtls, .vmxExitCtls,
   .vmxEntryCtls, .vmxMisc, .vmxCr0Fixed0, .vmxCr0Fixed1, .vmxCr4Fixed0, .vmxCr4Fixed1,
   .vmxProcbasedCtls2, .vmxEptVpidCap, .vmxTruePinbasedCtls, .vmxTrueProcbasedCtls,
   .vmxTrueExitCtls, .vmxTrueEntryCtls, .vmxVmfunc, .efer, .fsBase, .gsBase]

def number : Msr → UInt32
  | .featureControl => 0x3a
  | .pat => 0x277
  | .vmxBasic => 0x480
  | .vmxPinbasedCtls => 0x481
  | .vmxProcbasedCtls => 0x482
  | .vmxExitCtls => 0x483
  | .vmxEntryCtls => 0x484
  | .vmxMisc => 0x485
  | .vmxCr0Fixed0 => 0x486
  | .vmxCr0Fixed1 => 0x487
  | .vmxCr4Fixed0 => 0x488
  | .vmxCr4Fixed1 => 0x489
  | .vmxProcbasedCtls2 => 0x48b
  | .vmxEptVpidCap => 0x48c
  | .vmxTruePinbasedCtls => 0x48d
  | .vmxTrueProcbasedCtls => 0x48e
  | .vmxTrueExitCtls => 0x48f
  | .vmxTrueEntryCtls => 0x490
  | .vmxVmfunc => 0x491
  | .efer => 0xc0000080
  | .fsBase => 0xc0000100
  | .gsBase => 0xc0000101

def name : Msr → String
  | .featureControl => "IA32_FEATURE_CONTROL"
  | .pat => "IA32_PAT"
  | .vmxBasic => "IA32_VMX_BASIC"
  | .vmxPinbasedCtls => "IA32_VMX_PINBASED_CTLS"
  | .vmxProcbasedCtls => "IA32_VMX_PROCBASED_CTLS"
  | .vmxExitCtls => "IA32_VMX_EXIT_CTLS"
  | .vmxEntryCtls => "IA32_VMX_ENTRY_CTLS"
  | .vmxMisc => "IA32_VMX_MISC"
  | .vmxCr0Fixed0 => "IA32_VMX_CR0_FIXED0"
  | .vmxCr0Fixed1 => "IA32_VMX_CR0_FIXED1"
  | .vmxCr4Fixed0 => "IA32_VMX_CR4_FIXED0"
  | .vmxCr4Fixed1 => "IA32_VMX_CR4_FIXED1"
  | .vmxProcbasedCtls2 => "IA32_VMX_PROCBASED_CTLS2"
  | .vmxEptVpidCap => "IA32_VMX_EPT_VPID_CAP"
  | .vmxTruePinbasedCtls => "IA32_VMX_TRUE_PINBASED_CTLS"
  | .vmxTrueProcbasedCtls => "IA32_VMX_TRUE_PROCBASED_CTLS"
  | .vmxTrueExitCtls => "IA32_VMX_TRUE_EXIT_CTLS"
  | .vmxTrueEntryCtls => "IA32_VMX_TRUE_ENTRY_CTLS"
  | .vmxVmfunc => "IA32_VMX_VMFUNC"
  | .efer => "IA32_EFER"
  | .fsBase => "IA32_FS_BASE"
  | .gsBase => "IA32_GS_BASE"

def ofNumber? (n : UInt32) : Option Msr := all.find? fun r => r.number == n

theorem mem_all (r : Msr) : r ∈ all := by cases r <;> decide

/-- A register is found again under its own number. -/
@[simp] theorem ofNumber?_number (r : Msr) : ofNumber? r.number = some r := by cases r <;> rfl

/-- The registers of a list in the order of their numbers, equal ones kept. -/
def sort (rs : List Msr) : List Msr := rs.mergeSort fun a b => a.number ≤ b.number

end Msr

end VmxControl
