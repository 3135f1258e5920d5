/-!
# Exit reasons

Why a guest gave control back. The processor reports a 32-bit word: the basic reason in its low
half, and in its top bit whether the entry itself failed. Not every basic reason has a name.
-/

namespace VmxControl

inductive ExitReason where
  | exceptionNmi
  | externalInterrupt
  | tripleFault
  | initSignal
  | sipi
  | smi
  | otherSmi
  | interruptWindow
  | nmiWindow
  | taskSwitch
  | cpuid
  | getsec
  | hlt
  | invd
  | invlpg
  | rdpmc
  | rdtsc
  | rsm
  | vmcall
  | vmclear
  | vmlaunch
  | vmptrld
  | vmptrst
  | vmread
  | vmresume
  | vmwrite
  | vmoff
  | vmon
  | crAccess
  | drAccess
  | ioInstruction
  | msrRead
  | msrWrite
  | invalidGuestState
  | msrLoadFail
  | mwaitInstruction
  | monitorTrapFlag
  | monitorInstruction
  | pauseInstruction
  | mceDuringVmentry
  | tprBelowThreshold
  | apicAccess
  | virtualizedEoi
  | gdtrIdtr
  | ldtrTr
  | eptViolation
  | eptMisconfig
  | invept
  | rdtscp
  | preemptionTimer
  | invvpid
  | wbinvd
  | xsetbv
  | apicWrite
  | rdrand
  | invpcid
  | vmfunc
  | encls
  | rdseed
  | pmlFull
  | xsaves
  | xrstors
  | sppEvent
  | umwait
  | tpause
  | loadiwkey
  deriving DecidableEq, Repr

namespace ExitReason

def all : List ExitReason :=
  [.exceptionNmi, .externalInterrupt, .tripleFault, .initSignal, .sipi, .smi, .otherSmi,
   .interruptWindow, .nmiWindow, .taskSwitch, .cpuid, .getsec, .hlt, .invd, .invlpg, .rdpmc,
   .rdtsc, .rsm, .vmcall, .vmclear, .vmlaunch, .vmptrld, .vmptrst, .vmread, .vmresume,
   .vmwrite, .vmoff, .vmon, .crAccess, .drAccess, .ioInstruction, .msrRead, .msrWrite,
   .invalidGuestState, .msrLoadFail, .mwaitInstruction, .monitorTrapFlag, .monitorInstruction,
   .pauseInstruction, .mceDuringVmentry, .tprBelowThreshold, .apicAccess, .virtualizedEoi,
   .gdtrIdtr, .ldtrTr, .eptViolation, .eptMisconfig, .invept, .rdtscp, .preemptionTimer,
   .invvpid, .wbinvd, .xsetbv, .apicWrite, .rdrand, .invpcid, .vmfunc, .encls, .rdseed,
   .pmlFull, .xsaves, .xrstors, .sppEvent, .umwait, .tpause, .loadiwkey]

def code : ExitReason → UInt32
  | .exceptionNmi => 0
  | .externalInterrupt => 1
  | .tripleFault => 2
  | .initSignal => 3
  | .sipi => 4
  | .smi => 5
  | .otherSmi => 6
  | .interruptWindow => 7
  | .nmiWindow => 8
  | .taskSwitch => 9
  | .cpuid => 10
  | .getsec => 11
  | .hlt => 12
  | .invd => 13
  | .invlpg => 14
  | .rdpmc => 15
  | .rdtsc => 16
  | .rsm => 17
  | .vmcall => 18
  | .vmclear => 19
  | .vmlaunch => 20
  | .vmptrld => 21
  | .vmptrst => 22
  | .vmread => 23
  | .vmresume => 24
  | .vmwrite => 25
  | .vmoff => 26
  | .vmon => 27
  | .crAccess => 28
  | .drAccess => 29
  | .ioInstruction => 30
  | .msrRead => 31
  | .msrWrite => 32
  | .invalidGuestState => 33
  | .msrLoadFail => 34
  | .mwaitInstruction => 36
  | .monitorTrapFlag => 37
  | .monitorInstruction => 39
  | .pauseInstruction => 40
  | .mceDuringVmentry => 41
  | .tprBelowThreshold => 43
  | .apicAccess => 44
  | .virtualizedEoi => 45
  | .gdtrIdtr => 46
  | .ldtrTr => 47
  | .eptViolation => 48
  | .eptMisconfig => 49
  | .invept => 50
  | .rdtscp => 51
  | .preemptionTimer => 52
  | .invvpid => 53
  | .wbinvd => 54
  | .xsetbv => 55
  | .apicWrite => 56
  | .rdrand => 57
  | .invpcid => 58
  | .vmfunc => 59
  | .encls => 60
  | .rdseed => 61
  | .pmlFull => 62
  | .xsaves => 63
  | .xrstors => 64
  | .sppEvent => 66
  | .umwait => 67
  | .tpause => 68
  | .loadiwkey => 69

def name : ExitReason → String
  | .exceptionNmi => "EXCEPTION_NMI"
  | .externalInterrupt => "EXTERNAL_INTERRUPT"
  | .tripleFault => "TRIPLE_FAULT"
  | .initSignal => "INIT"
  | .sipi => "SIPI"
  | .smi => "SMI"
  | .otherSmi => "OTHER_SMI"
  | .interruptWindow => "INTERRUPT_WINDOW"
  | .nmiWindow => "NMI_WINDOW"
  | .taskSwitch => "TASK_SWITCH"
  | .cpuid => "CPUID"
  | .getsec => "GETSEC"
  | .hlt => "HLT"
  | .invd => "INVD"
  | .invlpg => "INVLPG"
  | .rdpmc => "RDPMC"
  | .rdtsc => "RDTSC"
  | .rsm => "RSM"
  | .vmcall => "VMCALL"
  | .vmclear => "VMCLEAR"
  | .vmlaunch => "VMLAUNCH"
  | .vmptrld => "VMPTRLD"
  | .vmptrst => "VMPTRST"
  | .vmread => "VMREAD"
  | .vmresume => "VMRESUME"
  | .vmwrite => "VMWRITE"
  | .vmoff => "VMOFF"
  | .vmon => "VMON"
  | .crAccess => "CR_ACCESS"
  | .drAccess => "DR_ACCESS"
  | .ioInstruction => "IO_INSTRUCTION"
  | .msrRead => "MSR_READ"
  | .msrWrite => "MSR_WRITE"
  | .invalidGuestState => "INVALID_GUEST_STATE"
  | .msrLoadFail => "MSR_LOAD_FAIL"
  | .mwaitInstruction => "MWAIT_INSTRUCTION"
  | .monitorTrapFlag => "MONITOR_TRAP_FLAG"
  | .monitorInstruction => "MONITOR_INSTRUCTION"
  | .pauseInstruction => "PAUSE_INSTRUCTION"
  | .mceDuringVmentry => "MCE_DURING_VMENTRY"
  | .tprBelowThreshold => "TPR_BELOW_THRESHOLD"
  | .apicAccess => "APIC_ACCESS"
  | .virtualizedEoi => "VIRTUALIZED_EOI"
  | .gdtrIdtr => "GDTR_IDTR"
  | .ldtrTr => "LDTR_TR"
  | .eptViolation => "EPT_VIOLATION"
  | .eptMisconfig => "EPT_MISCONFIG"
  | .invept => "INVEPT"
  | .rdtscp => "RDTSCP"
  | .preemptionTimer => "PREEMPTION_TIMER"
  | .invvpid => "INVVPID"
  | .wbinvd => "WBINVD"
  | .xsetbv => "XSETBV"
  | .apicWrite => "APIC_WRITE"
  | .rdrand => "RDRAND"
  | .invpcid => "INVPCID"
  | .vmfunc => "VMFUNC"
  | .encls => "ENCLS"
  | .rdseed => "RDSEED"
  | .pmlFull => "PML_FULL"
  | .xsaves => "XSAVES"
  | .xrstors => "XRSTORS"
  | .sppEvent => "SPP_EVENT"
  | .umwait => "UMWAIT"
  | .tpause => "TPAUSE"
  | .loadiwkey => "LOADIWKEY"

def ofCode? (n : UInt32) : Option ExitReason := all.find? fun r => r.code == n

theorem mem_all (r : ExitReason) : r ∈ all := by cases r <;> decide

/-- A reason is found again under its own code. -/
@[simp] theorem ofCode?_code (r : ExitReason) : ofCode? r.code = some r := by cases r <;> rfl

end ExitReason

/-- The exit-reason word as the processor reports it. -/
structure RawExit where
  word : UInt32
  deriving DecidableEq, Repr

namespace RawExit

/-- Set in the word of an exit that stands for a failed entry. -/
def entryFailureBit : UInt32 := 0x80000000

def basic (r : RawExit) : UInt16 := r.word.toUInt16

def entryFailure (r : RawExit) : Bool := r.word &&& entryFailureBit != 0

def reason? (r : RawExit) : Option ExitReason := ExitReason.ofCode? r.basic.toUInt32

def debug (r : RawExit) : String := "VmxRawExitReason(" ++ toString r.word.toNat ++ ")"

end RawExit

end VmxControl
