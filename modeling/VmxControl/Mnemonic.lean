/-!
# Mnemonics

Names of the instructions that can be told to fail.
-/

namespace VmxControl

inductive Mnemonic where
  | vmxon
  | vmxoff
  | vmptrld
  | vmclear
  | vmread
  | vmwrite
  | vmlaunch
  | vmresume
  | invept
  | invvpid
  | hostState
  deriving DecidableEq, Repr

namespace Mnemonic

def all : List Mnemonic :=
  [.vmxon, .vmxoff, .vmptrld, .vmclear, .vmread, .vmwrite, .vmlaunch, .vmresume, .invept, .invvpid,
   .hostState]

def name : Mnemonic → String
  | .vmxon => "vmxon"
  | .vmxoff => "vmxoff"
  | .vmptrld => "vmptrld"
  | .vmclear => "vmclear"
  | .vmread => "vmread"
  | .vmwrite => "vmwrite"
  | .vmlaunch => "vmlaunch"
  | .vmresume => "vmresume"
  | .invept => "invept"
  | .invvpid => "invvpid"
  | .hostState => "host_state"

def ofName? (s : String) : Option Mnemonic := all.find? fun m => m.name == s

end Mnemonic

end VmxControl
