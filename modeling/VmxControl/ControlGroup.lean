/-!
# Control groups

The processor's controls for running a guest come in five groups, each with a capability word.
-/

namespace VmxControl

inductive ControlGroup where
  | pinBased
  | primary
  | secondary
  | exit
  | entry
  deriving DecidableEq, Repr

namespace ControlGroup

def all : List ControlGroup := [.pinBased, .primary, .secondary, .exit, .entry]

def name : ControlGroup → String
  | .pinBased => "PinBased"
  | .primary => "PrimaryProcessor"
  | .secondary => "SecondaryProcessor"
  | .exit => "Exit"
  | .entry => "Entry"

def ofName? (s : String) : Option ControlGroup := all.find? fun g => g.name == s

end ControlGroup

end VmxControl
