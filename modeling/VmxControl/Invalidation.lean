/-!
# Scopes of an invalidation

Translations that went through extended page tables are dropped for one table or for all; those that
carry a tag, for one address, one tag or all, or for one tag except its global pages.
-/

namespace VmxControl

inductive EptScope where
  | singleContext
  | allContexts
  deriving DecidableEq, Repr

inductive VpidScope where
  | individualAddress
  | singleContext
  | allContexts
  | singleContextRetainingGlobals
  deriving DecidableEq, Repr

namespace EptScope

def all : List EptScope := [.singleContext, .allContexts]

def code : EptScope → UInt64
  | .singleContext => 1
  | .allContexts => 2

def name : EptScope → String
  | .singleContext => "SingleContext"
  | .allContexts => "AllContexts"

def ofCode? (n : UInt64) : Option EptScope := all.find? fun s => s.code == n

@[simp] theorem ofCode?_code (s : EptScope) : ofCode? s.code = some s := by cases s <;> rfl

end EptScope

namespace VpidScope

def all : List VpidScope :=
  [.individualAddress, .singleContext, .allContexts, .singleContextRetainingGlobals]

def code : VpidScope → UInt64
  | .individualAddress => 0
  | .singleContext => 1
  | .allContexts => 2
  | .singleContextRetainingGlobals => 3

def name : VpidScope → String
  | .individualAddress => "IndividualAddress"
  | .singleContext => "SingleContext"
  | .allContexts => "AllContexts"
  | .singleContextRetainingGlobals => "SingleContextRetainingGlobals"

def ofCode? (n : UInt64) : Option VpidScope := all.find? fun s => s.code == n

@[simp] theorem ofCode?_code (s : VpidScope) : ofCode? s.code = some s := by cases s <;> rfl

end VpidScope

end VmxControl
