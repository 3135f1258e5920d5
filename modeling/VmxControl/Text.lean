import VmxControl.Text.Shapeless

/-!
# Written forms

Words are written in hexadecimal, records with their fields in braces, strings in quotes. A physical
address carries the mark `PA:`. Every text that leaves the library is put together from these.
-/

namespace VmxControl.Text

/-- Lower-case digits after `0x`, without leading zeros. -/
def hex (n : Nat) : String := "0x" ++ String.ofList (Nat.toDigits 16 n)

def address (a : UInt64) : String := "PA:" ++ hex a.toNat

def commas (xs : List String) : String := ", ".intercalate xs

/-- A record: its name, then each field with its value. -/
def record (name : String) (fields : List (String × String)) : String :=
  name ++ " \x7b " ++ commas (fields.map fun f => f.1 ++ ": " ++ f.2) ++ " \x7d"

/-- A record that shows one field of several. -/
def recordOpen (name field value : String) : String :=
  name ++ " \x7b " ++ field ++ ": " ++ value ++ ", .. \x7d"

def option (x : Option String) : String :=
  match x with
  | none => "None"
  | some s => "Some(" ++ s ++ ")"

/-- A character without a shape of its own is written by its number. -/
def quoteChar (c : Char) : String :=
  if c = '"' then "\\\""
  else if c = '\\' then "\\\\"
  else if c = '\n' then "\\n"
  else if c = '\t' then "\\t"
  else if c = '\r' then "\\r"
  else if c.toNat = 0 then "\\0"
  else if Shapeless c then
    "\\u\x7b" ++ String.ofList (Nat.toDigits 16 c.toNat) ++ "\x7d"
  else String.singleton c

def quoted (s : String) : String :=
  "\"" ++ String.join (s.toList.map quoteChar) ++ "\""

end VmxControl.Text
