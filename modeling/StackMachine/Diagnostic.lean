import StackMachine.Program
import StackMachine.Source.Token

/-!
Diagnostics: what is reported to the user. A diagnostic has a class and a text,
and says where it arose as far as that is known: a source line with a span of
columns, or the address of an instruction.
-/

namespace StackMachine

structure Diagnostic where
  errorClass : ErrorClass
  text : String
  line : Option Nat
  /-- The span from zero to zero stands for no span. -/
  column : Span
  address : Option Nat
deriving DecidableEq

structure RuntimeError where
  fault : Fault
  address : Nat
deriving DecidableEq

namespace Diagnostic

def ofFault (fault : Fault) : Diagnostic :=
  ⟨fault.errorClass, fault.message, none, ⟨0, 0⟩, none⟩

/-- Adds an address; the first one stays. -/
def atAddress (d : Diagnostic) (address : Nat) : Diagnostic :=
  { d with address := d.address.or (some address) }

def isRuntime (d : Diagnostic) : Bool :=
  d.address.isSome

def lineText (d : Diagnostic) : String :=
  match d.line with
  | some number => " in line " ++ toString number
  | none => ""

def columnText (d : Diagnostic) : String :=
  if d.column = ⟨0, 0⟩ then ""
  else " (" ++ toString d.column.start ++ ".." ++ toString d.column.stop ++ ")"

def placeText (d : Diagnostic) : String :=
  match d.address with
  | some address => " at " ++ addressText address
  | none => ""

def render (d : Diagnostic) : String :=
  d.errorClass.name ++ (if d.text = "" then "" else ": " ++ d.text)
    ++ d.lineText ++ d.columnText ++ d.placeText

def marked (d : Diagnostic) : String :=
  "Error \x7b " ++ d.render ++ " \x7d"

end Diagnostic

namespace RuntimeError

def diagnostic (e : RuntimeError) : Diagnostic :=
  (Diagnostic.ofFault e.fault).atAddress e.address

end RuntimeError

end StackMachine
