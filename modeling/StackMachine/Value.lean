import StackMachine.Number.Decimal
import StackMachine.Text.Quoted

/-!
Values. Every slot of a stack and every operand of an instruction holds one
value. A value has a plain text, which printing shows, and a quoted text, which
differs from it for texts only.
-/

namespace StackMachine

inductive Kind where
  | nil
  | number
  | text
deriving DecidableEq, Repr

namespace Kind

def name : Kind → String
  | .nil => "Nil"
  | .number => "Number"
  | .text => "String"

end Kind

inductive Value where
  | nil
  | number (n : Number)
  | text (s : String)
deriving DecidableEq

namespace Value

instance : Inhabited Value := ⟨.nil⟩

def ofNat (n : Nat) : Value :=
  .number (.ofNat n)

def kind : Value → Kind
  | .nil => .nil
  | .number _ => .number
  | .text _ => .text

def plain : Value → String
  | .nil => "nil"
  | .number n => n.text
  | .text s => s

def quoted : Value → String
  | .text s => Quoted.text s
  | value => value.plain

/-- Equality of kind and content; numbers are compared by position, so no
number at all differs from itself and the two zeros are equal. -/
def equals : Value → Value → Bool
  | .nil, .nil => true
  | .number x, .number y => x.equals y
  | .text s, .text t => s == t
  | _, _ => false

end Value

end StackMachine
