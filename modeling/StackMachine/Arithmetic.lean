import StackMachine.Fault

/-!
Operators and relations on values. The left operand is the one pushed first.
Arithmetic and order are for two numbers only; equality is for two numbers or
two texts, and every other pair of kinds is a fault.
-/

namespace StackMachine

def numbers (verb : String) (left right : Value) : Except Fault (Number × Number) :=
  match left, right with
  | .number x, .number y => .ok (x, y)
  | _, _ => .error (.kindMismatch verb left.kind right.kind)

namespace Operator

def compute : Operator → Number → Number → Number
  | .add => Number.add
  | .sub => Number.sub
  | .mul => Number.mul
  | .div => Number.div
  | .and => Number.bitAnd
  | .or => Number.bitOr
  | .xor => Number.bitXor

def apply (operator : Operator) (left right : Value) : Except Fault Value := do
  let (x, y) ← numbers operator.mnemonic left right
  return .number (operator.compute x y)

theorem apply_number (operator : Operator) (x y : Number) :
    operator.apply (.number x) (.number y) = .ok (.number (operator.compute x y)) := rfl

end Operator

namespace Relation

def compare : Relation → Number → Number → Bool
  | .equal, x, y => x.equals y
  | .less, x, y => x.less y
  | .lessEqual, x, y => x.lessEqual y
  | .greater, x, y => y.less x
  | .greaterEqual, x, y => y.lessEqual x

def holds (relation : Relation) (left right : Value) : Except Fault Bool :=
  match relation, left, right with
  | .equal, .text s, .text t => .ok (s == t)
  | _, _, _ => do
      let (x, y) ← numbers "compare" left right
      return relation.compare x y

end Relation

end StackMachine
