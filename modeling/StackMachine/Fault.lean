import StackMachine.Value
import StackMachine.Opcode

/-!
Faults of a running program, one constructor for each cause, and the fixed
wording of each. A fault says nothing about where it arose.
-/

namespace StackMachine

inductive ErrorClass where
  | stack
  | value
  | code
deriving DecidableEq, Repr

namespace ErrorClass

def name : ErrorClass → String
  | .stack => "StackError"
  | .value => "ValueError"
  | .code => "CodeError"

end ErrorClass

inductive Fault where
  | full (stack : String)
  | empty (stack : String)
  | pointerOutside (stack : String) (pointer : Int)
  | addressOutside (stack : String) (address : Nat)
  /-- A slot beyond the array. No operation on a valid stack raises it. -/
  | slotOutside (stack : String) (index : Nat)
  | notWhole (what : String) (found : Number)
  | notNumber (what : String) (found : Kind)
  | kindMismatch (verb : String) (left right : Kind)
  | missingOperand (op : Opcode)
  | tooFewArguments (wanted held : Nat)
  | noRoomForFrame
  | returnWithoutCall
  | nothingReturned
  /-- A return address whose successor is no 64-bit address. -/
  | returnOutside (site : Nat)
deriving DecidableEq

namespace Fault

def errorClass : Fault → ErrorClass
  | .full _ | .empty _ | .pointerOutside _ _ | .addressOutside _ _ | .slotOutside _ _
  | .tooFewArguments _ _ | .noRoomForFrame => .stack
  | .notWhole _ _ | .notNumber _ _ | .kindMismatch _ _ _ | .returnOutside _ => .value
  | .missingOperand _ | .returnWithoutCall | .nothingReturned => .code

def message : Fault → String
  | .full stack => "cannot push because " ++ stack ++ " is full"
  | .empty stack => "cannot pop because " ++ stack ++ " is empty"
  | .pointerOutside stack pointer =>
      "pointer " ++ toString pointer ++ " out of range for " ++ stack
  | .addressOutside stack address =>
      "address " ++ toString address ++ " out of range for " ++ stack
  | .slotOutside stack index =>
      "slot " ++ toString index ++ " out of range for " ++ stack
  | .notWhole what found => what ++ " must be a whole number, found " ++ found.text
  | .notNumber what found => what ++ " must be a Number, found " ++ found.name ++ " value"
  | .kindMismatch verb left right =>
      "cannot " ++ verb ++ " " ++ left.name ++ " value with " ++ right.name ++ " value"
  | .missingOperand op =>
      "expected " ++ toString op.arity ++ (if op.arity = 1 then " operand" else " operands")
        ++ " from " ++ op.mnemonic
  | .tooFewArguments wanted held =>
      "call expects " ++ toString wanted ++ " arguments, stack holds " ++ toString held
  | .noRoomForFrame => "cannot call because stack is full"
  | .returnWithoutCall => "return without call"
  | .nothingReturned => "no value returned from function"
  | .returnOutside site => "return address must be a valid address, found " ++ toString site

end Fault

namespace Value

def whole (what : String) : Value → Except Fault Nat
  | .number n =>
      match n.whole? with
      | some count => .ok count
      | none => .error (.notWhole what n)
  | value => .error (.notNumber what value.kind)

theorem whole_lt {what : String} {value : Value} {n : Nat} (h : value.whole what = .ok n) :
    n < Number.wholeLimit := by
  unfold whole at h
  split at h
  · split at h
    · cases h
      exact Number.whole?_lt (by assumption)
    · cases h
  · cases h

end Value

end StackMachine
